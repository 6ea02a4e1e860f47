/-!
# Shortest decimals

A binary number is written with the fewest decimal digits that still read back as the same
number, and of those with the digits nearest to it. Everything is decided on exact natural
numbers.
-/
namespace TilePyramid.Decimal

/-- What a floating point number stands for. A finite number is `mantissa * 2 ^ exponent`;
`narrowBelow` marks a power of two, whose gap to the next smaller number is half as wide. -/
inductive Binary where
  | nan
  | infinite (negative : Bool)
  | finite (negative : Bool) (mantissa : Nat) (exponent : Int) (narrowBelow : Bool)

/-- Decodes a number of `fraction` stored mantissa bits and exponent bits up to `top`. -/
def Binary.decode (bits fraction top : Nat) : Binary :=
  let stored := bits % (1 <<< fraction)
  let biased := (bits >>> fraction) % (top + 1)
  let negative := bits >>> fraction > top
  let lowest : Int := 1 - (top / 2 : Nat) - (fraction : Nat)
  if biased = top then
    if stored = 0 then .infinite negative else .nan
  else if biased = 0 then .finite negative stored lowest false
  else .finite negative ((1 <<< fraction) + stored) (lowest + (biased - 1 : Nat))
    (stored = 0 && biased > 1)

def Binary.ofFloat (x : Float) : Binary := .decode x.toBits.toNat 52 2047

/-- Which of two equally near decimals is written. -/
inductive Tie where
  | up
  | even

/-- A natural number times a power of ten. -/
structure Digits where
  digits : Nat
  exponent : Int
  deriving DecidableEq, Repr

/-- Drops trailing zeros of the digits; the steps bound their number. -/
def Digits.strip : Nat → Digits → Digits
  | 0, d => d
  | steps + 1, d =>
    if d.digits % 10 = 0 then strip steps ⟨d.digits / 10, d.exponent + 1⟩ else d

/-- Ten to the power `n`. -/
def tenPow (n : Nat) : Nat := Nat.pow 10 n

/-- The exponent of the first decimal digit of `num / den`, looked for downward from `top`. -/
def leadingExponent (num den : Nat) : Nat → Int → Int
  | 0, top => top
  | steps + 1, top =>
    if den * tenPow top.toNat ≤ num * tenPow (-top).toNat then top
    else leadingExponent num den steps (top - 1)

/-- The multiple of `10 ^ e` next to `value / den` within the interval from `low / den` to
`high / den`, if there is one. The ends belong to the interval when `closed` holds. -/
def nearestOnGrid (tie : Tie) (closed : Bool) (low value high den : Nat) (e : Int) :
    Option Digits :=
  let up := tenPow (-e).toNat
  let unit := den * tenPow e.toNat
  let below := value * up / unit
  let inside (c : Nat) : Bool :=
    if closed then low * up ≤ c * unit && c * unit ≤ high * up
    else low * up < c * unit && c * unit < high * up
  let rest := 2 * (value * up % unit)
  let preferBelow := rest < unit || rest = unit &&
    match tie with
    | .up => false
    | .even => below % 2 = 0
  match inside below, inside (below + 1) with
  | true, true => some ⟨if preferBelow then below else below + 1, e⟩
  | true, false => some ⟨below, e⟩
  | false, true => some ⟨below + 1, e⟩
  | false, false => none

/-- Tries grids of one digit, two digits, and so on. -/
def searchGrids (tie : Tie) (closed : Bool) (low value high den : Nat) : Nat → Int → Digits
  | 0, e => ⟨value * tenPow (-e).toNat / (den * tenPow e.toNat), e⟩
  | steps + 1, e =>
    match nearestOnGrid tie closed low value high den e with
    | some d => d
    | none => searchGrids tie closed low value high den steps (e - 1)

/-- The shortest decimal that reads back as `mantissa * 2 ^ exponent`. -/
def shortest (tie : Tie) (mantissa : Nat) (exponent : Int) (narrowBelow : Bool) : Digits :=
  if mantissa = 0 then ⟨0, 0⟩ else
    let up := 1 <<< (exponent - 2).toNat
    let den := 1 <<< (2 - exponent).toNat
    let value := 4 * mantissa * up
    let low := (4 * mantissa - if narrowBelow then 1 else 2) * up
    let high := (4 * mantissa + 2) * up
    let top : Int := ((mantissa.log2 : Int) + exponent) * 3 / 10 + 2
    let first := leadingExponent value den 700 top
    (searchGrids tie (mantissa % 2 = 0) low value high den 17 first).strip 20

end TilePyramid.Decimal
