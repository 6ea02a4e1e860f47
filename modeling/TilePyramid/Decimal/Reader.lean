import TilePyramid.Arith

/-!
# Reading numbers

A decimal is an optional sign, digits with an optional point, and an optional exponent, or one
of the names for infinity and for no number in any case. Whole numbers are digits within a
range. Reading rounds to the nearest machine number.
-/
namespace TilePyramid.Decimal

/-- A decimal as written: `mantissa * 10 ^ exponent` with a sign, or a named value. -/
inductive Literal where
  | nan
  | infinite (negative : Bool)
  | finite (negative : Bool) (mantissa : Nat) (exponent : Int)
  deriving DecidableEq, Repr

/-- The value of a digit, from 0 to 9. -/
def digit? (c : Char) : Option Nat :=
  if '0' ≤ c && c ≤ '9' then some (c.toNat - '0'.toNat) else none

def isDigit (c : Char) : Bool := (digit? c).isSome

/-- Reads digits after those already read. -/
def extend (start : Nat) (cs : List Char) : Nat :=
  cs.foldl (fun n c => n * 10 + (digit? c).getD 0) start

/-- A sign in front of the rest. -/
def splitSign : List Char → Bool × List Char
  | '-' :: cs => (true, cs)
  | '+' :: cs => (false, cs)
  | cs => (false, cs)

/-- The exponent part, which may be missing. -/
def exponentPart : List Char → Option Int
  | [] => some 0
  | c :: cs =>
    if c = 'e' || c = 'E' then
      let (negative, ds) := splitSign cs
      if ds.isEmpty || !ds.all isDigit then none
      else some (if negative then -(extend 0 ds : Int) else extend 0 ds)
    else none

def lowerText (cs : List Char) : String := String.ofList (cs.map Char.toLower)

/-- Reads a whole text as a decimal. -/
def literal? (text : String) : Option Literal :=
  let (negative, cs) := splitSign text.toList
  let whole := cs.takeWhile isDigit
  let rest := cs.dropWhile isDigit
  let (fraction, tail) :=
    match rest with
    | '.' :: r => (r.takeWhile isDigit, r.dropWhile isDigit)
    | r => ([], r)
  if whole.isEmpty && fraction.isEmpty then
    if lowerText cs = "nan" then some .nan
    else if lowerText cs = "inf" || lowerText cs = "infinity" then some (.infinite negative)
    else none
  else
    (exponentPart tail).map fun e =>
      .finite negative (extend (extend 0 whole) fraction) (e - fraction.length)

/-- Numbers that a decimal can be rounded to. -/
class OfLiteral (α : Type) where
  ofLiteral : Literal → α

/-- Decimals of this many places more than any machine number are zero or infinite. -/
def farExponent : Int := 400

instance : OfLiteral Float where
  ofLiteral
    | .nan => 0.0 / 0.0
    | .infinite negative => if negative then -1.0 / 0.0 else 1.0 / 0.0
    | .finite negative m e =>
      let size := e + (toString m).length
      let x :=
        if m = 0 || size < -farExponent then 0.0
        else if farExponent < size then 1.0 / 0.0
        else if 0 ≤ e then Float.ofScientific m false e.toNat
        else Float.ofScientific m true (-e).toNat
      if negative then -x else x

instance : OfLiteral Float32 where
  ofLiteral
    | .nan => 0.0 / 0.0
    | .infinite negative => if negative then -1.0 / 0.0 else 1.0 / 0.0
    | .finite negative m e =>
      let size := e + (toString m).length
      let x :=
        if m = 0 || size < -farExponent then 0.0
        else if farExponent < size then 1.0 / 0.0
        else if 0 ≤ e then Float32.ofScientific m false e.toNat
        else Float32.ofScientific m true (-e).toNat
      if negative then -x else x

def read? (α : Type) [OfLiteral α] (text : String) : Option α :=
  (literal? text).map OfLiteral.ofLiteral

/-- Reads a whole number from `lo` to `hi`, with an optional sign. A minus sign is refused where
no negative number is in range. -/
def integer? (lo hi : Int) (text : String) : Option Int :=
  let cs := text.toList
  let (negative, ds) :=
    match cs with
    | '-' :: r => if lo < 0 then (true, r) else (false, cs)
    | '+' :: r => (false, r)
    | _ => (false, cs)
  if ds.isEmpty || !ds.all isDigit then none
  else
    let n : Int := if negative then -(extend 0 ds : Int) else extend 0 ds
    if lo ≤ n && n ≤ hi then some n else none

end TilePyramid.Decimal
