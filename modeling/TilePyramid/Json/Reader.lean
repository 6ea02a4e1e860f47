import TilePyramid.Decimal.Reader
import TilePyramid.Json.Value

/-!
# Reading structured values

A text is cut into tokens, and the tokens are folded over a stack of open arrays and objects. A
number with a point or an exponent is its digits scaled by one tabulated power of ten at a time,
so its last bit depends on how it is written.
-/
namespace TilePyramid.Json

open Decimal (isDigit digit? extend)

inductive Token where
  | openArray
  | closeArray
  | openObject
  | closeObject
  | comma
  | colon
  | value (v : Json)

/-- The largest whole number that 64 bits hold. -/
def wordLimit : Nat := 0xffffffffffffffff

/-- Reads digits into a word. Digits that do not fit are dropped; their number is returned. -/
def wordDigits (start : Nat) : List Char → Nat × Nat
  | [] => (start, 0)
  | c :: cs =>
    let next := start * 10 + (digit? c).getD 0
    if wordLimit < next then (start, cs.length + 1) else wordDigits next cs

def powerOfTen (n : Nat) : Float := Float.ofScientific 1 false n

/-- Scales by powers of ten of at most 308, one rounding each; none when the result is too large.
The steps bound the number of scalings. -/
def scale : Nat → Float → Int → Option Float
  | 0, x, _ => some x
  | steps + 1, x, e =>
    if e.natAbs ≤ 308 then
      if 0 ≤ e then
        let y := x * powerOfTen e.natAbs
        if y.isInf then none else some y
      else some (x / powerOfTen e.natAbs)
    else if x == 0.0 then some x
    else if 0 ≤ e then none
    else scale steps (x / powerOfTen 308) (e + 308)

/-- The value of a number from the parts of its text. -/
def number? (negative : Bool) (lead : List Char) (fraction : Option (List Char))
    (exponent : Option (Bool × List Char)) : Option Json :=
  let (w, dropped) := wordDigits 0 lead
  let sign (x : Float) : Float := if negative then -x else x
  if fraction.isNone && exponent.isNone && dropped = 0 then
    if !negative then some (.whole w)
    else if w = 0 || 0x8000000000000000 < w then some (.real (sign (Float.ofNat w)))
    else some (.whole (-w))
  else
    let digits := fraction.getD []
    let (m, lost) := if dropped = 0 then wordDigits w digits else (w, digits.length)
    let places : Int := (dropped : Int) - (digits.length - lost : Nat)
    let power : Int :=
      match exponent with
      | none => 0
      | some (below, ds) => if below then -(extend 0 ds : Int) else extend 0 ds
    if 0x80000000 ≤ power.natAbs then
      if m = 0 || power < 0 then some (.real (sign 0.0)) else none
    else (scale 10000000 (Float.ofNat m) (places + power)).map fun x => .real (sign x)

/-- Cuts digits off the front. -/
def digitsOf (cs : List Char) : List Char × List Char :=
  (cs.takeWhile isDigit, cs.dropWhile isDigit)

/-- Reads an exponent, when one follows. -/
def exponentOf : List Char → Option (Option (Bool × List Char) × List Char)
  | [] => some (none, [])
  | c :: cs =>
    if c = 'e' || c = 'E' then
      let (negative, rest) := Decimal.splitSign cs
      let (ds, rest) := digitsOf rest
      if ds.isEmpty then none else some (some (negative, ds), rest)
    else some (none, c :: cs)

/-- Reads a number: no leading zeros, and digits on both sides of a point. -/
def numberOf (cs : List Char) : Option (Json × List Char) :=
  let (negative, cs) :=
    match cs with
    | '-' :: r => (true, r)
    | r => (false, r)
  let (lead, cs) := digitsOf cs
  if lead.isEmpty || (lead.length > 1 && lead.head? = some '0') then none
  else
    match cs with
    | '.' :: r =>
      let (fraction, r) := digitsOf r
      if fraction.isEmpty then none
      else do
        let (exponent, rest) ← exponentOf r
        let v ← number? negative lead (some fraction) exponent
        return (v, rest)
    | r => do
      let (exponent, rest) ← exponentOf r
      let v ← number? negative lead none exponent
      return (v, rest)

def hexDigit? (c : Char) : Option Nat :=
  if '0' ≤ c && c ≤ '9' then some (c.toNat - '0'.toNat)
  else if 'a' ≤ c && c ≤ 'f' then some (c.toNat - 'a'.toNat + 10)
  else if 'A' ≤ c && c ≤ 'F' then some (c.toNat - 'A'.toNat + 10)
  else none

def hexUnit? : List Char → Option Nat
  | [a, b, c, d] => do
    return ((← hexDigit? a) * 16 + (← hexDigit? b)) * 256 + (← hexDigit? c) * 16 + (← hexDigit? d)
  | _ => none

/-- A character spelled by one or two units of four hexadecimal digits. -/
def spelledChar (unit : Nat) (rest : List Char) : Option (Char × List Char) :=
  if unit < 0xD800 || 0xDFFF < unit then some (Char.ofNat unit, rest)
  else if 0xDC00 ≤ unit then none
  else
    match rest with
    | '\\' :: 'u' :: r => do
      let low ← hexUnit? (r.take 4)
      if 0xDC00 ≤ low && low ≤ 0xDFFF then
        some (Char.ofNat (0x10000 + (unit - 0xD800) * 0x400 + (low - 0xDC00)), r.drop 4)
      else none
    | _ => none

def escaped? (c : Char) : Option Char :=
  if c = '"' || c = '\\' || c = '/' then some c
  else if c = 'b' then some (Char.ofNat 8)
  else if c = 'f' then some (Char.ofNat 12)
  else if c = 'n' then some '\n'
  else if c = 'r' then some '\r'
  else if c = 't' then some '\t'
  else none

/-- Reads the characters of a string up to its closing quote, in reverse order onto `done`. The
steps bound the number of characters. -/
def stringOf : Nat → List Char → List Char → Option (String × List Char)
  | 0, _, _ => none
  | steps + 1, done, cs =>
    match cs with
    | [] => none
    | '"' :: rest => some (String.ofList done.reverse, rest)
    | '\\' :: 'u' :: rest => do
      let unit ← hexUnit? (rest.take 4)
      let (c, rest) ← spelledChar unit (rest.drop 4)
      stringOf steps (c :: done) rest
    | '\\' :: c :: rest => do
      let e ← escaped? c
      stringOf steps (e :: done) rest
    | c :: rest => if c.toNat < 0x20 || c = '\\' then none else stringOf steps (c :: done) rest

/-- One token and the rest of the text. -/
def tokenOf : List Char → Option (Token × List Char)
  | [] => none
  | '[' :: r => some (.openArray, r)
  | ']' :: r => some (.closeArray, r)
  | '{' :: r => some (.openObject, r)
  | '}' :: r => some (.closeObject, r)
  | ',' :: r => some (.comma, r)
  | ':' :: r => some (.colon, r)
  | '"' :: r => (stringOf (r.length + 1) [] r).map fun (s, rest) => (.value (.string s), rest)
  | 'n' :: 'u' :: 'l' :: 'l' :: r => some (.value .null, r)
  | 't' :: 'r' :: 'u' :: 'e' :: r => some (.value (.bool true), r)
  | 'f' :: 'a' :: 'l' :: 's' :: 'e' :: r => some (.value (.bool false), r)
  | cs => (numberOf cs).map fun (v, rest) => (.value v, rest)

def isSpace (c : Char) : Bool := c = ' ' || c = '\n' || c = '\t' || c = '\r'

/-- Cuts a text into tokens. The steps bound their number. -/
def tokens : Nat → List Char → Option (List Token)
  | 0, _ => none
  | steps + 1, cs =>
    match cs.dropWhile isSpace with
    | [] => some []
    | rest => do
      let (t, rest) ← tokenOf rest
      return t :: (← tokens steps rest)

/-- An open array or object; what it holds so far is in reverse order. -/
inductive Frame where
  | array (items : List Json)
  | object (members : List (String × Json)) (key : String)

/-- What may come next. -/
inductive Expect where
  | value
  | itemOrClose
  | keyOrClose
  | key
  | colon (key : String)
  | more
  | stop (result : Json)

structure Parse where
  frames : List Frame
  expect : Expect

/-- How many arrays and objects may be open at a time. -/
def depthLimit : Nat := 127

/-- Puts a finished value into the innermost open array or object. -/
def Parse.finish (frames : List Frame) (v : Json) : Parse :=
  match frames with
  | [] => ⟨[], .stop v⟩
  | .array items :: rest => ⟨.array (v :: items) :: rest, .more⟩
  | .object members key :: rest => ⟨.object ((key, v) :: members) key :: rest, .more⟩

def Parse.close (p : Parse) (t : Token) : Option Parse :=
  match t, p.frames with
  | .closeArray, .array items :: rest => some (.finish rest (.array items.reverse))
  | .closeObject, .object members _ :: rest => some (.finish rest (.object members.reverse))
  | _, _ => none

def Parse.startValue (p : Parse) (t : Token) : Option Parse :=
  match t with
  | .value v => some (.finish p.frames v)
  | .openArray =>
    if p.frames.length < depthLimit then some ⟨.array [] :: p.frames, .itemOrClose⟩ else none
  | .openObject =>
    if p.frames.length < depthLimit then some ⟨.object [] "" :: p.frames, .keyOrClose⟩ else none
  | _ => none

def Parse.step (p : Parse) (t : Token) : Option Parse :=
  match p.expect, t with
  | .value, t => p.startValue t
  | .itemOrClose, .closeArray => p.close .closeArray
  | .itemOrClose, t => p.startValue t
  | .keyOrClose, .closeObject => p.close .closeObject
  | .keyOrClose, .value (.string s) => some ⟨p.frames, .colon s⟩
  | .key, .value (.string s) => some ⟨p.frames, .colon s⟩
  | .colon key, .colon =>
    match p.frames with
    | .object members _ :: rest => some ⟨.object members key :: rest, .value⟩
    | _ => none
  | .more, .comma =>
    match p.frames with
    | .array _ :: _ => some ⟨p.frames, .value⟩
    | .object _ _ :: _ => some ⟨p.frames, .key⟩
    | [] => none
  | .more, t => p.close t
  | _, _ => none

/-- Reads a whole text as one value. -/
def read? (text : String) : Option Json := do
  let ts ← tokens (text.length + 1) text.toList
  let p ← ts.foldlM Parse.step ⟨[], .value⟩
  match p.frames, p.expect with
  | [], .stop v => some v
  | _, _ => none

end TilePyramid.Json
