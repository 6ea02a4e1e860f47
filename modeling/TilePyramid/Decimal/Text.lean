import TilePyramid.Decimal.Shortest

/-!
# Number text

Three spellings of a number: plain digits for documents and messages, a form that always shows
a point or an exponent for descriptions of values, and the form of structured metadata. All of
them write the shortest decimal that reads back.
-/
namespace TilePyramid

/-- How numbers are written out. -/
class NumberText (α : Type) where
  plain : α → String
  described : α → String
  metadata : α → String

namespace Decimal

/-- Choices of a spelling: the powers of ten of the first digit that are written positionally,
whether whole numbers end in a zero after the point, how ties go, and the names of the values
that are not finite. -/
structure Style where
  positional : Int → Bool
  pointZero : Bool
  tie : Tie
  nan : String
  infinite : String
  negativeInfinite : String

/-- Positional at every size, without a point where none is needed. -/
def Style.plain : Style := ⟨fun _ => true, false, .up, "NaN", "inf", "-inf"⟩

/-- Positional from 0.0001 and below 10^16, always with a point or an exponent. -/
def Style.described : Style :=
  ⟨fun e => -4 ≤ e && e < 16, true, .up, "NaN", "inf", "-inf"⟩

/-- Positional from 0.00001 and below 10^16; what is not finite is null. -/
def Style.metadata : Style :=
  ⟨fun e => -5 ≤ e && e < 16, true, .even, "null", "null", "null"⟩

/-- The digits with the decimal point where the exponent puts it. -/
def positionalText (pointZero : Bool) (d : Digits) : String :=
  let text := toString d.digits
  if 0 ≤ d.exponent then
    text ++ String.ofList (List.replicate d.exponent.toNat '0') ++ if pointZero then ".0" else ""
  else
    let places := (-d.exponent).toNat
    let padded := List.replicate (places + 1 - text.length) '0' ++ text.toList
    String.ofList (padded.take (padded.length - places)) ++ "." ++
      String.ofList (padded.drop (padded.length - places))

/-- One digit before the point, and the exponent of ten. -/
def scientificText (d : Digits) : String :=
  let text := toString d.digits
  let fraction := String.ofList (text.toList.drop 1)
  String.ofList (text.toList.take 1) ++ (if fraction.isEmpty then "" else "." ++ fraction) ++
    "e" ++ toString (d.exponent + (text.length - 1 : Nat))

def Style.write (s : Style) : Binary → String
  | .nan => s.nan
  | .infinite negative => if negative then s.negativeInfinite else s.infinite
  | .finite negative mantissa exponent narrowBelow =>
    let d := shortest s.tie mantissa exponent narrowBelow
    let leading := d.exponent + ((toString d.digits).length - 1 : Nat)
    (if negative then "-" else "") ++
      if mantissa = 0 || s.positional leading then positionalText s.pointZero d
      else scientificText d

end Decimal

instance : NumberText Float where
  plain x := Decimal.Style.plain.write (.ofFloat x)
  described x := Decimal.Style.described.write (.ofFloat x)
  metadata x := Decimal.Style.metadata.write (.ofFloat x)

end TilePyramid
