import TilePyramid.Decimal.Reader
import TilePyramid.Error
import TilePyramid.Georef.Affine

/-!
# World files

A world file lists six numbers that place the centre of the first pixel: the column step in `x`
and `y`, the row step in `x` and `y`, and the position. The transform kept here is anchored at
the corner of that pixel.
-/
namespace TilePyramid.WorldFile

open Decimal (OfLiteral)

variable {α : Type} [Arith α]

/-- Moves the anchor from the centre of the first pixel to its corner. -/
def fromCentre (a d b e c f : α) : Affine α :=
  let half : α := ofInt 1 / ofInt 2
  ⟨a, b, c - half * a - half * b, d, e, f - half * d - half * e⟩

/-- Reads the numbers of a world file, in the order they are written. -/
def numbers (α : Type) [OfLiteral α] (text : String) : Except Error (List α) :=
  (Text.words text).mapM fun w =>
    match Decimal.read? α w with
    | some v => .ok v
    | none => .error (.georeference (.worldFileValue w))

def read [OfLiteral α] (text : String) : Except Error (Affine α) := do
  match ← numbers α text with
  | [a, d, b, e, c, f] => .ok (fromCentre a d b e c f)
  | values => .error (.georeference (.worldFileCount values.length))

end TilePyramid.WorldFile
