import TilePyramid.Box.Pixel
import TilePyramid.Error

/-!
# Quad-tree cells of the canvas

The output box is the data cropped to the canvas and, where a format needs whole cells, grown to
a cell: a square whose side is a power of two and whose corner is a multiple of that side.
-/
namespace TilePyramid

/-- The least power of two that is at least `n`, and 1 for `n ≤ 1`. -/
def leastPowerOfTwo (n : Int) : Int :=
  if n ≤ 1 then 1 else (1 <<< ((n.toNat - 1).log2 + 1) : Nat)

namespace PixelBox

/-- The square of side `dim` at a multiple of `dim` that holds the minimum corner of `b`. -/
def cellAt (b : PixelBox) (dim : Int) : PixelBox :=
  ofSize (b.minX.ediv dim * dim) (b.minY.ediv dim * dim) dim dim

/-- Doubles the side from `dim` up to `total` until the cell holds `b`. The steps bound the
doublings. -/
def growCell (b : PixelBox) (total : Int) : Nat → Int → PixelBox
  | 0, dim => b.cellAt dim
  | steps + 1, dim =>
    if (b.cellAt dim).contains b || total ≤ dim then b.cellAt dim
    else growCell b total steps (min (dim * 2) total)

/-- The smallest cell of a canvas of side `total` that holds `b`. -/
def alignToCell (b : PixelBox) (total : Int) : PixelBox :=
  let dim := min (leastPowerOfTwo (max b.width b.height)) total
  b.growCell total (total.toNat.log2 + 1) dim

/-- The part of `b` on the canvas; an error if nothing of it is. -/
def cropToCanvas (b : PixelBox) (cols rows : Int) : Except Error PixelBox :=
  let cropped := b.crop (ofSize 0 0 cols rows)
  if cropped.isEmpty then .error (.emptyComposite cropped.width cropped.height)
  else .ok cropped

/-- The output box: `b` on the canvas, grown to a cell when `wholeCells` is set. -/
def align (b : PixelBox) (total cols rows : Int) (wholeCells : Bool) : Except Error PixelBox :=
  (b.cropToCanvas cols rows).map fun c => if wholeCells then c.alignToCell total else c

/-- `alignToCell` on a canvas of any side. A canvas of side zero has no cells, and the search for
one breaks off. -/
def alignToCell? (b : PixelBox) (total : Int) : Option PixelBox :=
  if total = 0 then none else some (b.alignToCell total)

/-- `align` on a canvas of any side. -/
def align? (b : PixelBox) (total cols rows : Int) (wholeCells : Bool) :
    Option (Except Error PixelBox) :=
  match b.cropToCanvas cols rows with
  | .error e => some (.error e)
  | .ok c => if wholeCells then (c.alignToCell? total).map .ok else some (.ok c)

theorem align?_eq_some (b : PixelBox) {total : Int} (h : total ≠ 0) (cols rows : Int)
    (wholeCells : Bool) :
    b.align? total cols rows wholeCells = some (b.align total cols rows wholeCells) := by
  rw [align?, align]
  cases b.cropToCanvas cols rows with
  | error e => rfl
  | ok c => cases wholeCells <;> simp [alignToCell?, h, Except.map]

end PixelBox
end TilePyramid
