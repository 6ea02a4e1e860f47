import TilePyramid.Georef.Reference

/-!
# Transforms between pixel grids

The pixels of one georeferenced grid are followed to longitude and latitude and from there to
the pixels of another, with an offset added at the end.
-/
namespace TilePyramid

structure GridTransform (α : Type) where
  source : GeoReference α
  target : GeoReference α
  offset : α × α

namespace GridTransform

variable {α : Type} [Cartography α]

/-- The transform without an offset. -/
def between (source target : GeoReference α) : GridTransform α :=
  ⟨source, target, ofInt 0, ofInt 0⟩

/-- The transform of an image of `cols` by `rows` pixels. When the target is unprojected and the
centre of the image lies beyond 180 degrees, the offset moves it by one turn towards the
target's range. -/
def turned (source target : GeoReference α) (cols rows : Nat) : GridTransform α :=
  let still := between source target
  let centre := (ofInt cols / ofInt 2, ofInt rows / ofInt 2)
  if target.isDegrees then
    let turn := ofInt 360 / target.transform.a
    match source.pixelToDegrees centre with
    | none => still
    | some d =>
      if ofInt 180 < d.1 then { still with offset := (-turn, ofInt 0) }
      else if d.1 < ofInt (-180) then { still with offset := (turn, ofInt 0) }
      else still
  else still

/-- From source pixels to target pixels. -/
def forward (t : GridTransform α) (p : α × α) : Option (α × α) := do
  let d ← t.source.pixelToDegrees p
  let q ← t.target.degreesToPixel d
  return (q.1 + t.offset.1, q.2 + t.offset.2)

/-- From target pixels to source pixels. -/
def reverse (t : GridTransform α) (q : α × α) : Option (α × α) := do
  let d ← t.target.pixelToDegrees (q.1 - t.offset.1, q.2 - t.offset.2)
  t.source.degreesToPixel d

/-- The smallest box around points. -/
structure Extent (α : Type) where
  minX : α
  minY : α
  maxX : α
  maxY : α

def Extent.insert (e : Option (Extent α)) (p : α × α) : Option (Extent α) :=
  match e with
  | none => some ⟨p.1, p.2, p.1, p.2⟩
  | some e =>
    some ⟨Arith.lesser e.minX p.1, Arith.lesser e.minY p.2,
      Arith.greater e.maxX p.1, Arith.greater e.maxY p.2⟩

/-- How many steps of a side are mapped at most. -/
def gridSteps : Nat := 64

/-- How far a box may reach over a pixel edge without taking the next pixel. -/
def edgeTolerance : α := ofInt 1 / ofInt 1000000

/-- Grid points along a side of `size` pixels from `start`, both ends included. -/
def gridLine (start size : Int) : List α :=
  let steps := min (max size 1).toNat gridSteps
  (List.range (steps + 1)).map fun (i : Nat) =>
    ofInt start + ofInt size * ofInt i / ofInt steps

/-- A grid of points over a box, row by row. -/
def gridPoints (b : PixelBox) : List (α × α) :=
  (gridLine b.minY b.height).flatMap fun y => (gridLine b.minX b.width).map fun x => (x, y)

/-- The pixels an extent touches. -/
def Extent.pixels (e : Extent α) : PixelBox where
  minX := Arith.toInt (Arith.floor (e.minX + edgeTolerance))
  minY := Arith.toInt (Arith.floor (e.minY + edgeTolerance))
  maxX := Arith.toInt (Arith.ceil (e.maxX - edgeTolerance))
  maxY := Arith.toInt (Arith.ceil (e.maxY - edgeTolerance))

/-- The target pixels that a box of source pixels is mapped into, judged by a grid of points.
Points without an image are left out; the box is empty when none has one. -/
def forwardBox (t : GridTransform α) (b : PixelBox) : PixelBox :=
  let images := (gridPoints b).filterMap fun p =>
    (t.forward p).filter fun q => Arith.isFinite q.1 && Arith.isFinite q.2
  match images.foldl Extent.insert none with
  | none => .empty
  | some e => e.pixels

end GridTransform
end TilePyramid
