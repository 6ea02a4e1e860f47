import TilePyramid.Codec.Bytes
import TilePyramid.Codec.PrefixCode

/-!
# Frames

The size of an image and of its components. A component may have fewer samples than the image;
its blocks are filled up so that every component covers the same whole number of units.
-/
namespace TilePyramid.Jpeg

/-- A component: its name, its samples per unit in both directions, and its table of steps. -/
structure Component where
  id : Nat
  across : Nat
  down : Nat
  steps : Nat

/-- In a gradual frame, coefficients come in several scans. -/
structure Frame where
  width : Nat
  height : Nat
  gradual : Bool
  components : List Component

namespace Frame

/-- Reads the body of a frame header. -/
def ofBytes? (gradual : Bool) (body : ByteArray) : Option Frame :=
  let count := Bytes.number body 5 1
  let component (k : Nat) : Component :=
    let at6 (i : Nat) : Nat := Bytes.number body (6 + 3 * k + i) 1
    ⟨at6 0, at6 1 / 16, at6 1 % 16, at6 2⟩
  let frame : Frame :=
    ⟨Bytes.number body 3 2, Bytes.number body 1 2, gradual, (List.range count).map component⟩
  let sized := frame.components.all fun c =>
    0 < c.across && c.across ≤ 4 && 0 < c.down && c.down ≤ 4
  if Bytes.number body 0 1 = 8 && 0 < frame.width && 0 < frame.height && sized &&
      body.size = 6 + 3 * count && (count = 1 || count = 3) then some frame
  else none

def acrossMost (f : Frame) : Nat := f.components.foldl (fun n c => max n c.across) 1

def downMost (f : Frame) : Nat := f.components.foldl (fun n c => max n c.down) 1

/-- The units in a row, and the rows of units. -/
def unitCols (f : Frame) : Nat := (f.width + 8 * f.acrossMost - 1) / (8 * f.acrossMost)

def unitRows (f : Frame) : Nat := (f.height + 8 * f.downMost - 1) / (8 * f.downMost)

/-- The blocks in a row of a component. -/
def blockCols (f : Frame) (c : Component) : Nat := f.unitCols * c.across

def blockCount (f : Frame) (c : Component) : Nat := f.blockCols c * f.unitRows * c.down

/-- The blocks in a row that hold samples of the image. -/
def usedCols (f : Frame) (c : Component) : Nat :=
  ((f.width * c.across + f.acrossMost - 1) / f.acrossMost + 7) / 8

def usedRows (f : Frame) (c : Component) : Nat :=
  ((f.height * c.down + f.downMost - 1) / f.downMost + 7) / 8

/-- The index of the first coefficient of a component, when components follow each other. -/
def offset (f : Frame) (k : Nat) : Nat :=
  (f.components.take k).foldl (fun n c => n + 64 * f.blockCount c) 0

/-- The number of all coefficients. -/
def size (f : Frame) : Nat := f.offset f.components.length

end Frame
end TilePyramid.Jpeg
