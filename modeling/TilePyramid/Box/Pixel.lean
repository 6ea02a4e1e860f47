/-!
# Pixel boxes

Half-open rectangles of pixels: the minimum corner is inside, the maximum corner is one past the
edge. The origin is the top left corner and `y` grows downward.
-/
namespace TilePyramid

/-- A length in 32 bits: none below zero, and cut to the low bits. -/
def toWord (n : Int) : Nat := n.toNat % UInt32.size

/-- A sum or a difference in 64 bits, which wraps around. -/
def wrapIndex (n : Int) : Int := n.bmod UInt64.size

structure PixelBox where
  minX : Int
  minY : Int
  maxX : Int
  maxY : Int
  deriving DecidableEq, Repr, Inhabited

namespace PixelBox

def empty : PixelBox := ⟨0, 0, 0, 0⟩

/-- The box of the given size with its minimum corner at `(x, y)`. -/
def ofSize (x y width height : Int) : PixelBox :=
  ⟨x, y, x + width, y + height⟩

/-- The box of an image of `cols` by `rows` pixels. -/
def ofImage (cols rows : Nat) : PixelBox :=
  ofSize 0 0 cols rows

def width (b : PixelBox) : Int := b.maxX - b.minX

def height (b : PixelBox) : Int := b.maxY - b.minY

/-- No pixel lies in the box. -/
def isEmpty (b : PixelBox) : Bool :=
  b.width ≤ 0 || b.height ≤ 0

/-- The box with its corners in 64 bits. -/
def wrap (b : PixelBox) : PixelBox :=
  ⟨wrapIndex b.minX, wrapIndex b.minY, wrapIndex b.maxX, wrapIndex b.maxY⟩

/-- The columns of a raster that is read in the box. -/
def wordCols (b : PixelBox) : Nat := toWord (wrapIndex b.width)

/-- The rows of a raster that is read in the box. -/
def wordRows (b : PixelBox) : Nat := toWord (wrapIndex b.height)

/-- The pixels of the box, row by row. -/
def places (b : PixelBox) : List (Int × Int) :=
  (List.range b.height.toNat).flatMap fun (dy : Nat) =>
    (List.range b.width.toNat).map fun (dx : Nat) => (b.minX + dx, b.minY + dy)

/-- The pixel `(x, y)` lies in the box. -/
def Mem (b : PixelBox) (x y : Int) : Prop :=
  b.minX ≤ x ∧ x < b.maxX ∧ b.minY ≤ y ∧ y < b.maxY

instance (b : PixelBox) (x y : Int) : Decidable (b.Mem x y) :=
  inferInstanceAs (Decidable (_ ∧ _))

/-- Every edge of `inner` lies within the edges of `b`. -/
def contains (b inner : PixelBox) : Bool :=
  b.minX ≤ inner.minX && b.minY ≤ inner.minY && inner.maxX ≤ b.maxX && inner.maxY ≤ b.maxY

/-- The smallest box around two boxes. -/
def union (a b : PixelBox) : PixelBox :=
  ⟨min a.minX b.minX, min a.minY b.minY, max a.maxX b.maxX, max a.maxY b.maxY⟩

/-- The part of `b` inside `bounds`. A box outside collapses to size zero and never has a
negative size. -/
def crop (b bounds : PixelBox) : PixelBox :=
  let minX := max b.minX bounds.minX
  let minY := max b.minY bounds.minY
  ⟨minX, minY, max (min b.maxX bounds.maxX) minX, max (min b.maxY bounds.maxY) minY⟩

/-- The overlap of two boxes, if they share a pixel. -/
def inter? (a b : PixelBox) : Option PixelBox :=
  let c := a.crop b
  if c.isEmpty then none else some c

def translate (b : PixelBox) (dx dy : Int) : PixelBox :=
  ⟨b.minX + dx, b.minY + dy, b.maxX + dx, b.maxY + dy⟩

theorem mem_places {b : PixelBox} {x y : Int} : (x, y) ∈ b.places ↔ b.Mem x y := by
  simp only [places, List.mem_flatMap, List.mem_map, List.mem_range, Prod.mk.injEq, Mem, width,
    height]
  constructor
  · rintro ⟨dy, hdy, dx, hdx, rfl, rfl⟩
    omega
  · intro h
    exact ⟨(y - b.minY).toNat, by omega, (x - b.minX).toNat, by omega, by omega, by omega⟩

theorem isEmpty_eq_false_iff {b : PixelBox} :
    b.isEmpty = false ↔ b.minX < b.maxX ∧ b.minY < b.maxY := by
  simp only [isEmpty, Bool.or_eq_false_iff, decide_eq_false_iff_not]
  simp only [width, height]
  omega

theorem mem_crop {b bounds : PixelBox} {x y : Int} :
    (b.crop bounds).Mem x y ↔ b.Mem x y ∧ bounds.Mem x y := by
  simp only [crop, Mem]
  omega

/-- Two boxes overlap exactly when they share a pixel. -/
theorem inter?_isSome_iff {a b : PixelBox} :
    (a.inter? b).isSome ↔ ∃ x y, a.Mem x y ∧ b.Mem x y := by
  constructor
  · intro h
    by_cases he : (a.crop b).isEmpty = true
    · simp [inter?, he] at h
    · have hs := isEmpty_eq_false_iff.mp (by simpa using he)
      refine ⟨(a.crop b).minX, (a.crop b).minY, mem_crop.mp ?_⟩
      exact ⟨Int.le_refl _, hs.1, Int.le_refl _, hs.2⟩
  · rintro ⟨x, y, hx⟩
    have hm := mem_crop.mpr hx
    have he : (a.crop b).isEmpty = false :=
      isEmpty_eq_false_iff.mpr (by simp only [Mem] at hm; omega)
    simp [inter?, he]

end PixelBox
end TilePyramid
