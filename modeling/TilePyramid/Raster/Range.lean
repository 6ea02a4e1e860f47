import TilePyramid.Raster.Basic

/-!
# Value ranges

The smallest and the largest colour value that counts: pixels without alpha, and pixels whose
bands all hold the nodata value, are left out.
-/
namespace TilePyramid

structure ValueRange (σ : Type) where
  lo : σ
  hi : σ
  deriving DecidableEq, Repr

namespace ValueRange

variable {σ : Type} [Arith σ]

/-- The range that also covers `v`. -/
def insert (range : Option (ValueRange σ)) (v : σ) : Option (ValueRange σ) :=
  match range with
  | none => some ⟨v, v⟩
  | some r => some ⟨Arith.lesser r.lo v, Arith.greater r.hi v⟩

/-- The smallest range around two ranges. -/
def union (a b : ValueRange σ) : ValueRange σ :=
  ⟨Arith.lesser a.lo b.lo, Arith.greater a.hi b.hi⟩

/-- Both ends passed through `f`, in order again. -/
def map (r : ValueRange σ) (f : σ → σ) : ValueRange σ :=
  ⟨Arith.lesser (f r.lo) (f r.hi), Arith.greater (f r.lo) (f r.hi)⟩

end ValueRange

variable {σ : Type} [Arith σ]

/-- Every band holds the nodata value. -/
def Pixel.isNodata (p : Pixel σ) (nodata : σ) : Bool :=
  p.colour.all (· == nodata)

/-- The pixel takes part in the range of its image. -/
def Pixel.counts (p : Pixel σ) (nodata : Option σ) : Bool :=
  !decide (p.alpha ≤ ofInt 0) && !nodata.any p.isNodata

/-- The range of the pixels that count; none when there are none or an end is not finite. -/
def Raster.valueRange (r : Raster σ) (nodata : Option σ) : Option (ValueRange σ) :=
  let range := r.pixels.foldl
    (fun range p => if p.counts nodata then p.colour.foldl ValueRange.insert range else range) none
  range.filter fun v => Arith.isFinite v.lo && Arith.isFinite v.hi

end TilePyramid
