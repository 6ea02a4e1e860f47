import TilePyramid.Proofs.Binary32
import TilePyramid.Proofs.ExactPlacement
import TilePyramid.Proofs.Layering
import TilePyramid.Proofs.WordReads
import Mathlib.Data.List.Basic

/-!
# What a composite shows

The pixel of a composite is told by the layers at its place: in draft mode it is the sample of the
highest layer, otherwise the mean of the samples weighted by alpha. A layer counts where its alpha
is not zero or less. The running sums of a region are divided only if the sum of the weights is
above zero; it is, unless some alpha is not a number, and then no colour is a number either.
-/
namespace TilePyramid

/-- The sample of a layer at a canvas pixel that it covers, unless its alpha is zero or less. -/
def Layer.sampleAt? {α σ : Type} [Cartography α] [Arith σ] [Narrow α σ] (x y : Int)
    (l : Layer α σ) : Option (Pixel σ) :=
  if l.box.Mem x y ∧ ¬ (l.placement.sample (x - l.x) (y - l.y)).alpha ≤ ofInt 0 then
    some (l.placement.sample (x - l.x) (y - l.y))
  else none

/-- The mean of pixels weighted by alpha, with the largest alpha among them; clear when there are
no pixels. -/
def Pixel.weightedMean {σ : Type} [Arith σ] (bands : Nat) (ps : List (Pixel σ)) : Pixel σ :=
  let sums := ps.foldl (fun sums p => List.zipWith (fun c v => c + v * p.alpha) sums p.colour)
    (List.replicate bands (ofInt 0))
  let total := ps.foldl (fun total p => total + p.alpha) (ofInt 0)
  let alpha := ps.foldl (fun alpha p => Arith.greater alpha p.alpha) (ofInt 0)
  if ps.isEmpty then .clear bands else ⟨sums.map (· / total), alpha⟩

private theorem foldl_blended_add {σ : Type} [Arith σ] (ps : List (Pixel σ)) (b : Blended σ) :
    ps.foldl Blended.add b =
      ⟨ps.foldl (fun sums p => List.zipWith (fun c v => c + v * p.alpha) sums p.colour) b.colour,
        ps.foldl (fun total p => total + p.alpha) b.weight,
        ps.foldl (fun alpha p => Arith.greater alpha p.alpha) b.alpha⟩ := by
  induction ps generalizing b with
  | nil => rfl
  | cons p ps ih => rw [List.foldl_cons, ih]; rfl

namespace Blended

/-- The weight is above zero, or neither the weight nor any colour is a number. -/
def Settled (b : Blended Float32) : Prop :=
  Binary32.IsPositive (Binary32.value b.weight) ∨
    Binary32.value b.weight = .notANumber ∧ ∀ c ∈ b.colour, c = Binary32.nan

private theorem exists_of_mem_add_colour {b : Blended Float32} {p : Pixel Float32} {c : Float32}
    (hc : c ∈ (b.add p).colour) : ∃ c' ∈ b.colour, ∃ v, c = c' + v * p.alpha := by
  simp only [add] at hc
  rw [← List.map_uncurry_zip_eq_zipWith] at hc
  obtain ⟨⟨c', v⟩, hzip, rfl⟩ := List.mem_map.mp hc
  exact ⟨c', (List.of_mem_zip hzip).1, v, rfl⟩

private theorem settled_add_of_nan (b : Blended Float32) {p : Pixel Float32}
    (hp : Binary32.value p.alpha = .notANumber) : (b.add p).Settled := by
  right
  refine ⟨?_, fun c hc => ?_⟩
  · simp only [add]
    rw [Binary32.add_of_nan_right _ hp]
    exact Binary32.value_nan
  · obtain ⟨c', -, v, rfl⟩ := exists_of_mem_add_colour hc
    rw [Binary32.mul_of_nan_right _ hp, Binary32.add_of_nan_right _ Binary32.value_nan]

private theorem settled_add {b : Blended Float32} (hb : b.Settled) {p : Pixel Float32}
    (hp : ¬ p.alpha ≤ ofInt 0) : (b.add p).Settled := by
  -- Once a colour is not a number, no later layer makes it one again.
  rcases (Binary32.not_le_zero_iff _).mp hp with hpos | hnan
  · rcases hb with hweight | ⟨hweight, hcolour⟩
    · exact .inl (Binary32.isPositive_value_add hweight hpos)
    · right
      refine ⟨?_, fun c hc => ?_⟩
      · simp only [add]
        rw [Binary32.add_of_nan_left _ hweight]
        exact Binary32.value_nan
      · obtain ⟨c', hc', v, rfl⟩ := exists_of_mem_add_colour hc
        rw [hcolour c' hc', Binary32.add_of_nan_left _ Binary32.value_nan]
  · exact settled_add_of_nan b hnan

private theorem settled_clear_add (bands : Nat) {p : Pixel Float32} (hp : ¬ p.alpha ≤ ofInt 0) :
    ((clear bands).add p).Settled := by
  rcases (Binary32.not_le_zero_iff _).mp hp with hpos | hnan
  · exact .inl (Binary32.isPositive_value_zero_add hpos)
  · exact settled_add_of_nan _ hnan

theorem settled_foldl_add (bands : Nat) {p : Pixel Float32} {ps : List (Pixel Float32)}
    (hps : ∀ q ∈ p :: ps, ¬ q.alpha ≤ ofInt 0) : ((p :: ps).foldl add (clear bands)).Settled := by
  have run (qs : List (Pixel Float32)) (hqs : ∀ q ∈ qs, ¬ q.alpha ≤ ofInt 0)
      (b : Blended Float32) (hb : b.Settled) : (qs.foldl add b).Settled := by
    induction qs generalizing b with
    | nil => exact hb
    | cons q qs ih =>
      exact ih (fun r hr => hqs r (List.mem_cons_of_mem _ hr)) _
        (settled_add hb (hqs q List.mem_cons_self))
  exact run ps (fun q hq => hps q (List.mem_cons_of_mem _ hq)) _
    (settled_clear_add bands (hps p List.mem_cons_self))

theorem pixel_of_settled {b : Blended Float32} (hb : b.Settled) :
    b.pixel = ⟨b.colour.map (· / b.weight), b.alpha⟩ := by
  rw [pixel]
  by_cases hpos : ofInt 0 < b.weight
  · rw [if_pos hpos]
  · rw [if_neg hpos]
    obtain hweight | ⟨-, hcolour⟩ := hb
    · exact absurd ((Binary32.zero_lt_iff _).mpr hweight) hpos
    · have hsame : b.colour.map (· / b.weight) = b.colour := by
        refine (List.map_congr_left fun c hc => ?_).trans (List.map_id _)
        rw [hcolour c hc]
        exact Binary32.div_of_nan_left _ Binary32.value_nan
      rw [hsame]

end Blended

/-- A blend of layers that count is their weighted mean. -/
theorem pixel_foldl_add (bands : Nat) {ps : List (Pixel Float32)}
    (hps : ∀ p ∈ ps, ¬ p.alpha ≤ ofInt 0) :
    (ps.foldl Blended.add (.clear bands)).pixel = Pixel.weightedMean bands ps := by
  cases ps with
  | nil =>
    have hzero : ¬ (ofInt 0 : Float32) < ofInt 0 := by decide
    exact congrArg (Pixel.mk · (ofInt 0)) (if_neg hzero)
  | cons p ps =>
    rw [Blended.pixel_of_settled (Blended.settled_foldl_add bands hps), foldl_blended_add]
    rfl

namespace Composite

section
variable {α σ : Type} [Cartography α] [Arith σ] [Narrow α σ] {c : Composite α σ} {l : Layer α σ}
  {x y : Int}

theorem not_alpha_le_zero_of_shown {p : Pixel σ} (h : c.shown? x y l = some p) :
    ¬ p.alpha ≤ ofInt 0 := by
  rw [shown?] at h
  split at h
  · next hl =>
    obtain rfl := Option.some.inj h
    exact hl.2
  · cases h

theorem shown?_eq_sampleAt? (h : l.placement.image.bands = c.bands) (x y : Int) :
    c.shown? x y l = l.sampleAt? x y := by
  have hlayer : c.layerPixel l x y = l.placement.sample (x - l.x) (y - l.y) :=
    if_neg (by omega)
  rw [shown?, hlayer]
  rfl

theorem shownAt_eq_filterMap (hbands : ∀ l ∈ c.layers, l.placement.image.bands = c.bands)
    (x y : Int) : c.shownAt x y = c.layers.filterMap (Layer.sampleAt? x y) :=
  List.filterMap_congr fun l hl => shown?_eq_sampleAt? (hbands l hl) x y

end

variable {α : Type} [Cartography α] [Narrow α Float32]

/-- The pixel of a composite at a canvas pixel, told by the layers there: in draft mode the sample
of the latest one, otherwise the weighted mean in the order they were inserted. -/
def pixelAt (c : Composite α Float32) (x y : Int) : Pixel Float32 :=
  if c.draft then (c.layers.reverse.findSome? (Layer.sampleAt? x y)).getD (.clear c.bands)
  else .weightedMean c.bands (c.layers.filterMap (Layer.sampleAt? x y))

theorem shown?_eq_none {c : Composite α Float32} {l : Layer α Float32}
    (h : l.placement.image.bands < c.bands) (x y : Int) : c.shown? x y l = none := by
  have hlayer : c.layerPixel l x y = .clear c.bands := if_pos h
  rw [shown?, hlayer]
  exact if_neg fun hl => hl.2 ClearSum.zero_le_zero

theorem look_eq_pixelAt {c : Composite α Float32}
    (hbands : ∀ l ∈ c.layers, l.placement.image.bands = c.bands) (x y : Int) :
    c.look x y = c.pixelAt x y := by
  have hshown := shownAt_eq_filterMap hbands x y
  rw [look, pixelAt]
  split
  · rw [hshown, ← List.head?_reverse, ← List.filterMap_reverse, List.head?_filterMap]
  · refine (pixel_foldl_add c.bands fun p hp => ?_).trans (by rw [hshown])
    obtain ⟨l, -, hl⟩ := List.mem_filterMap.mp hp
    exact not_alpha_le_zero_of_shown hl

/-- A region that has a raster, at a place of 64 bits, can be read. Each of its pixels is the
pixel of the composite at its place on the canvas, whatever else belongs to the region. Two regions,
also of two views, agree wherever they share a canvas pixel. -/
theorem read_eq_pixelAt {c : Composite α Float32}
    (hbands : ∀ l ∈ c.layers, l.placement.image.bands = c.bands)
    (hlayers : ∀ l ∈ c.layers, l.box.IsIndexed) {region : PixelBox}
    (hregion : c.IsCounted region) :
    ∃ r, c.read? region = some r ∧ r.width = region.width.toNat ∧
      r.height = region.height.toNat ∧
      ∀ i j : Nat, i < r.width → j < r.height →
        r.pixel i j = c.pixelAt (region.minX + c.origin.1 + i) (region.minY + c.origin.2 + j) ∧
        ∀ (view : Option PixelBox) (other : PixelBox) (r' : Raster Float32),
          IsCounted { c with view := view } other →
          Composite.read? { c with view := view } other = some r' →
          ∀ i' j' : Nat, i' < r'.width → j' < r'.height →
            other.minX + (origin { c with view := view }).1 + i' = region.minX + c.origin.1 + i →
            other.minY + (origin { c with view := view }).2 + j' = region.minY + c.origin.2 + j →
              r'.pixel i' j' = r.pixel i j := by
  have hread (view : Option PixelBox) {b : PixelBox} (hb : IsCounted { c with view := view } b) :
      Composite.read? { c with view := view } b =
        some (Composite.region { c with view := view } b) :=
    read?_eq_some (c := { c with view := view }) hlayers hb
      (isReadable_of_bands_le (c := { c with view := view }) (fun l hl => (hbands l hl).le) b)
  refine ⟨c.region region, hread c.view hregion, rfl, rfl, fun i j hi hj => ?_⟩
  have hpixel := (c.pixel_region_eq_look region hi hj).trans (look_eq_pixelAt hbands _ _)
  refine ⟨hpixel, fun view other r' hother hr' i' j' hi' hj' hx hy => ?_⟩
  obtain rfl := Option.some.inj ((hread view hother).symm.trans hr')
  have hother := (pixel_region_eq_look { c with view := view } other hi' hj').trans
    (look_eq_pixelAt hbands _ _)
  rw [hother, hpixel, hx, hy]

/-- One layer with an alpha that is not a number. -/
def unknownAlpha : Composite Rat Float32 :=
  insert (empty true) (.onePixel .f32 [ofInt 1 / ofInt 2] Binary32.nan) 0 0

theorem read_eq_pixelAt_unknown :
    (∀ l ∈ unknownAlpha.layers, l.placement.image.bands = unknownAlpha.bands) ∧
      (∀ l ∈ unknownAlpha.layers, l.box.IsIndexed) ∧
      unknownAlpha.IsCounted (.ofImage 1 1) ∧
      ∃ r, unknownAlpha.read? (.ofImage 1 1) = some r ∧
        r.pixel 0 0 = unknownAlpha.pixelAt 0 0 := by
  have hbands : ∀ l ∈ unknownAlpha.layers, l.placement.image.bands = unknownAlpha.bands := by decide
  have hlayers : ∀ l ∈ unknownAlpha.layers, l.box.IsIndexed := by decide
  have hregion : unknownAlpha.IsCounted (.ofImage 1 1) := by decide
  obtain ⟨r, hread, hwidth, hheight, hpixels⟩ := read_eq_pixelAt hbands hlayers hregion
  have hpixel := hpixels 0 0 (by rw [hwidth]; decide) (by rw [hheight]; decide)
  exact ⟨hbands, hlayers, hregion, r, hread, hpixel.1⟩

/-- The sample at a canvas pixel of the latest layer there whose alpha is above zero. -/
def positiveSample (c : Composite α Float32) (x y : Int) : Pixel Float32 :=
  let positive? (l : Layer α Float32) : Option (Pixel Float32) :=
    let p := l.placement.sample (x - l.x) (y - l.y)
    if l.box.Mem x y ∧ ofInt 0 < p.alpha then some p else none
  (c.layers.reverse.findSome? positive?).getD (.clear c.bands)

/-- Two pixels, the later one in the row above the other and a column further right. -/
def slantedPair : Composite Rat Float32 := ofLayers true Layer.slantedPair

/-- One pixel at the last place that has a place of 64 bits after it, with a view from the second
column. -/
def farPixel : Composite Rat Float32 :=
  { insert (empty true) (.onePixel .u8 [ofInt 7] (ofInt 255)) (2 ^ 63 - 2) 0 with
    view := some (.ofSize 1 0 1 1) }

/-- A layer may show without an alpha above zero: it is enough that its alpha is not a number. A
region may be too wide for 32 bits: its rows are cut to one column, so that the second pixel of the
first row is read where the first pixel of the second row belongs. It may be too large for a
buffer. And it may end beyond 64 bits on the canvas: it wraps around there, and shows nothing. -/
theorem read_ne_positiveSample :
    ((∀ l ∈ unknownAlpha.layers, l.placement.image.bands = unknownAlpha.bands) ∧
      unknownAlpha.draft = true ∧
      (unknownAlpha.read? (.ofImage 1 1)).map (·.pixel 0 0) ≠
        some (unknownAlpha.positiveSample 0 0)) ∧
    ((∀ l ∈ slantedPair.layers, l.placement.image.bands = slantedPair.bands) ∧
      slantedPair.draft = true ∧
      (slantedPair.read? (.ofImage (2 ^ 32 + 1) 2)).map (·.pixel 0 1) ≠
        some (slantedPair.positiveSample 0 1) ∧
      (slantedPair.read? (.ofImage (2 ^ 32 - 1) (2 ^ 32 - 1))).map (·.pixel 0 1) ≠
        some (slantedPair.positiveSample 0 1)) ∧
    (∀ l ∈ farPixel.layers, l.placement.image.bands = farPixel.bands) ∧ farPixel.draft = true ∧
      (farPixel.read? (.ofSize (2 ^ 63 - 3) 0 2 1)).map (·.pixel 0 0) ≠
        some (farPixel.positiveSample (2 ^ 63 - 2) 0) := by
  decide +kernel

end Composite
end TilePyramid
