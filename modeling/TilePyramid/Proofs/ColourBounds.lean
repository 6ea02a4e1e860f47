import TilePyramid.Proofs.EveryPixel
import TilePyramid.Proofs.ExactArithmetic
import TilePyramid.Proofs.Layering

/-!
# Colours stay between those of the images

A tile pixel has been through three averages weighted by alpha: the sample between four pixels of an
image, the blend of the layers, and the mean of four pixels for each level above the deepest one.
Along a sum of weighted values, the sum of a band lies between the bounds of the band times the sum
of the weights, so that no average overshoots. A pixel without alpha has no weight, and what it
holds does not matter. Above the deepest level an average is also cut to the channel, and cutting
the bounds again does not move them any further.
-/
namespace TilePyramid

open ExactArith

/-- The alpha lies between zero and `top`, and the value of each band between its bounds unless the
pixel has no alpha. -/
structure Pixel.Within {σ : Type} [Arith σ] [ExactArith σ] (bands : Nat) (top : Rat)
    (lo hi : Nat → Rat) (p : Pixel σ) : Prop where
  alpha_nonneg : 0 ≤ value p.alpha
  alpha_le : value p.alpha ≤ top
  colour : ∀ band < bands, ∃ v, p.colour[band]? = some v ∧
    (0 < value p.alpha → lo band ≤ value v ∧ value v ≤ hi band)

/-- The sum of each band is one of values between its bounds, with weights that add up to
`weight`. -/
structure SumWithin {σ : Type} [Arith σ] [ExactArith σ] (bands : Nat) (lo hi : Nat → Rat)
    (colour : List σ) (weight : σ) : Prop where
  nonneg : 0 ≤ value weight
  colour : ∀ band < bands, ∃ sum, colour[band]? = some sum ∧
    lo band * value weight ≤ value sum ∧ value sum ≤ hi band * value weight

section sums
variable {σ : Type} [Arith σ] [ExactArith σ] {bands : Nat} {top : Rat} {lo hi : Nat → Rat}

theorem Pixel.within_clear (htop : 0 ≤ top) :
    (Pixel.clear bands : Pixel σ).Within bands top lo hi where
  alpha_nonneg := by simp [Pixel.clear]
  alpha_le := by simpa [Pixel.clear] using htop
  colour := by
    intro band hband
    refine ⟨ofInt 0, by simp [Pixel.clear, hband], ?_⟩
    intro h
    simp [Pixel.clear] at h

theorem sumWithin_zero :
    SumWithin bands lo hi (List.replicate bands (ofInt 0 : σ)) (ofInt 0) where
  nonneg := by simp
  colour band hband := ⟨ofInt 0, by simp [hband], by simp, by simp⟩

theorem SumWithin.add {colour : List σ} {weight w : σ} (h : SumWithin bands lo hi colour weight)
    {p : Pixel σ} (hp : p.Within bands top lo hi) (hw : 0 ≤ value w)
    (hzero : value p.alpha = 0 → value w = 0) :
    SumWithin bands lo hi (List.zipWith (fun c v => c + v * w) colour p.colour) (weight + w) := by
  constructor
  · rw [value_add]
    exact add_nonneg h.nonneg hw
  · intro band hband
    obtain ⟨sum, hsum, hlo, hhi⟩ := h.colour band hband
    obtain ⟨v, hv, hvalue⟩ := hp.colour band hband
    refine ⟨sum + v * w, by simp [List.getElem?_zipWith, hsum, hv], ?_⟩
    rw [value_add, value_add, value_mul, mul_add, mul_add]
    by_cases halpha : 0 < value p.alpha
    · obtain ⟨hvlo, hvhi⟩ := hvalue halpha
      have hwlo := mul_le_mul_of_nonneg_right hvlo hw
      have hwhi := mul_le_mul_of_nonneg_right hvhi hw
      constructor <;> linarith
    · have hnone := hzero (le_antisymm (not_lt.mp halpha) hp.alpha_nonneg)
      simpa [hnone] using ⟨hlo, hhi⟩

theorem SumWithin.mean {colour : List σ} {weight : σ} (h : SumWithin bands lo hi colour weight)
    (hpos : 0 < value weight) {band : Nat} (hband : band < bands) :
    ∃ v, (colour.map (· / weight))[band]? = some v ∧ lo band ≤ value v ∧ value v ≤ hi band := by
  obtain ⟨sum, hsum, hlo, hhi⟩ := h.colour band hband
  refine ⟨sum / weight, by simp [hsum], ?_⟩
  rw [value_div]
  exact ⟨(le_div_iff₀ hpos).mpr hlo, (div_le_iff₀ hpos).mpr hhi⟩

theorem SumWithin.within {colour : List σ} {weight alpha : σ}
    (h : SumWithin bands lo hi colour weight) (halpha : 0 ≤ value alpha) (htop : value alpha ≤ top)
    (hle : value alpha ≤ value weight) :
    Pixel.Within bands top lo hi
      (⟨if ofInt 0 < weight then colour.map (· / weight) else colour, alpha⟩ : Pixel σ) where
  alpha_nonneg := halpha
  alpha_le := htop
  colour := by
    intro band hband
    by_cases hpos : 0 < value weight
    · obtain ⟨v, hv, hbounds⟩ := h.mean hpos hband
      refine ⟨v, ?_, fun _ => hbounds⟩
      rw [if_pos ((zero_lt_iff_value weight).mpr hpos), hv]
    · obtain ⟨sum, hsum, -⟩ := h.colour band hband
      refine ⟨sum, ?_, fun h => absurd (h.trans_le hle) hpos⟩
      rw [if_neg (mt (zero_lt_iff_value weight).mp hpos), hsum]

end sums

section samples
variable {σ : Type} [Arith σ] [ExactRounding σ] {top : Rat} {lo hi : Nat → Rat} {r : Raster σ}

private theorem addTap_within (edge : EdgeMode) (htop : 0 ≤ top)
    (hr : ∀ x y, (r.pixel x y).Within r.bands top lo hi) {sum : Weighted σ} {tap : Int × Int × σ}
    (h : SumWithin r.bands lo hi sum.colour sum.weight) (hshare : 0 ≤ value tap.2.2) :
    SumWithin r.bands lo hi (addTap r edge sum tap).colour (addTap r edge sum tap).weight ∧
      value (addTap r edge sum tap).weight ≤ value sum.weight + top * value tap.2.2 := by
  obtain ⟨x, y, share⟩ := tap
  have hnothing : value sum.weight ≤ value sum.weight + top * value share :=
    le_add_of_nonneg_right (mul_nonneg htop hshare)
  simp only [addTap]
  split
  · exact ⟨h, hnothing⟩
  · cases edge.place? r.width r.height x y with
    | none => exact ⟨h, hnothing⟩
    | some place =>
      obtain ⟨px, py⟩ := place
      have hp := hr px py
      have hle := mul_le_mul_of_nonneg_left hp.alpha_le hshare
      constructor
      · apply h.add hp
        · rw [value_mul]
          exact mul_nonneg hshare hp.alpha_nonneg
        · intro hzero
          rw [value_mul, hzero, mul_zero]
      · rw [value_add, value_mul]
        linarith

private theorem foldl_addTap_within (edge : EdgeMode) (htop : 0 ≤ top)
    (hr : ∀ x y, (r.pixel x y).Within r.bands top lo hi) (taps : List (Int × Int × σ))
    (hshares : ∀ t ∈ taps, 0 ≤ value t.2.2) (sum : Weighted σ)
    (h : SumWithin r.bands lo hi sum.colour sum.weight) :
    SumWithin r.bands lo hi (taps.foldl (addTap r edge) sum).colour
        (taps.foldl (addTap r edge) sum).weight ∧
      value (taps.foldl (addTap r edge) sum).weight ≤
        value sum.weight + top * (taps.map fun t => value t.2.2).sum := by
  induction taps generalizing sum with
  | nil => simpa using h
  | cons t taps ih =>
    obtain ⟨hstep, hweight⟩ := addTap_within edge htop hr h (hshares t List.mem_cons_self)
    obtain ⟨hrun, hle⟩ := ih (fun t ht => hshares t (List.mem_cons_of_mem _ ht)) _ hstep
    refine ⟨hrun, ?_⟩
    rw [List.foldl_cons, List.map_cons, List.sum_cons, mul_add]
    linarith

theorem shares_taps {σ : Type} [Arith σ] [ExactArith σ] (x y : Int) {fx fy : σ}
    (hx : 0 ≤ value fx) (hx1 : value fx ≤ 1) (hy : 0 ≤ value fy) (hy1 : value fy ≤ 1) :
    (∀ t ∈ taps x y fx fy, 0 ≤ value t.2.2) ∧
      ((taps x y fx fy).map fun t => value t.2.2).sum = 1 := by
  have hx' := sub_nonneg.mpr hx1
  have hy' := sub_nonneg.mpr hy1
  constructor
  · simp only [taps, List.forall_mem_cons, List.not_mem_nil, false_imp_iff, implies_true, and_true,
      value_mul, value_sub, value_ofInt, Int.cast_one]
    exact ⟨mul_nonneg hx' hy', mul_nonneg hx hy', mul_nonneg hx' hy, mul_nonneg hx hy⟩
  · simp only [taps, List.map_cons, List.map_nil, List.sum_cons, List.sum_nil, value_mul, value_sub,
      value_ofInt, Int.cast_one]
    ring

variable {α : Type} [Arith α] [ExactRounding α] [Narrow α σ] [ExactNarrow α σ]

private theorem narrow_fraction (x : α) :
    0 ≤ value (narrow (x - Arith.floor x) : σ) ∧ value (narrow (x - Arith.floor x) : σ) ≤ 1 := by
  rw [ExactNarrow.value_narrow, value_sub, ExactRounding.value_floor]
  constructor
  · exact Int.fract_nonneg _
  · exact (Int.fract_lt_one _).le

/-- A sample between the pixels of an image does not leave the bounds of the image. -/
theorem Raster.within_sample (htop : 0 ≤ top)
    (hr : ∀ p ∈ r.pixels, p.Within r.bands top lo hi) (edge : EdgeMode) (x y : α) :
    (r.sample edge x y).Within r.bands top lo hi := by
  have hpixel := fun x y => forall_pixel (Pixel.within_clear htop) hr x y
  rw [sample]
  split
  · exact Pixel.within_clear htop
  · obtain ⟨hfx, hfx1⟩ := narrow_fraction (σ := σ) (snap x)
    obtain ⟨hfy, hfy1⟩ := narrow_fraction (σ := σ) (snap y)
    obtain ⟨hshares, hwhole⟩ := shares_taps (Arith.toInt (Arith.floor (snap x)))
      (Arith.toInt (Arith.floor (snap y))) hfx hfx1 hfy hfy1
    obtain ⟨hsum, hweight⟩ := foldl_addTap_within edge htop hpixel _ hshares
      ⟨List.replicate r.bands (ofInt 0), ofInt 0⟩ sumWithin_zero
    rw [hwhole, value_ofInt, Int.cast_zero, zero_add, mul_one] at hweight
    exact hsum.within hsum.nonneg hweight le_rfl

end samples

section blends
variable {α σ : Type} [Cartography α] [ExactRounding α] [Arith σ] [ExactRounding σ] [Narrow α σ]
  [ExactNarrow α σ] {top : Rat} {lo hi : Nat → Rat}

theorem Placement.within_sample (htop : 0 ≤ top) {p : Placement α σ}
    (hp : ∀ q ∈ p.image.pixels, q.Within p.image.bands top lo hi) (x y : Int) :
    (p.sample x y).Within p.image.bands top lo hi := by
  simp only [sample]
  split
  · exact Pixel.within_clear htop
  · exact Raster.within_sample htop hp _ _ _

omit [ExactRounding σ] in
private theorem foldl_blended_within [ExactArith σ] {bands : Nat} (ps : List (Pixel σ))
    (hps : ∀ p ∈ ps, p.Within bands top lo hi) (b : Blended σ)
    (h : SumWithin bands lo hi b.colour b.weight) (halpha : 0 ≤ value b.alpha)
    (htop : value b.alpha ≤ top) (hle : value b.alpha ≤ value b.weight) :
    (ps.foldl Blended.add b).pixel.Within bands top lo hi := by
  induction ps generalizing b with
  | nil => exact h.within halpha htop hle
  | cons p ps ih =>
    have hp := hps p List.mem_cons_self
    have hgreater : value (b.add p).alpha = max (value b.alpha) (value p.alpha) :=
      value_greater ..
    apply ih fun q hq => hps q (List.mem_cons_of_mem _ hq)
    · exact h.add hp hp.alpha_nonneg id
    · rw [hgreater]
      exact halpha.trans (le_max_left _ _)
    · rw [hgreater]
      exact max_le htop hp.alpha_le
    · -- The largest alpha is no more than their sum, so there is a weight where there is an alpha.
      have hweight : value (b.add p).weight = value b.weight + value p.alpha := value_add ..
      rw [hgreater, hweight]
      apply max_le
      · linarith [hp.alpha_nonneg]
      · linarith [h.nonneg]

theorem Composite.within_look {c : Composite α σ} (hc : c.IsUniform) (htop : 0 ≤ top)
    (h : ∀ l ∈ c.layers, ∀ p ∈ l.placement.image.pixels, p.Within c.bands top lo hi) (x y : Int) :
    (c.look x y).Within c.bands top lo hi := by
  have hshown : ∀ p ∈ c.shownAt x y, p.Within c.bands top lo hi := by
    intro p hp
    obtain ⟨l, hl, -, rfl⟩ := hc.exists_of_mem_shownAt hp
    rw [← (hc l hl).bands] at h ⊢
    exact Placement.within_sample htop (h l hl) _ _
  rw [look]
  split
  · cases hlast : (c.shownAt x y).getLast? with
    | none => exact Pixel.within_clear htop
    | some p => exact hshown p (List.mem_of_getLast? hlast)
  · apply foldl_blended_within _ hshown
    · exact sumWithin_zero
    · simp [Blended.clear]
    · simpa [Blended.clear] using htop
    · simp [Blended.clear]

end blends

namespace Channel

theorem zero_mem_bounds (c : Channel) : c.bounds.1 ≤ 0 ∧ 0 ≤ c.bounds.2 := by cases c <;> decide

theorem cut_zero (c : Channel) : c.cut 0 = 0 := by
  have h := c.cut_intCast c.zero_mem_bounds.1 c.zero_mem_bounds.2
  rwa [Int.cast_zero] at h

theorem cut_cut (c : Channel) (q : Rat) : c.cut (c.cut q) = c.cut q := by
  have hle : (c.bounds.1 : Rat) ≤ c.bounds.2 := by exact_mod_cast c.bounds_lt.le
  have hlo : (c.bounds.1 : Rat) ≤ max (c.bounds.1 : Rat) (min c.bounds.2 q) := le_max_left _ _
  have hhi : max (c.bounds.1 : Rat) (min c.bounds.2 q) ≤ c.bounds.2 :=
    max_le hle (min_le_left _ _)
  by_cases hf : c = .f32
  · simp only [cut, if_pos hf]
    rw [min_eq_right hhi, max_eq_right hlo]
  · have hcut : c.cut q = nearest (max (c.bounds.1 : Rat) (min c.bounds.2 q)) := if_neg hf
    have hlo := nearest_mono hlo
    have hhi := nearest_mono hhi
    rw [nearest_intCast] at hlo hhi
    rw [hcut]
    exact c.cut_intCast hlo hhi

end Channel

section means
variable {σ : Type} [Arith σ] [ExactRounding σ] {bands : Nat} {lo hi : Nat → Rat}

private theorem foldl_sum_within {top : Rat} (ps : List (Pixel σ))
    (hps : ∀ p ∈ ps, p.Within bands top lo hi) (acc : Pixel σ)
    (h : SumWithin bands lo hi acc.colour acc.alpha) :
    let sum := ps.foldl (fun acc p =>
      (⟨List.zipWith (fun c v => c + v * p.alpha) acc.colour p.colour, acc.alpha + p.alpha⟩ :
        Pixel σ)) acc
    SumWithin bands lo hi sum.colour sum.alpha ∧
      value sum.alpha ≤ value acc.alpha + ps.length * top := by
  induction ps generalizing acc with
  | nil => simpa using h
  | cons p ps ih =>
    have hp := hps p List.mem_cons_self
    obtain ⟨hsum, hle⟩ := ih (fun q hq => hps q (List.mem_cons_of_mem _ hq))
      ⟨List.zipWith (fun c v => c + v * p.alpha) acc.colour p.colour, acc.alpha + p.alpha⟩
      (h.add hp hp.alpha_nonneg id)
    refine ⟨hsum, hle.trans ?_⟩
    rw [value_add, List.length_cons, Nat.cast_succ]
    linarith [hp.alpha_le]

theorem Raster.within_meanPixel (channel : Channel) {ps : List (Pixel σ)}
    (hfour : ps.length = 4) (hps : ∀ p ∈ ps, p.Within bands channel.bounds.2 lo hi) :
    (meanPixel channel bands ps).Within bands channel.bounds.2 (fun band => channel.cut (lo band))
      fun band => channel.cut (hi band) := by
  have htop : (0 : Rat) ≤ channel.bounds.2 := by exact_mod_cast channel.zero_mem_bounds.2
  obtain ⟨hsum, hle⟩ := foldl_sum_within ps hps (.clear bands) sumWithin_zero
  simp only [meanPixel]
  generalize List.foldl _ (Pixel.clear bands : Pixel σ) ps = sum at hsum hle ⊢
  have hclear : value (Pixel.clear bands : Pixel σ).alpha = 0 := by simp [Pixel.clear]
  rw [hfour, hclear, zero_add] at hle
  by_cases hpos : 0 < value sum.alpha
  · have hif : ¬ sum.alpha ≤ ofInt 0 := by
      rw [le_iff, value_ofInt, Int.cast_zero]
      exact not_le.mpr hpos
    have hmean : value (sum.alpha / ofInt 4) = value sum.alpha / 4 := by
      rw [value_div, value_ofInt, Int.cast_ofNat]
    rw [if_neg hif]
    constructor
    · dsimp only
      rw [Channel.value_clamp, hmean, ← channel.cut_zero]
      apply channel.cut_mono
      linarith
    · dsimp only
      rw [Channel.value_clamp, hmean, ← channel.cut_intCast channel.bounds_lt.le le_rfl]
      apply channel.cut_mono
      push_cast at hle
      linarith
    · intro band hband
      obtain ⟨v, hv, hlo, hhi⟩ := hsum.mean hpos hband
      refine ⟨channel.clamp v, ?_, fun _ => ?_⟩
      · rw [List.getElem?_map, Option.map_eq_some_iff] at hv ⊢
        obtain ⟨s, hs, rfl⟩ := hv
        exact ⟨s, hs, rfl⟩
      · rw [Channel.value_clamp]
        exact ⟨channel.cut_mono hlo, channel.cut_mono hhi⟩
  · have hif : sum.alpha ≤ ofInt 0 := by
      rw [le_iff, value_ofInt, Int.cast_zero]
      exact not_lt.mp hpos
    rw [if_pos hif]
    exact Pixel.within_clear htop

end means

section ranges
variable {α σ : Type} [Arith σ]

/-- Both ends cut to the channel. -/
def Channel.cutRange (channel : Channel) (range : ValueRange σ) : ValueRange σ :=
  ⟨channel.clamp range.lo, channel.clamp range.hi⟩

/-- The alpha is one of the channel, and each band lies in its range unless the pixel has no
alpha. -/
structure Pixel.IsWithin (channel : Channel) (bands : Nat) (range : Nat → Option (ValueRange σ))
    (p : Pixel σ) : Prop where
  alpha_nonneg : ofInt 0 ≤ p.alpha
  alpha_le : p.alpha ≤ channel.opaqueAlpha
  colour : ofInt 0 < p.alpha → ∀ band < bands, ∃ r v,
    range band = some r ∧ p.colour[band]? = some v ∧ r.lo ≤ v ∧ v ≤ r.hi

namespace Composite

/-- The values of a band in the pixels of all images that have any alpha. -/
def bandValues (c : Composite α σ) (band : Nat) : List σ :=
  c.layers.flatMap fun l => l.placement.image.pixels.toList.flatMap fun p =>
    if ofInt 0 < p.alpha then p.colour[band]?.toList else []

/-- The least and the greatest of these values, if there are any. -/
def bandRange (c : Composite α σ) (band : Nat) : Option (ValueRange σ) :=
  (c.bandValues band).foldl ValueRange.insert none

/-- The range of a band in the tiles that lie so many levels above the deepest one. -/
def bandRangeAbove (c : Composite α σ) : Nat → Nat → Option (ValueRange σ)
  | 0, band => c.bandRange band
  | _ + 1, band => (c.bandRange band).map c.channel.cutRange

private theorem mem_bandValues {c : Composite α σ} {l : Layer α σ} (hl : l ∈ c.layers)
    {p : Pixel σ} (hp : p ∈ l.placement.image.pixels) (halpha : ofInt 0 < p.alpha) {band : Nat}
    {v : σ} (hv : p.colour[band]? = some v) : v ∈ c.bandValues band := by
  rw [bandValues, List.mem_flatMap]
  refine ⟨l, hl, List.mem_flatMap.mpr ⟨p, Array.mem_toList_iff.mpr hp, ?_⟩⟩
  rw [if_pos halpha, hv]
  exact List.mem_singleton_self v

variable [ExactRounding σ]

theorem isRangeOf_bandRange (c : Composite α σ) (band : Nat) :
    ValueRange.IsRangeOf (c.bandRange band) (c.bandValues band) :=
  ValueRange.isRangeOf_foldl_insert _

/-- The ends of a range, as rational numbers; out of order if there is no range. -/
private def ends (range : Option (ValueRange σ)) : Rat × Rat :=
  range.elim (1, 0) fun r => (value r.lo, value r.hi)

private theorem isWithin_of_within {channel : Channel} {bands : Nat}
    {range : Nat → Option (ValueRange σ)} {p : Pixel σ}
    (h : p.Within bands channel.bounds.2 (fun band => (ends (range band)).1)
      fun band => (ends (range band)).2) : p.IsWithin channel bands range where
  alpha_nonneg := (zero_le_iff_value _).mpr h.alpha_nonneg
  alpha_le := by
    rw [le_iff, Channel.opaqueAlpha, Channel.greatest, value_ofInt]
    exact h.alpha_le
  colour := by
    intro halpha band hband
    obtain ⟨v, hv, hbounds⟩ := h.colour band hband
    obtain ⟨hlo, hhi⟩ := hbounds ((zero_lt_iff_value _).mp halpha)
    cases hr : range band with
    | none =>
      simp only [hr, ends, Option.elim_none] at hlo hhi
      linarith
    | some r =>
      simp only [hr, ends, Option.elim_some] at hlo hhi
      exact ⟨r, v, rfl, hv, (le_iff _ _).mpr hlo, (le_iff _ _).mpr hhi⟩

private theorem within_image {c : Composite α σ} (hc : c.IsUniform) {l : Layer α σ}
    (hl : l ∈ c.layers) (hwell : l.placement.image.WellFormed) {p : Pixel σ}
    (hp : p ∈ l.placement.image.pixels) (hnonneg : ofInt 0 ≤ p.alpha)
    (hle : p.alpha ≤ c.channel.opaqueAlpha) :
    p.Within c.bands c.channel.bounds.2 (fun band => (ends (c.bandRange band)).1)
      fun band => (ends (c.bandRange band)).2 where
  alpha_nonneg := (zero_le_iff_value _).mp hnonneg
  alpha_le := by
    rw [le_iff, Channel.opaqueAlpha, Channel.greatest, value_ofInt] at hle
    exact hle
  colour := by
    intro band hband
    have hlt : band < p.colour.length := by rwa [hwell.2 p hp, (hc l hl).bands]
    refine ⟨p.colour[band], List.getElem?_eq_getElem hlt, fun halpha => ?_⟩
    have hmem := mem_bandValues hl hp ((zero_lt_iff_value _).mpr halpha)
      (List.getElem?_eq_getElem hlt)
    have hrange := c.isRangeOf_bandRange band
    cases hr : c.bandRange band with
    | none =>
      rw [hr] at hrange
      rw [show c.bandValues band = [] from hrange] at hmem
      cases hmem
    | some r =>
      rw [hr] at hrange
      obtain ⟨hlo, hhi⟩ := hrange.2.2 _ hmem
      exact ⟨(le_iff _ _).mp hlo, (le_iff _ _).mp hhi⟩

private theorem ends_cutRange (channel : Channel) (range : Option (ValueRange σ)) :
    ends (range.map channel.cutRange) =
      (channel.cut (ends range).1, channel.cut (ends range).2) := by
  cases range with
  | none =>
    have hone : (channel.bounds.1 : Int) ≤ 1 ∧ 1 ≤ channel.bounds.2 := by cases channel <;> decide
    have hcut := channel.cut_intCast hone.1 hone.2
    rw [Int.cast_one] at hcut
    simp [ends, hcut, channel.cut_zero]
  | some r => simp [ends, Channel.cutRange, Channel.value_clamp]

variable [Cartography α] [ExactRounding α] [Narrow α σ] [ExactNarrow α σ]

/-- The bounds of the images are handed on to the tiles, cut to the channel above the deepest
level. -/
private theorem handsOn_bandRange {c : Composite α σ} (hc : c.IsUniform)
    (hwell : ∀ l ∈ c.layers, l.placement.image.WellFormed)
    (halpha : ∀ l ∈ c.layers, ∀ p ∈ l.placement.image.pixels,
      ofInt 0 ≤ p.alpha ∧ p.alpha ≤ c.channel.opaqueAlpha) :
    c.tileSource.HandsOn fun levels p => p.Within c.bands c.channel.bounds.2
      (fun band => (ends (c.bandRangeAbove levels band)).1)
      fun band => (ends (c.bandRangeAbove levels band)).2 where
  clear _ := Pixel.within_clear (by exact_mod_cast c.channel.zero_mem_bounds.2)
  region b := by
    apply forall_mem_region
    intro x y _
    apply within_look hc (by exact_mod_cast c.channel.zero_mem_bounds.2)
    intro l hl p hp
    obtain ⟨hnonneg, hle⟩ := halpha l hl p hp
    exact within_image hc hl (hwell l hl) hp hnonneg hle
  mean levels ps hfour hps := by
    have hmean := Raster.within_meanPixel c.channel hfour hps
    change Pixel.Within _ _ _ _ (Raster.meanPixel c.channel c.bands ps)
    cases levels with
    | zero => simpa only [bandRangeAbove, ends_cutRange] using hmean
    | succ levels => simpa only [bandRangeAbove, ends_cutRange, Channel.cut_cut] using hmean

end Composite

/-- No pixel of a tile leaves the bounds of the images. Wherever it has an alpha, each band lies
between the least and the greatest value of the band in the pixels with an alpha; above the deepest
level, between these two cut to the channel. -/
theorem Generator.generate_colour_bounds {S : Type} [Cartography α] [ExactRounding α]
    [ExactRounding σ] [Narrow α σ] [ExactNarrow α σ] {g : Generator α} {c : Composite α σ}
    (hc : c.IsUniform) (hwell : ∀ l ∈ c.layers, l.placement.image.WellFormed)
    (halpha : ∀ l ∈ c.layers, ∀ p ∈ l.placement.image.pixels,
      ofInt 0 ≤ p.alpha ∧ p.alpha ≤ c.channel.opaqueAlpha)
    {w : TileWriter (StateM S) σ} {report : α → StateM S Unit} {s : S} {root : TileTree}
    {tileSize : Nat} (ht : g.tileSize = some tileSize)
    (h : ((g.generate c.tileSource w report).run s).1.1 = .ok root) :
    ∃ tiles : List (RenderedTile σ),
      (∃ fileType format, g.fileType = some fileType ∧ g.format = some format ∧
        (g.plan c.tileSource).tiles = tiles.map fun t =>
          ((g.infoOf c.tileSource tileSize fileType).tilePath format.mode t.tile, t.raster)) ∧
      tiles.map RenderedTile.tile = root.postorder.map Tree.value ∧
      ∀ t ∈ tiles, ∀ p ∈ t.raster.pixels, p.IsWithin c.channel c.bands fun band =>
        if t.tile.level = maxLevelFor (max c.cols c.rows) tileSize then c.bandRange band
        else (c.bandRange band).map c.channel.cutRange := by
  obtain ⟨tiles, hwritten, htree, hpixels⟩ := exists_tiles_of_generate
    (Composite.handsOn_bandRange hc hwell halpha) (TileSource.isUniform_composite c) ht h
  refine ⟨tiles, hwritten, htree, ?_⟩
  intro t ht p hp
  obtain ⟨levels, hlevels, hwithin⟩ := hpixels t ht
  have hrange := Composite.isWithin_of_within (hwithin p hp)
  change t.tile.level + levels = maxLevelFor (max c.cols c.rows) tileSize at hlevels
  cases levels with
  | zero =>
    simp only [if_pos (show t.tile.level = _ from hlevels)]
    exact hrange
  | succ levels =>
    simp only [if_neg (show t.tile.level ≠ maxLevelFor (max c.cols c.rows) tileSize by omega)]
    exact hrange

end ranges

/-- An image with rational samples that is placed where it lies. -/
def Placement.exact (image : Raster Rat) : Placement Rat Rat where
  name := "exact"
  image := image
  transform := .between degreeGrid degreeGrid
  edge := .zero
  shift := (0, 0)
  box := image.box

/-- Two images of two pixels on top of each other. The brightest pixel has no alpha. -/
def Composite.dimmed : Composite Rat Rat :=
  ofLayers false ([#[⟨[10], 255⟩, ⟨[200], 0⟩], #[⟨[20], 100⟩, ⟨[31], 50⟩]].map fun pixels =>
    { placement := .exact { width := 2, height := 1, bands := 1, channel := .u8, pixels := pixels }
      x := 0
      y := 0 })

/-- Cuts an image into tiles of the given size. -/
def Generator.ofSize (tileSize : Nat) : Generator Rat :=
  new ⟨"map"⟩ |>.setTileSize tileSize |>.setFileType "png" |>.setFormat (.ofMode .plain)

theorem Generator.generate_colour_bounds_dimmed :
    ∃ (root : TileTree) (tiles : List (RenderedTile Rat)),
      (((ofSize 1).generate Composite.dimmed.tileSource TileWriter.recorder
        fun _ => pure ()).run []).1.1 = .ok root ∧
      tiles.map RenderedTile.tile = root.postorder.map Tree.value ∧
      Composite.dimmed.bandRange 0 = some ⟨10, 31⟩ ∧
      ∀ t ∈ tiles, ∀ p ∈ t.raster.pixels, p.IsWithin .u8 1 fun band =>
        if t.tile.level = maxLevelFor 2 1 then Composite.dimmed.bandRange band
        else (Composite.dimmed.bandRange band).map Channel.u8.cutRange := by
  have huniform : Composite.dimmed.IsUniform := by
    apply Composite.isUniform_ofLayers
    intro l hl
    obtain ⟨pixels, -, rfl⟩ := List.mem_map.mp hl
    exact ⟨rfl, rfl⟩
  have hwell : ∀ l ∈ Composite.dimmed.layers, l.placement.image.WellFormed := by
    simp only [Raster.WellFormed]
    decide
  have halpha : ∀ l ∈ Composite.dimmed.layers, ∀ p ∈ l.placement.image.pixels,
      ofInt 0 ≤ p.alpha ∧ p.alpha ≤ Composite.dimmed.channel.opaqueAlpha := by decide +kernel
  have hplan : ((ofSize 1).plan Composite.dimmed.tileSource).outcome =
      .ok (.node (.ofCell 1 1 0 0 0)
        [.node (.ofCell 1 1 1 0 0) [], .node (.ofCell 1 1 1 1 0) []]) := rfl
  have h := generate_recorder (by decide) hplan
  obtain ⟨tiles, -, htiles, hbounds⟩ := generate_colour_bounds huniform hwell halpha rfl h
  exact ⟨_, tiles, h, htiles, by decide +kernel, hbounds⟩

end TilePyramid
