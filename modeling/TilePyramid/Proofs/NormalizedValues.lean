import TilePyramid.Proofs.AdjustedPixels
import TilePyramid.Proofs.ExactArithmetic
import TilePyramid.Source
import Mathlib.Tactic.FieldSimp

/-!
# Normalized values

The range that is scanned before a run has the least and the greatest value that counts in any
image. It is carried to the working channel by its two ends, the values one by one; both ways keep
the order of values, or both reverse it, so that the ends of the range become the ends of the
channel and nothing is cut off in between. Images of one channel are stretched alike. Images of two
channels are not, since each carries the same range over from its own channel.
-/
namespace TilePyramid

open ExactArith

/-- The values of all pixels that count. -/
def Raster.countedValues {σ : Type} [Arith σ] (r : Raster σ) (nodata : Option σ) : List σ :=
  r.pixels.toList.flatMap fun p => if p.counts nodata then p.colour else []

/-- The values of all pixels that count in their source. -/
def Source.countedValues {α σ : Type} [Arith σ] (sources : List (Source α σ))
    (nodata : Option σ) : List σ :=
  sources.flatMap fun s => s.raster.countedValues (nodata.or s.nodata)

variable {σ : Type} [Arith σ] [ExactRounding σ]

theorem Raster.isRangeOf_valueRange (r : Raster σ) (nodata : Option σ) :
    ValueRange.IsRangeOf (r.valueRange nodata) (r.countedValues nodata) := by
  have hfold : r.valueRange nodata = (r.countedValues nodata).foldl ValueRange.insert none := by
    have hstep (range : Option (ValueRange σ)) (p : Pixel σ) :
        (if p.counts nodata then p.colour.foldl ValueRange.insert range else range) =
          (if p.counts nodata then p.colour else []).foldl ValueRange.insert range := by
      split <;> rfl
    have hfinite (range : Option (ValueRange σ)) :
        (range.filter fun v => Arith.isFinite v.lo && Arith.isFinite v.hi) = range := by
      cases range <;> simp [ExactArith.isFinite]
    simp only [valueRange, hfinite, countedValues, List.foldl_flatMap, ← Array.foldl_toList, hstep]
  rw [hfold]
  exact ValueRange.isRangeOf_foldl_insert _

theorem Source.isRangeOf_scan {α : Type} (sources : List (Source α σ)) (nodata : Option σ) :
    ValueRange.IsRangeOf (scan sources nodata) (countedValues sources nodata) := by
  refine ValueRange.isRangeOf_foldl (fun range s vs h => ?_) sources ValueRange.isRangeOf_nil
  have hs := s.raster.isRangeOf_valueRange (nodata.or s.nodata)
  cases hr : s.raster.valueRange (nodata.or s.nodata) with
  | none =>
    rw [hr] at hs
    have hnone : s.raster.countedValues (nodata.or s.nodata) = [] := hs
    rwa [hnone, List.append_nil]
  | some r =>
    rw [hr] at hs
    cases range with
    | none =>
      obtain rfl : vs = [] := h
      exact hs
    | some all => exact ValueRange.isRangeOf_union h hs

namespace ValueRange

theorem map_of_le {r : ValueRange σ} {f : σ → σ} (h : f r.lo ≤ f r.hi) :
    r.map f = ⟨f r.lo, f r.hi⟩ := by
  have h := (le_iff _ _).mp h
  rw [map, mk.injEq]
  exact ⟨value_injective ((value_lesser ..).trans (min_eq_left h)),
    value_injective ((value_greater ..).trans (max_eq_right h))⟩

theorem map_of_ge {r : ValueRange σ} {f : σ → σ} (h : f r.hi ≤ f r.lo) :
    r.map f = ⟨f r.hi, f r.lo⟩ := by
  have h := (le_iff _ _).mp h
  rw [map, mk.injEq]
  exact ⟨value_injective ((value_lesser ..).trans (min_eq_right h)),
    value_injective ((value_greater ..).trans (max_eq_left h))⟩

end ValueRange

namespace Adjustments

/-- Rescaling turns the order of values around. -/
def reverses (a : Adjustments σ) : Bool := a.rescale.any fun s => decide (s.1 < ofInt 0)

/-- Values in the order in which adjusted values have them. -/
def Ordered (a : Adjustments σ) (v w : σ) : Prop := if a.reverses then w ≤ v else v ≤ w

theorem ordered_rescaled (a : Adjustments σ) (work : Channel) {v w : σ} (h : v ≤ w) :
    a.Ordered (a.rescaled work v) (a.rescaled work w) := by
  unfold Ordered reverses rescaled
  cases a.rescale with
  | none => simpa using h
  | some s =>
    obtain ⟨scale, offset⟩ := s
    rw [le_iff] at h
    simp only [Option.any_some, decide_eq_true_iff, lt_iff scale, value_ofInt, Int.cast_zero]
    split
    · next hscale =>
      refine work.clamp_mono ((le_iff _ _).mpr ?_)
      simp only [value_add, value_mul]
      linarith [mul_le_mul_of_nonpos_right h hscale.le]
    · next hscale =>
      refine work.clamp_mono ((le_iff _ _).mpr ?_)
      simp only [value_add, value_mul]
      linarith [mul_le_mul_of_nonneg_right h (not_lt.mp hscale)]

theorem ordered_working (a : Adjustments σ) (source work : Channel) {v w : σ} (h : v ≤ w) :
    a.Ordered (a.working source work v) (a.working source work w) :=
  a.ordered_rescaled work (source.rescale_mono work h)

theorem workingRange_eq (a : Adjustments σ) (source work : Channel) {range : ValueRange σ}
    (h : range.lo ≤ range.hi) :
    a.workingRange source work range =
      if a.reverses then ⟨a.working source work range.hi, a.working source work range.lo⟩
      else ⟨a.working source work range.lo, a.working source work range.hi⟩ := by
  have hconverted := ValueRange.map_of_le (source.rescale_mono work h)
  have hordered := a.ordered_working source work h
  -- The conversion keeps the order of the ends, and only rescaling may turn them around.
  have hmap : a.workingRange source work range =
      (range.map (source.rescale work)).map (a.rescaled work) := by
    unfold workingRange rescaled
    cases a.rescale with
    | none =>
      rw [hconverted]
      exact (ValueRange.map_of_le (source.rescale_mono work h)).symm
    | some s => rfl
  unfold Ordered at hordered
  rw [hmap, hconverted]
  split
  · next hr =>
    rw [if_pos hr] at hordered
    exact ValueRange.map_of_ge hordered
  · next hr =>
    rw [if_neg hr] at hordered
    exact ValueRange.map_of_le hordered

/-- What an adjusted value is before it is cut to the channel. -/
def uncut (a : Adjustments σ) (source work : Channel) (range : ValueRange σ) (v : σ) : σ :=
  Raster.stretchValue work (a.workingRange source work range) (a.working source work v)

omit [ExactRounding σ] in
theorem adjusted_eq_clamp {a : Adjustments σ} {source work : Channel} {range : ValueRange σ}
    (hrange : a.normalize = some range)
    (hextent : ¬ (a.workingRange source work range).hi ≤ (a.workingRange source work range).lo)
    (v : σ) : a.adjusted source work v = work.clamp (a.uncut source work range v) := by
  rw [adjusted, stretched, hrange]
  exact if_neg hextent

omit [ExactRounding σ] in
theorem Ordered.map {a : Adjustments σ} {f : σ → σ} (hf : ∀ {v w}, v ≤ w → f v ≤ f w) {v w : σ}
    (h : a.Ordered v w) : a.Ordered (f v) (f w) := by
  unfold Ordered at h ⊢
  split
  · next hr =>
    rw [if_pos hr] at h
    exact hf h
  · next hr =>
    rw [if_neg hr] at h
    exact hf h

end Adjustments

namespace Raster

variable {work : Channel} {r : ValueRange σ}

theorem value_stretch (v : σ) :
    value (stretchValue work r v) =
      (value v - value r.lo) * ((work.bounds.2 - work.bounds.1) / (value r.hi - value r.lo)) +
        work.bounds.1 := by
  simp only [stretchValue, Channel.least, Channel.greatest, value_add, value_sub, value_mul,
    value_div, value_ofInt]

theorem extent_pos (h : ¬ r.hi ≤ r.lo) : 0 < value r.hi - value r.lo :=
  sub_pos.mpr (not_le.mp (mt (le_iff _ _).mpr h))

theorem stretch_ends (work : Channel) (h : ¬ r.hi ≤ r.lo) :
    stretchValue work r r.lo = work.least ∧ stretchValue work r r.hi = work.greatest := by
  have hpos := (extent_pos h).ne'
  constructor <;> apply value_injective (α := σ) <;> rw [value_stretch]
  · rw [sub_self, zero_mul, zero_add, Channel.least, value_ofInt]
  · rw [Channel.greatest, value_ofInt]
    field_simp
    ring

theorem stretch_mono (h : ¬ r.hi ≤ r.lo) {v w : σ} (hvw : v ≤ w) :
    stretchValue work r v ≤ stretchValue work r w := by
  have hpos := extent_pos h
  have hwork : (0 : Rat) < work.bounds.2 - work.bounds.1 :=
    sub_pos.mpr (by exact_mod_cast work.bounds_lt)
  rw [le_iff] at hvw
  rw [le_iff, value_stretch, value_stretch]
  gcongr

end Raster

namespace Adjustments

variable {a : Adjustments σ} {source work : Channel} {range : ValueRange σ}

/-- Stretching takes the ends of a scanned range to those of the channel, the other way around if
rescaling turns values around. -/
theorem uncut_ends (h : range.lo ≤ range.hi)
    (hextent : ¬ (a.workingRange source work range).hi ≤ (a.workingRange source work range).lo) :
    a.uncut source work range range.lo = (if a.reverses then work.greatest else work.least) ∧
      a.uncut source work range range.hi = if a.reverses then work.least else work.greatest := by
  have hends := Raster.stretch_ends work hextent
  unfold uncut
  rw [a.workingRange_eq source work h] at hends ⊢
  split
  · next hr =>
    rw [if_pos hr] at hends
    exact hends.symm
  · next hr =>
    rw [if_neg hr] at hends
    exact hends

theorem ordered_uncut
    (hextent : ¬ (a.workingRange source work range).hi ≤ (a.workingRange source work range).lo)
    {v w : σ} (h : v ≤ w) :
    a.Ordered (a.uncut source work range v) (a.uncut source work range w) :=
  (a.ordered_working source work h).map (Raster.stretch_mono hextent)

theorem uncut_bounds
    (hextent : ¬ (a.workingRange source work range).hi ≤ (a.workingRange source work range).lo)
    {v : σ} (hlo : range.lo ≤ v) (hhi : v ≤ range.hi) :
    work.least ≤ a.uncut source work range v ∧ a.uncut source work range v ≤ work.greatest := by
  have hrange : range.lo ≤ range.hi :=
    (le_iff _ _).mpr (((le_iff _ _).mp hlo).trans ((le_iff _ _).mp hhi))
  obtain ⟨hfirst, hlast⟩ := uncut_ends hrange hextent
  have hbelow := ordered_uncut hextent hlo
  have habove := ordered_uncut hextent hhi
  rw [hfirst] at hbelow
  rw [hlast] at habove
  unfold Ordered at hbelow habove
  split at hbelow
  · next hr =>
    rw [if_pos hr, if_pos hr] at habove
    exact ⟨habove, hbelow⟩
  · next hr =>
    rw [if_neg hr, if_neg hr] at habove
    exact ⟨hbelow, habove⟩

/-- Normalization with the range that was scanned, in images of one channel. A pixel that is not
masked is adjusted value by value. What counts is not cut off; the ends of the range become the ends
of the channel, and the order of values is kept across all images, both the other way around if
rescaling has a negative factor. -/
theorem normalized_fills_channel {α : Type} {sources : List (Source α σ)}
    (hsource : ∀ s ∈ sources, s.raster.channel = source) {nodata : Option σ}
    (hscan : Source.scan sources nodata = some range) (hrange : a.normalize = some range)
    (hextent : ¬ (a.workingRange source work range).hi ≤ (a.workingRange source work range).lo) :
    (∀ s ∈ sources, ∀ (masked : Option σ) (i : Nat), ∀ p ∈ s.raster.pixels[i]?, p.colour ≠ [] →
      a.masks source s.raster.bands ⟨work, masked⟩ p = false →
        ∃ q ∈ (a.apply s.raster ⟨work, masked⟩).pixels[i]?,
          q.colour = (p.spread a.bands s.raster.bands).colour.map (a.adjusted source work)) ∧
    ∀ v ∈ Source.countedValues sources nodata,
      a.adjusted source work v = work.clamp (a.uncut source work range v) ∧
      (work.least ≤ a.uncut source work range v ∧ a.uncut source work range v ≤ work.greatest) ∧
      (v = range.lo → a.adjusted source work v = if a.reverses then work.greatest else work.least) ∧
      (v = range.hi → a.adjusted source work v = if a.reverses then work.least else work.greatest) ∧
      ∀ w ∈ Source.countedValues sources nodata, v ≤ w →
        a.Ordered (a.adjusted source work v) (a.adjusted source work w) := by
  have hcut := adjusted_eq_clamp hrange hextent
  refine ⟨fun s hs masked i p hp hcolour hmasks => ?_, fun v hv => ?_⟩
  · have hpixel : a.pixel source s.raster.bands ⟨work, masked⟩ p ∈
        (a.apply s.raster ⟨work, masked⟩).pixels[i]? := by
      rw [a.apply_eq, hsource s hs, Array.getElem?_map]
      exact Option.mem_map_of_mem _ hp
    exact ⟨_, hpixel, a.colour_pixel hcolour hmasks⟩
  · have hcounted := Source.isRangeOf_scan sources nodata
    rw [hscan] at hcounted
    obtain ⟨-, -, hin⟩ := hcounted
    obtain ⟨hlo, hhi⟩ := hin v hv
    obtain ⟨hfirst, hlast⟩ := uncut_ends
      ((le_iff _ _).mpr (((le_iff _ _).mp hlo).trans ((le_iff _ _).mp hhi))) hextent
    refine ⟨hcut v, uncut_bounds hextent hlo hhi, ?_, ?_, fun w hw hvw => ?_⟩
    · rintro rfl
      rw [hcut, hfirst, apply_ite work.clamp, work.clamp_greatest, work.clamp_least]
    · rintro rfl
      rw [hcut, hlast, apply_ite work.clamp, work.clamp_greatest, work.clamp_least]
    · rw [hcut, hcut]
      exact (ordered_uncut hextent hvw).map work.clamp_mono

theorem normalized_fills_channel_negative :
    let dark : Source Rat Rat := ⟨"dark", Raster.grey .u8 10, none, none⟩
    let light : Source Rat Rat := ⟨"light", Raster.grey .u8 200, none, none⟩
    let a : Adjustments Rat := ⟨some (-1, 65535), some ⟨10, 200⟩, none⟩
    let carried := a.workingRange .u8 .u16 ⟨10, 200⟩
    (∀ s ∈ [dark, light], s.raster.channel = .u8) ∧
      Source.scan [dark, light] none = some ⟨10, 200⟩ ∧ ¬ carried.hi ≤ carried.lo ∧
      a.adjusted .u8 .u16 10 = Channel.u16.greatest ∧
      a.adjusted .u8 .u16 200 = Channel.u16.least := by
  intro dark light a carried
  have hsource : ∀ s ∈ [dark, light], s.raster.channel = .u8 := by simp [dark, light, Raster.grey]
  have hscan : Source.scan [dark, light] none = some ⟨10, 200⟩ := by decide +kernel
  have hextent : ¬ carried.hi ≤ carried.lo := by decide +kernel
  obtain ⟨-, hvalues⟩ := normalized_fills_channel hsource hscan (a := a) rfl hextent
  obtain ⟨-, -, hlo, -, -⟩ := hvalues 10 (by decide +kernel)
  obtain ⟨-, -, -, hhi, -⟩ := hvalues 200 (by decide +kernel)
  exact ⟨hsource, hscan, hextent, hlo rfl, hhi rfl⟩

end Adjustments
end TilePyramid
