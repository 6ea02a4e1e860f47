import TilePyramid.Raster.Adjustment
import Mathlib.Data.Option.Basic

/-!
# Adjustments pixel by pixel

The adjustments treat every pixel of an image alike and on its own. A colour value takes a way that
depends on the channels alone: it is carried over to the working channel, rescaled and stretched,
unless its pixel is masked. Nodata is compared after the conversion, but the range of an image is
taken before it, so that the two mean the same pixels only if the image is in the working channel.
-/
namespace TilePyramid

variable {σ : Type} [Arith σ]

namespace Pixel

/-- The pixel in the working channel. -/
def toChannel (source work : Channel) (p : Pixel σ) : Pixel σ :=
  if work = source then p
  else ⟨p.colour.map (source.rescale work), source.rescaleAlpha work p.alpha⟩

/-- The pixel of an image with `bands` bands as a run has it that asks for `wanted` bands. -/
def spread (wanted : Option Nat) (bands : Nat) (p : Pixel σ) : Pixel σ :=
  if wanted = some 3 ∧ bands ≠ 3 then ⟨List.replicate 3 (p.colour.headD p.alpha), p.alpha⟩ else p

/-- Clear if every band holds the nodata value, and opaque if not. -/
def mask (work : Channel) (nodata : Option σ) (p : Pixel σ) : Pixel σ :=
  match nodata with
  | none => p
  | some n =>
    if p.isNodata n then ⟨p.colour.map fun _ => ofInt 0, ofInt 0⟩
    else { p with alpha := work.opaqueAlpha }

def mapColour (f : σ → σ) (p : Pixel σ) : Pixel σ := { p with colour := p.colour.map f }

end Pixel

namespace Adjustments

/-- A value of the working channel, rescaled. -/
def rescaled (a : Adjustments σ) (work : Channel) (v : σ) : σ :=
  match a.rescale with
  | some (scale, offset) => Raster.rescaleValue work scale offset v
  | none => v

/-- What a colour value of the source is before it is stretched. -/
def working (a : Adjustments σ) (source work : Channel) (v : σ) : σ :=
  a.rescaled work (source.rescale work v)

/-- Stretches a rescaled value as the range of the run asks for. -/
def stretched (a : Adjustments σ) (source work : Channel) (v : σ) : σ :=
  match a.normalize with
  | some range =>
    let carried := a.workingRange source work range
    if carried.hi ≤ carried.lo then v else work.clamp (Raster.stretchValue work carried v)
  | none => v

/-- What becomes of a colour value of the source. -/
def adjusted (a : Adjustments σ) (source work : Channel) (v : σ) : σ :=
  a.stretched source work (a.working source work v)

/-- A pixel in the working channel with its bands, before it is masked. -/
def converted (a : Adjustments σ) (source : Channel) (bands : Nat) (work : Channel)
    (p : Pixel σ) : Pixel σ :=
  (p.toChannel source work).spread a.bands bands

/-- The pixel holds nodata after the conversion. -/
def masks (a : Adjustments σ) (source : Channel) (bands : Nat) (target : Target σ)
    (p : Pixel σ) : Bool :=
  target.nodata.any (a.converted source bands target.channel p).isNodata

/-- What becomes of a pixel. -/
def pixel (a : Adjustments σ) (source : Channel) (bands : Nat) (target : Target σ)
    (p : Pixel σ) : Pixel σ :=
  ((a.converted source bands target.channel p).mask target.channel target.nodata).mapColour
    fun v => a.stretched source target.channel (a.rescaled target.channel v)

private theorem toChannel_eq (r : Raster σ) (work : Channel) :
    r.toChannel work =
      ⟨r.width, r.height, r.bands, work, r.pixels.map (.toChannel r.channel work)⟩ := by
  rw [Raster.toChannel]
  split
  · next h =>
    subst h
    have hid : Pixel.toChannel r.channel r.channel = (id : Pixel σ → Pixel σ) :=
      funext fun p => if_pos rfl
    rw [hid, Array.map_id]
  · next h =>
    have hpixel : Pixel.toChannel r.channel work = fun p : Pixel σ =>
        ⟨p.colour.map (r.channel.rescale work), r.channel.rescaleAlpha work p.alpha⟩ :=
      funext fun p => if_neg h
    rw [hpixel]
    rfl

omit [Arith σ] in
private theorem spread_eq (wanted : Option Nat) (r : Raster σ) :
    (if wanted = some 3 then r.toRgb else r) =
      ⟨r.width, r.height, if wanted = some 3 then 3 else r.bands, r.channel,
        r.pixels.map (.spread wanted r.bands)⟩ := by
  by_cases h : wanted = some 3 ∧ r.bands ≠ 3
  · have hpixel : Pixel.spread wanted r.bands = fun p : Pixel σ =>
        ⟨List.replicate 3 (p.colour.headD p.alpha), p.alpha⟩ := funext fun p => if_pos h
    rw [if_pos h.1, if_pos h.1, Raster.toRgb, if_neg h.2, hpixel]
    rfl
  · have hid : Pixel.spread wanted r.bands = (id : Pixel σ → Pixel σ) :=
      funext fun p => if_neg h
    rw [hid, Array.map_id]
    split
    · next hwanted =>
      have hthree : r.bands = 3 := by_contra fun hbands => h ⟨hwanted, hbands⟩
      rw [Raster.toRgb, if_pos hthree, ← hthree]
    · rfl

private theorem mask_eq (nodata : Option σ) (r : Raster σ) :
    nodata.elim r r.maskNodata =
      ⟨r.width, r.height, r.bands, r.channel, r.pixels.map (.mask r.channel nodata)⟩ := by
  cases nodata with
  | none => exact congrArg (Raster.mk _ _ _ _) (Array.map_id _).symm
  | some n => rfl

omit [Arith σ] in
private theorem mapColour_self : Pixel.mapColour (fun v : σ => v) = id :=
  funext fun p => congrArg (Pixel.mk · p.alpha) (List.map_id _)

private theorem rescale_eq (a : Adjustments σ) (r : Raster σ) :
    a.rescale.elim r (fun s => r.rescaleColour s.1 s.2) =
      ⟨r.width, r.height, r.bands, r.channel,
        r.pixels.map (.mapColour (a.rescaled r.channel))⟩ := by
  unfold rescaled
  cases a.rescale with
  | none => exact congrArg (Raster.mk _ _ _ _) (by rw [mapColour_self, Array.map_id])
  | some s => rfl

private theorem normalize_eq (a : Adjustments σ) (source : Channel) (r : Raster σ) :
    a.normalize.elim r (fun range => r.normalize (a.workingRange source r.channel range)) =
      ⟨r.width, r.height, r.bands, r.channel,
        r.pixels.map (.mapColour (a.stretched source r.channel))⟩ := by
  unfold stretched
  cases a.normalize with
  | none => exact congrArg (Raster.mk _ _ _ _) (by rw [mapColour_self, Array.map_id])
  | some range =>
    rw [Option.elim_some, Raster.normalize]
    split
    · next h => simp only [h, if_true, mapColour_self, Array.map_id]
    · next h =>
      simp only [h, if_false]
      rfl

theorem apply_stages (a : Adjustments σ) (r : Raster σ) (target : Target σ) :
    a.apply r target =
      let banded :=
        if a.bands = some 3 then (r.toChannel target.channel).toRgb else r.toChannel target.channel
      let masked := target.nodata.elim banded banded.maskNodata
      let rescaled := a.rescale.elim masked fun s => masked.rescaleColour s.1 s.2
      a.normalize.elim rescaled fun range =>
        rescaled.normalize (a.workingRange r.channel target.channel range) := by
  rw [apply]
  cases a.rescale <;> cases target.nodata <;> cases a.normalize <;> rfl

/-- An adjusted image has the same places, the working channel, and every pixel adjusted on its
own. -/
theorem apply_eq (a : Adjustments σ) (r : Raster σ) (target : Target σ) :
    a.apply r target =
      ⟨r.width, r.height, if a.bands = some 3 then 3 else r.bands, target.channel,
        r.pixels.map (a.pixel r.channel r.bands target)⟩ := by
  -- Each stage is a map over the pixels of the one before it.
  simp only [apply_stages, toChannel_eq, spread_eq, mask_eq, rescale_eq]
  refine (normalize_eq a r.channel _).trans ?_
  simp only [Array.map_map]
  congr 2
  funext p
  simp only [Function.comp_apply, pixel, converted, Pixel.mapColour, List.map_map]
  rfl

end Adjustments

theorem Pixel.colour_toChannel (source work : Channel) (p : Pixel σ) :
    (p.toChannel source work).colour = p.colour.map (source.rescale work) := by
  rw [toChannel]
  split
  · next h =>
    have hid : (source.rescale work : σ → σ) = id := funext fun v => if_pos h
    rw [hid, List.map_id]
  · rfl

theorem Adjustments.isNodata_converted (a : Adjustments σ) (source work : Channel) {bands : Nat}
    (hbands : bands = 1 ∨ bands = 3) {p : Pixel σ} (hp : p.colour.length = bands) (nodata : σ) :
    (a.converted source bands work p).isNodata nodata =
      p.colour.all fun v => source.rescale work v == nodata := by
  have hcolour := Pixel.colour_toChannel source work p
  rw [converted, Pixel.spread]
  split
  · next h =>
    obtain ⟨v, hv⟩ := List.length_eq_one_iff.mp (hp.trans (hbands.resolve_right h.2))
    rw [hv, List.map_singleton] at hcolour
    simp only [Pixel.isNodata, hcolour, hv, List.headD_cons, List.replicate, List.all_cons,
      List.all_nil, Bool.and_true, Bool.and_self]
  · rw [Pixel.isNodata, hcolour, List.all_map]
    rfl

theorem Adjustments.colour_pixel (a : Adjustments σ) {source : Channel} {bands : Nat}
    {target : Target σ} {p : Pixel σ} (hp : p.colour ≠ [])
    (hmasks : a.masks source bands target p = false) :
    (a.pixel source bands target p).colour =
      (p.spread a.bands bands).colour.map (a.adjusted source target.channel) := by
  have hmask : ((a.converted source bands target.channel p).mask target.channel
      target.nodata).colour = (a.converted source bands target.channel p).colour := by
    rw [masks] at hmasks
    cases hn : target.nodata with
    | none => rfl
    | some n =>
      rw [hn, Option.any_some] at hmasks
      simp only [Pixel.mask, hmasks, Bool.false_eq_true, if_false]
  have hspread : (a.converted source bands target.channel p).colour =
      (p.spread a.bands bands).colour.map (source.rescale target.channel) := by
    obtain ⟨v, vs, hv⟩ := List.exists_cons_of_ne_nil hp
    have hcolour := Pixel.colour_toChannel source target.channel p
    rw [converted, Pixel.spread, Pixel.spread]
    split
    · simp only [hcolour, hv, List.map_cons, List.headD_cons, List.map_replicate]
    · exact hcolour
  rw [pixel, Pixel.mapColour, hmask, hspread, List.map_map]
  rfl

namespace Raster

/-- An image in grey or colour that hides what is below it. -/
structure IsOpaque (r : Raster σ) : Prop where
  wellFormed : r.WellFormed
  bands : r.bands = 1 ∨ r.bands = 3
  alpha : ∀ p ∈ r.pixels, p.alpha = r.channel.opaqueAlpha

/-- The pixel at an index does not take part in the range of the image. -/
def IsSkippedAt (r : Raster σ) (nodata : Option σ) (i : Nat) : Prop :=
  ∃ p ∈ r.pixels[i]?, p.counts nodata = false

/-- The pixel at an index hides nothing. -/
def IsTransparentAt (r : Raster σ) (i : Nat) : Prop := ∃ p ∈ r.pixels[i]?, p.alpha = ofInt 0

instance (r : Raster Float32) (nodata : Option Float32) (i : Nat) :
    Decidable (r.IsSkippedAt nodata i) :=
  inferInstanceAs (Decidable (∃ p ∈ r.pixels[i]?, p.counts nodata = false))

instance (r : Raster Float32) (i : Nat) : Decidable (r.IsTransparentAt i) :=
  inferInstanceAs (Decidable (∃ p ∈ r.pixels[i]?, p.alpha = ofInt 0))

/-- One grey pixel that hides what is below it. -/
def grey (channel : Channel) (v : σ) : Raster σ where
  width := 1
  height := 1
  bands := 1
  channel := channel
  pixels := #[⟨[v], channel.opaqueAlpha⟩]

theorem isOpaque_grey (channel : Channel) (v : σ) : (grey channel v).IsOpaque where
  wellFormed := by simp [WellFormed, grey]
  bands := .inl rfl
  alpha := by simp [grey]

variable {r : Raster Float32}

private theorem opaqueAlpha_pos (channel : Channel) :
    ¬ (channel.opaqueAlpha : Float32) ≤ ofInt 0 ∧ (channel.opaqueAlpha : Float32) ≠ ofInt 0 := by
  cases channel <;> decide

theorem IsOpaque.isSkippedAt_iff (hr : r.IsOpaque) (nodata : Float32) (i : Nat) :
    r.IsSkippedAt (some nodata) i ↔
      ∃ p ∈ r.pixels[i]?, (p.colour.all fun v => v == nodata) = true := by
  refine exists_congr fun p => and_congr_right fun hp => ?_
  have halpha := hr.alpha p (Array.mem_of_getElem? hp)
  have hpos : (p.alpha ≤ ofInt 0) = False := by
    rw [halpha]
    exact eq_false (opaqueAlpha_pos r.channel).1
  simp only [Pixel.counts, hpos, decide_false, Bool.not_false, Bool.true_and, Option.any_some,
    Bool.not_eq_false', Pixel.isNodata]

theorem IsOpaque.isTransparentAt_apply_iff (hr : r.IsOpaque) (a : Adjustments Float32)
    (work : Channel) (nodata : Float32) (i : Nat) :
    (a.apply r ⟨work, some nodata⟩).IsTransparentAt i ↔
      ∃ p ∈ r.pixels[i]?, (p.colour.all fun v => r.channel.rescale work v == nodata) = true := by
  rw [IsTransparentAt, a.apply_eq]
  simp only [Array.getElem?_map, Option.mem_map, exists_exists_and_eq_and]
  refine exists_congr fun p => and_congr_right fun hp => ?_
  have hlength := hr.wellFormed.2 p (Array.mem_of_getElem? hp)
  rw [← a.isNodata_converted r.channel work hr.bands hlength]
  simp only [Adjustments.pixel, Pixel.mapColour, Pixel.mask]
  split
  · next h => exact iff_of_true rfl h
  · next h => exact iff_of_false (opaqueAlpha_pos work).2 h

/-- The adjustments make the pixels of an opaque image transparent that hold nodata after the
conversion to the working channel; those that hold nodata before it do not take part in the range.
In one channel these are the same pixels. In two they are the same in all images exactly if no
value becomes nodata by the conversion, and none ceases to be. -/
theorem transparent_iff_skipped (hr : r.IsOpaque) (a : Adjustments Float32) (work : Channel)
    (nodata : Float32) :
    (∀ i, r.IsSkippedAt (some nodata) i ↔
      ∃ p ∈ r.pixels[i]?, (p.colour.all fun v => v == nodata) = true) ∧
    (∀ i, (a.apply r ⟨work, some nodata⟩).IsTransparentAt i ↔
      ∃ p ∈ r.pixels[i]?, (p.colour.all fun v => r.channel.rescale work v == nodata) = true) ∧
    (work = r.channel → ∀ i,
      (a.apply r ⟨work, some nodata⟩).IsTransparentAt i ↔ r.IsSkippedAt (some nodata) i) ∧
    ((∀ other : Raster Float32, other.IsOpaque → other.channel = r.channel → ∀ i,
        (a.apply other ⟨work, some nodata⟩).IsTransparentAt i ↔
          other.IsSkippedAt (some nodata) i) ↔
      ∀ v, (r.channel.rescale work v == nodata) = (v == nodata)) := by
  have hkept (h : ∀ v, (r.channel.rescale work v == nodata) = (v == nodata))
      {other : Raster Float32} (ho : other.IsOpaque) (hchannel : other.channel = r.channel)
      (i : Nat) : (a.apply other ⟨work, some nodata⟩).IsTransparentAt i ↔
        other.IsSkippedAt (some nodata) i := by
    rw [ho.isTransparentAt_apply_iff, ho.isSkippedAt_iff, hchannel, funext h]
  refine ⟨hr.isSkippedAt_iff nodata, hr.isTransparentAt_apply_iff a work nodata, ?_, ?_, ?_⟩
  · rintro rfl
    exact hkept (fun v => congrArg (· == nodata) (if_pos rfl)) hr rfl
  · -- A value is told apart by the image that holds nothing else.
    intro hsame v
    have hgrey := isOpaque_grey r.channel v
    have hpixel (f : Float32 → Bool) :
        (∃ p ∈ (grey r.channel v).pixels[0]?, p.colour.all f = true) ↔ f v = true := by
      simp [grey]
    have hv := hsame _ hgrey rfl 0
    rw [hgrey.isTransparentAt_apply_iff, hgrey.isSkippedAt_iff, hpixel, hpixel] at hv
    exact Bool.eq_iff_iff.mpr hv
  · exact fun h other ho hchannel => hkept h ho hchannel

theorem transparent_iff_skipped_grey :
    let white : Raster Float32 := grey .u8 (ofInt 255)
    white.IsOpaque ∧
      ∀ i, (Adjustments.apply ⟨none, none, some 3⟩ white
          ⟨.u8, some (ofInt 255)⟩).IsTransparentAt i ↔ white.IsSkippedAt (some (ofInt 255)) i := by
  have hwhite := isOpaque_grey .u8 (ofInt 255 : Float32)
  obtain ⟨-, -, hsame, -⟩ :=
    transparent_iff_skipped hwhite ⟨none, none, some 3⟩ .u8 (ofInt 255 : Float32)
  exact ⟨hwhite, hsame rfl⟩

/-- A white pixel of 8 bits does not take part in the range if 255 is nodata, but it is not
transparent after a conversion to fractions. -/
theorem skipped_not_transparent :
    let white : Raster Float32 := grey .u8 (ofInt 255)
    white.IsOpaque ∧ ¬ ∀ i,
      (Adjustments.apply ⟨none, none, none⟩ white ⟨.f32, some (ofInt 255)⟩).IsTransparentAt i ↔
        white.IsSkippedAt (some (ofInt 255)) i := by
  intro white
  have hskipped : white.IsSkippedAt (some (ofInt 255)) 0 := by decide +kernel
  have hkept : ¬ (Adjustments.apply ⟨none, none, none⟩ white
      ⟨.f32, some (ofInt 255)⟩).IsTransparentAt 0 := by decide +kernel
  exact ⟨isOpaque_grey .u8 _, fun h => hkept ((h 0).mpr hskipped)⟩

end Raster
end TilePyramid
