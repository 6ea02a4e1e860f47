import TilePyramid.Proofs.NormalizedValues

/-!
# One range for all images

All images of a run are normalized with one range, which every image carries over from its own
channel. In one image the stretch is a function of the working value. Images of one channel have the
same function, so that values that meet at a border still meet after it. The range of images of
several channels mixes their units, and each image then stretches in its own way, unless the range
happens to be carried to the same place.
-/
namespace TilePyramid

open ExactArith

/-- The colour value in a band of the pixel at an index. -/
def Raster.colourAt? {σ : Type} (r : Raster σ) (i band : Nat) : Option σ :=
  r.pixels[i]?.bind fun p => p.colour[band]?

namespace Adjustments

section
variable {σ : Type} [Arith σ]

/-- The adjustments up to the stretch. -/
def unstretched (a : Adjustments σ) : Adjustments σ := { a with normalize := none }

/-- In one image the stretch is a function of the working value. -/
theorem colourAt?_apply (a : Adjustments σ) (r : Raster σ) (target : Target σ) (i band : Nat) :
    (a.apply r target).colourAt? i band =
      ((a.unstretched.apply r target).colourAt? i band).map
        (a.stretched r.channel target.channel) := by
  have hpixel (p : Pixel σ) : a.pixel r.channel r.bands target p =
      (a.unstretched.pixel r.channel r.bands target p).mapColour
        (a.stretched r.channel target.channel) := by
    simp only [pixel, Pixel.mapColour, List.map_map]
    rfl
  simp only [Raster.colourAt?, apply_eq, Array.getElem?_map]
  cases r.pixels[i]? with
  | none => rfl
  | some p => simp only [Option.map_some, Option.bind_some, hpixel, Pixel.mapColour,
      List.getElem?_map]

/-- Values of two images that are equal before the stretch are equal after it. -/
def Alike (a : Adjustments σ) (work : Channel) (one other : Raster σ) : Prop :=
  ∀ (nodata nodata' : Option σ) (i band j band' : Nat) (v : σ),
    (a.unstretched.apply one ⟨work, nodata⟩).colourAt? i band = some v →
      (a.unstretched.apply other ⟨work, nodata'⟩).colourAt? j band' = some v →
        (a.apply one ⟨work, nodata⟩).colourAt? i band =
          (a.apply other ⟨work, nodata'⟩).colourAt? j band'

theorem alike_of_stretched {a : Adjustments σ} {work : Channel} {one other : Raster σ}
    (h : (a.stretched one.channel work : σ → σ) = a.stretched other.channel work) :
    a.Alike work one other := by
  intro nodata nodata' i band j band' v hone hother
  rw [colourAt?_apply a, colourAt?_apply a, hone, hother, h]

end
end Adjustments

variable {σ : Type} [Arith σ]

/-- The range that is stretched in effect. One without extent changes nothing, as the range of the
whole channel would. -/
def ValueRange.orWhole (work : Channel) (r : ValueRange σ) : ValueRange σ :=
  if r.hi ≤ r.lo then ⟨work.least, work.greatest⟩ else r

variable [ExactRounding σ]

namespace Raster

variable {work : Channel}

theorem extent_orWhole (r : ValueRange σ) : ¬ (r.orWhole work).hi ≤ (r.orWhole work).lo := by
  rw [ValueRange.orWhole]
  split
  · rw [le_iff, Channel.greatest, Channel.least, value_ofInt, value_ofInt, not_le]
    exact_mod_cast work.bounds_lt
  · next h => exact h

theorem stretch_whole (v : σ) : stretchValue work ⟨work.least, work.greatest⟩ v = v := by
  have hbounds : (work.bounds.2 - work.bounds.1 : Rat) ≠ 0 :=
    sub_ne_zero.mpr (by exact_mod_cast work.bounds_lt.ne')
  apply value_injective (α := σ)
  rw [value_stretch, Channel.least, Channel.greatest, value_ofInt, value_ofInt, div_self hbounds]
  ring

theorem stretch_inj {r : ValueRange σ} (h : ¬ r.hi ≤ r.lo) {v w : σ} :
    stretchValue work r v = stretchValue work r w ↔ v = w := by
  refine ⟨fun hvw => ?_, congrArg _⟩
  have hextent := extent_pos h
  have hbounds : (0 : Rat) < work.bounds.2 - work.bounds.1 :=
    sub_pos.mpr (by exact_mod_cast work.bounds_lt)
  have hgain := (div_pos hbounds hextent).ne'
  have hvalue := congrArg (value (α := σ)) hvw
  rw [value_stretch, value_stretch, add_left_inj, mul_left_inj' hgain, sub_left_inj] at hvalue
  exact value_injective hvalue

theorem stretch_eq_iff {r s : ValueRange σ} (hr : ¬ r.hi ≤ r.lo) (hs : ¬ s.hi ≤ s.lo) :
    (∀ v, stretchValue work r v = stretchValue work s v) ↔ r = s := by
  refine ⟨fun h => ?_, fun h v => congrArg (stretchValue work · v) h⟩
  obtain ⟨hrlo, hrhi⟩ := stretch_ends work hr
  obtain ⟨hslo, hshi⟩ := stretch_ends work hs
  -- The ends of a range are where its stretch reaches the ends of the channel.
  have hlo : r.lo = s.lo := (stretch_inj hs).mp ((h r.lo).symm.trans (hrlo.trans hslo.symm))
  have hhi : r.hi = s.hi := (stretch_inj hs).mp ((h r.hi).symm.trans (hrhi.trans hshi.symm))
  cases r
  cases s
  exact (ValueRange.mk.injEq ..).mpr ⟨hlo, hhi⟩

end Raster

namespace Adjustments

variable {a : Adjustments σ} {range : ValueRange σ}

theorem stretched_eq_clamp (hrange : a.normalize = some range) (source work : Channel) {v : σ}
    (hv : work.clamp v = v) :
    a.stretched source work v =
      work.clamp (Raster.stretchValue work ((a.workingRange source work range).orWhole work) v) := by
  simp only [stretched, hrange, ValueRange.orWhole]
  split
  · rw [Raster.stretch_whole, hv]
  · rfl

/-- Normalization of several images with the range that was scanned. In every image the stretch is a
function of the working value. It is the same in images of one channel, and in images that carry the
range to the same place; before values are cut, it is the same only then. -/
theorem normalized_alike {α : Type} {sources : List (Source α σ)}
    (hrange : a.normalize = Source.scan sources none) (work : Channel) :
    (∀ s ∈ sources, ∀ (nodata : Option σ) (i band : Nat),
      (a.apply s.raster ⟨work, nodata⟩).colourAt? i band =
        ((a.unstretched.apply s.raster ⟨work, nodata⟩).colourAt? i band).map
          (a.stretched s.raster.channel work)) ∧
    (∀ s ∈ sources, ∀ t ∈ sources, s.raster.channel = t.raster.channel →
      a.Alike work s.raster t.raster) ∧
    ∀ range ∈ Source.scan sources none,
      let carried (s : Source α σ) := a.workingRange s.raster.channel work range
      (∀ s ∈ sources, ∀ v, work.clamp v = v → a.stretched s.raster.channel work v =
        work.clamp (Raster.stretchValue work ((carried s).orWhole work) v)) ∧
      ∀ s ∈ sources, ∀ t ∈ sources,
        (carried s = carried t → a.Alike work s.raster t.raster) ∧
        ((∀ v, Raster.stretchValue work ((carried s).orWhole work) v =
            Raster.stretchValue work ((carried t).orWhole work) v) ↔
          (carried s).orWhole work = (carried t).orWhole work) := by
  refine ⟨fun s _ nodata i band => a.colourAt?_apply ..,
    fun s _ t _ hchannel => alike_of_stretched (by rw [hchannel]), fun range hscan => ?_⟩
  have hrange := hrange.trans hscan
  refine ⟨fun s _ v hv => stretched_eq_clamp hrange _ work hv, fun s _ t _ => ⟨fun hcarried => ?_,
    Raster.stretch_eq_iff (Raster.extent_orWhole _) (Raster.extent_orWhole _)⟩⟩
  have hstretched : (a.stretched s.raster.channel work : σ → σ) =
      a.stretched t.raster.channel work := by
    funext v
    simp only [stretched, hrange, hcarried]
  exact alike_of_stretched hstretched

/-- An image of 8 bits and one of 16 carry a range over 16 bits to the same range of 16 bits. -/
theorem normalized_alike_wider :
    let dark : Source Rat Rat := ⟨"dark", Raster.grey .u8 0, none, none⟩
    let bright : Source Rat Rat := ⟨"bright", Raster.grey .u16 65535, none, none⟩
    let a : Adjustments Rat := ⟨none, some ⟨0, 65535⟩, none⟩
    a.normalize = Source.scan [dark, bright] none ∧ a.Alike .u16 dark.raster bright.raster := by
  intro dark bright a
  have hscan : a.normalize = Source.scan [dark, bright] none := by decide +kernel
  have hcarried : a.workingRange .u8 .u16 ⟨0, 65535⟩ = a.workingRange .u16 .u16 ⟨0, 65535⟩ := by
    decide +kernel
  obtain ⟨-, -, hrange⟩ := normalized_alike hscan .u16
  obtain ⟨-, halike⟩ := hrange ⟨0, 65535⟩ hscan.symm
  exact ⟨hscan, (halike dark (by simp) bright (by simp)).1 hcarried⟩

/-- White of 8 bits and white of 16 bits are both white in a run of 8 bits. Normalized with the
range of all images, the first turns almost black and the second stays white. -/
theorem normalized_seam :
    let dark : Source Rat Rat := ⟨"dark", Raster.grey .u8 0, none, none⟩
    let white : Source Rat Rat := ⟨"white", Raster.grey .u8 255, none, none⟩
    let bright : Source Rat Rat := ⟨"bright", Raster.grey .u16 65535, none, none⟩
    let a : Adjustments Rat := ⟨none, Source.scan [dark, white, bright] none, none⟩
    ¬ ∀ s ∈ [dark, white, bright], ∀ t ∈ [dark, white, bright],
      a.Alike .u8 s.raster t.raster := by
  intro dark white bright a halike
  have hworking : (a.unstretched.apply white.raster ⟨.u8, none⟩).colourAt? 0 0 = some 255 ∧
      (a.unstretched.apply bright.raster ⟨.u8, none⟩).colourAt? 0 0 = some 255 := by decide +kernel
  have hstretched : (a.apply white.raster ⟨.u8, none⟩).colourAt? 0 0 = some 1 ∧
      (a.apply bright.raster ⟨.u8, none⟩).colourAt? 0 0 = some 255 := by decide +kernel
  have hsame := halike white (by simp) bright (by simp) none none 0 0 0 0 255 hworking.1 hworking.2
  rw [hstretched.1, hstretched.2] at hsame
  exact absurd hsame (by decide)

end Adjustments
end TilePyramid
