import TilePyramid.Proofs.SampledMeans

/-!
# Beyond the edge of an image

An image is continued past its edge by nothing, by its edge pixels, or by its own columns. Moving a
position to the image first is the same as repeating the edge pixels, for at the edge nothing beyond
counts; and an image without a clear pixel stays so when it is continued by its pixels. Continued by
its own columns, an image repeats itself at every multiple of its width, as long as the pixels that
are read are indices of 64 bits.
-/
namespace TilePyramid

open ExactArith

namespace EdgeMode

theorem place?_constant {width height : Nat} (hw : 0 < width) (hh : 0 < height) (x y : Int) :
    constant.place? width height x y =
      zero.place? width height (clampIndex width x) (clampIndex height y) := by
  have hinside : 0 ≤ clampIndex width x ∧ clampIndex width x < width ∧
      0 ≤ clampIndex height y ∧ clampIndex height y < height := by
    simp only [clampIndex]
    omega
  rw [place?, place?, if_pos hinside]

theorem place?_cylindrical_add (width height : Nat) (x y n : Int) :
    cylindrical.place? width height (x + n * width) y = cylindrical.place? width height x y := by
  have hturn : (x + n * width).emod width = x.emod width := Int.add_mul_emod_self_right ..
  rw [place?, place?, hturn]

theorem exists_place?_eq_some {edge : EdgeMode} (hedge : edge ≠ .zero) {width height : Nat}
    (hw : 0 < width) (hh : 0 < height) (x y : Int) :
    ∃ px py, edge.place? width height x y = some (px, py) ∧ px < width ∧ py < height := by
  have hrow : (clampIndex height y).toNat < height := by
    rw [clampIndex]
    omega
  cases edge with
  | zero => exact absurd rfl hedge
  | constant =>
    refine ⟨_, _, rfl, ?_, hrow⟩
    rw [clampIndex]
    omega
  | cylindrical =>
    refine ⟨_, _, rfl, ?_, hrow⟩
    have hpos : (0 : Int) < width := by exact_mod_cast hw
    have hnonneg : 0 ≤ x.emod width := Int.emod_nonneg x hpos.ne'
    have hlt : x.emod width < width := Int.emod_lt_of_pos x hpos
    omega

end EdgeMode

section indices

variable {g : Int → Rat} {size : Nat} {s : Rat}

private theorem neighbourMean_of_moved {n : Int} (h : clampIndex size (cutIndex ⌊s⌋) = n)
    (hnext : Int.fract s = 0 ∨ clampIndex size (nextIndex (cutIndex ⌊s⌋)) = n) :
    neighbourMean (fun i => g (clampIndex size i)) s = g n := by
  rw [← neighbourMean_const (g n) s]
  apply neighbourMean_congr
  · exact congrArg g h
  · exact hnext.imp_right (congrArg g)

private theorem neighbourMean_before (h : s ≤ 0) :
    neighbourMean (fun i => g (clampIndex size i)) s = g 0 := by
  have hfloor : ⌊s⌋ ≤ 0 := by exact_mod_cast (Int.floor_le s).trans h
  apply neighbourMean_of_moved
  · rw [clampIndex, cutIndex]
    omega
  · -- Only the first centre itself has its next neighbour past it, and there it has no weight.
    rcases hfloor.lt_or_eq with hlt | hzero
    · right
      rw [nextIndex_cutIndex (by omega), clampIndex, cutIndex]
      omega
    · left
      have hsame : s = 0 := h.antisymm (Int.floor_nonneg.mp hzero.ge)
      rw [hsame, Int.fract_zero]

private theorem neighbourMean_past (hsize : size ≤ 2 ^ 63) (h : ((size - 1 : Int) : Rat) ≤ s)
    (hnext : ⌊s⌋ < 2 ^ 63 - 1) (hpos : 0 < size) :
    neighbourMean (fun i => g (clampIndex size i)) s = g (size - 1) := by
  have hfloor : (size - 1 : Int) ≤ ⌊s⌋ := Int.le_floor.mpr h
  apply neighbourMean_of_moved
  · rw [clampIndex, cutIndex]
    omega
  · right
    rw [nextIndex_cutIndex hnext, clampIndex, cutIndex]
    omega

private theorem neighbourMean_inside (hsize : size ≤ 2 ^ 63) (hlo : 0 ≤ s)
    (hhi : s ≤ ((size - 1 : Int) : Rat)) :
    neighbourMean (fun i => g (clampIndex size i)) s = neighbourMean g s := by
  have hfirst : 0 ≤ ⌊s⌋ := Int.floor_nonneg.mpr hlo
  have hlast : ⌊s⌋ ≤ (size - 1 : Int) := by exact_mod_cast (Int.floor_le s).trans hhi
  have hcut : cutIndex ⌊s⌋ = ⌊s⌋ := cutIndex_eq_self (by omega) (by omega)
  apply neighbourMean_congr
  · rw [hcut]
    congr 1
    rw [clampIndex]
    omega
  · rcases hlast.lt_or_eq with hlt | hend
    · right
      rw [nextIndex_cutIndex (by omega), hcut]
      congr 1
      rw [clampIndex]
      omega
    · left
      have hsame : s = ((size - 1 : Int) : Rat) := by
        apply hhi.antisymm
        rw [← hend]
        exact Int.floor_le s
      rw [hsame, Int.fract_intCast]

theorem neighbourMean_clampIndex (g : Int → Rat) (hpos : 0 < size) (hsize : size ≤ 2 ^ 63)
    {q : Rat} (hnext : ⌊snapped q⌋ < 2 ^ 63 - 1) :
    neighbourMean (fun i => g (clampIndex size i)) (snapped q) =
      neighbourMean g (snapped (max ((0 : Int) : Rat) (min ((size - 1 : Int) : Rat) q))) := by
  have hside : ((0 : Int) : Rat) ≤ ((size - 1 : Int) : Rat) := Int.cast_le.mpr (by omega)
  rcases le_total q ((0 : Int) : Rat) with hbefore | hstart
  · rw [max_eq_left ((min_le_right _ _).trans hbefore), snapped_intCast, neighbourMean_intCast,
      cutIndex_eq_self (by decide) (by decide)]
    exact neighbourMean_before (by simpa using snapped_le hbefore)
  · rcases le_total q ((size - 1 : Int) : Rat) with hin | hpast
    · rw [min_eq_right hin, max_eq_right hstart]
      exact neighbourMean_inside hsize (by simpa using le_snapped hstart) (snapped_le hin)
    · rw [min_eq_left hpast, max_eq_right hside, snapped_intCast, neighbourMean_intCast,
        cutIndex_eq_self (by omega) (by omega)]
      exact neighbourMean_past hsize (le_snapped hpast) hnext hpos

end indices

/-- The pixel before the position comes before the last index of 64 bits, so that the next pixel
has an index too. -/
def HasNextIndex {α : Type} [Arith α] [ExactArith α] (x : α) : Prop :=
  ⌊value (snap x)⌋ < 2 ^ 63 - 1

/-- Both pixels around the position have indices of 64 bits. -/
def HasIndex {α : Type} [Arith α] [ExactArith α] (x : α) : Prop :=
  -2 ^ 63 ≤ ⌊value (snap x)⌋ ∧ HasNextIndex x

namespace Raster

section means
variable {σ : Type} [Arith σ] {r : Raster σ}

theorem meanAt_constant (hne : r.isEmpty = false) (hwidth : r.width ≤ 2 ^ 63)
    (hheight : r.height ≤ 2 ^ 63) (f : Pixel σ → Rat) {x y : Rat} (hx : ⌊snapped x⌋ < 2 ^ 63 - 1)
    (hy : ⌊snapped y⌋ < 2 ^ 63 - 1) :
    r.meanAt .constant f (snapped x) (snapped y) =
      r.meanAt .zero f (snapped (max ((0 : Int) : Rat) (min ((r.width - 1 : Int) : Rat) x)))
        (snapped (max ((0 : Int) : Rat) (min ((r.height - 1 : Int) : Rat) y))) := by
  obtain ⟨hw, hh⟩ : 0 < r.width ∧ 0 < r.height := by
    simpa [isEmpty, Nat.pos_iff_ne_zero] using hne
  have hread (i j : Int) : r.readAt .constant f i j =
      r.readAt .zero f (clampIndex r.width i) (clampIndex r.height j) := by
    rw [readAt, readAt, EdgeMode.place?_constant hw hh]
  simp only [meanAt, hread]
  -- The columns are moved to the image in each row first, and then the rows are.
  have hrow (j : Int) := neighbourMean_clampIndex (fun i => r.readAt .zero f i j) hw hwidth hx
  simp only [hrow]
  exact neighbourMean_clampIndex (fun j => neighbourMean (fun i => r.readAt .zero f i j) _) hh
    hheight hy

theorem meanAt_cylindrical_add {x : Rat} {n : Int} (hlo : -2 ^ 63 ≤ ⌊x⌋)
    (hhi : ⌊x⌋ < 2 ^ 63 - 1) (hmovedLo : -2 ^ 63 ≤ ⌊x⌋ + n * r.width)
    (hmovedHi : ⌊x⌋ + n * r.width < 2 ^ 63 - 1) (f : Pixel σ → Rat) (y : Rat) :
    r.meanAt .cylindrical f (x + (n * r.width : Int)) y = r.meanAt .cylindrical f x y := by
  have hrow (j : Int) : neighbourMean (fun i => r.readAt .cylindrical f i j)
      (x + (n * r.width : Int)) = neighbourMean (fun i => r.readAt .cylindrical f i j) x := by
    apply neighbourMean_add_int _ hlo hhi hmovedLo hmovedHi
    intro i
    rw [readAt, readAt, EdgeMode.place?_cylindrical_add]
  simp only [meanAt, hrow]

theorem meanAt_of_forall (hr : r.WellFormed) (hne : r.isEmpty = false) {edge : EdgeMode}
    (hedge : edge ≠ .zero) {f : Pixel σ → Rat} {v : Rat} (h : ∀ p ∈ r.pixels, f p = v)
    (x y : Rat) : r.meanAt edge f x y = v := by
  obtain ⟨hw, hh⟩ : 0 < r.width ∧ 0 < r.height := by
    simpa [isEmpty, Nat.pos_iff_ne_zero] using hne
  have hread (i j : Int) : r.readAt edge f i j = v := by
    obtain ⟨px, py, hplace, hpx, hpy⟩ := EdgeMode.exists_place?_eq_some hedge hw hh i j
    have hlt : py * r.width + px < r.pixels.size := hr.1 ▸ gridIndex_lt hpx hpy
    rw [readAt, hplace, Option.elim_some]
    apply h
    rw [pixel, pixel?, Array.getElem?_eq_getElem hlt]
    exact Array.getElem_mem hlt
  simp only [meanAt, hread, neighbourMean_const]

end means

section edges
variable {α σ : Type} [Arith α] [ExactRounding α] [SaturatingIndex α] [Arith σ] [ExactArith σ]
  [Narrow α σ] [ExactNarrow α σ] {r : Raster σ}

omit [ExactArith σ] [Narrow α σ] [ExactNarrow α σ] [Arith σ] [SaturatingIndex α] in
private theorem value_clamp_index {size : Nat} (hpos : 0 < size) (v : α) :
    value (Arith.clamp (ofInt 0) (ofInt (size - 1)) v) =
      max ((0 : Int) : Rat) (min ((size - 1 : Int) : Rat) (value v)) := by
  have hle : value (ofInt 0 : α) ≤ value (ofInt (size - 1) : α) := by
    rw [value_ofInt, value_ofInt]
    exact Int.cast_le.mpr (by omega)
  rw [TilePyramid.value_clamp hle, value_ofInt, value_ofInt]

theorem alpha_sample_of_full (hr : r.WellFormed) (hne : r.isEmpty = false)
    (hfull : ∀ p ∈ r.pixels, p.alpha = r.channel.opaqueAlpha) {edge : EdgeMode}
    (hedge : edge ≠ .zero) (x y : α) : (r.sample edge x y).alpha = r.channel.opaqueAlpha := by
  obtain ⟨sum, hsample, -, hweight, -⟩ := r.exists_sums_of_sample hr hne edge x y
  rw [hsample]
  apply value_injective
  refine hweight.trans (meanAt_of_forall hr hne hedge ?_ _ _)
  intro p hp
  rw [hfull p hp]

/-- The three ways to continue an image, at positions where the next pixel has an index too. Its
own columns come again after every whole number of widths, between positions whose pixels have
indices of 64 bits. Its edge pixels are what is at the nearest position on it. By either of the two
an opaque image is opaque everywhere. -/
theorem sample_edges (hr : r.WellFormed) (hne : r.isEmpty = false) (hwidth : r.width ≤ 2 ^ 63)
    (hheight : r.height ≤ 2 ^ 63) :
    (∀ (x y : α) (n : Int), HasIndex x → HasIndex (x + ofInt (n * r.width)) → HasNextIndex y →
        r.sample .cylindrical (x + ofInt (n * r.width)) y = r.sample .cylindrical x y) ∧
      (∀ x y : α, HasNextIndex x → HasNextIndex y → r.sample .constant x y =
        r.sample .zero (Arith.clamp (ofInt 0) (ofInt (r.width - 1)) x)
          (Arith.clamp (ofInt 0) (ofInt (r.height - 1)) y)) ∧
      ((∀ p ∈ r.pixels, p.alpha = r.channel.opaqueAlpha) → ∀ x y : α,
        HasNextIndex x → HasNextIndex y → (r.sample .constant x y).alpha = r.channel.opaqueAlpha ∧
          (r.sample .cylindrical x y).alpha = r.channel.opaqueAlpha) := by
  obtain ⟨hw, hh⟩ : 0 < r.width ∧ 0 < r.height := by
    simpa [isEmpty, Nat.pos_iff_ne_zero] using hne
  refine ⟨?_, ?_, ?_⟩
  · intro x y n hx hmoved _
    rw [HasIndex, HasNextIndex, value_snap] at hx hmoved
    rw [value_add, value_ofInt, snapped_add_int, Int.floor_add_intCast] at hmoved
    apply r.sample_eq_of_meanAt hr
    intro f
    rw [value_add, value_ofInt, snapped_add_int]
    exact meanAt_cylindrical_add hx.1 hx.2 hmoved.1 hmoved.2 f _
  · intro x y hx hy
    rw [HasNextIndex, value_snap] at hx hy
    apply r.sample_eq_of_meanAt hr
    intro f
    rw [value_clamp_index hw, value_clamp_index hh]
    exact meanAt_constant hne hwidth hheight f hx hy
  · intro hfull x y _ _
    constructor
    · exact alpha_sample_of_full hr hne hfull (by decide) x y
    · exact alpha_sample_of_full hr hne hfull (by decide) x y

/-- Three opaque pixels in a row. -/
def threeInRow : Raster Rat where
  width := 3
  height := 1
  bands := 1
  channel := .u8
  pixels := #[⟨[10], 255⟩, ⟨[20], 255⟩, ⟨[30], 255⟩]

theorem sample_edges_three :
    threeInRow.WellFormed ∧ threeInRow.isEmpty = false ∧ HasIndex (5 / 2 : Rat) ∧
      threeInRow.sample .cylindrical (-7 / 2 : Rat) (0 : Rat) =
        threeInRow.sample .cylindrical (5 / 2 : Rat) (0 : Rat) ∧
      threeInRow.sample .constant (-7 / 2 : Rat) (4 : Rat) =
        threeInRow.sample .zero (0 : Rat) (0 : Rat) ∧
      (threeInRow.sample .constant (-7 / 2 : Rat) (4 : Rat)).alpha = 255 := by
  have hr : threeInRow.WellFormed := by
    simp only [WellFormed]
    decide
  have hstart : HasIndex (5 / 2 : Rat) := by
    simp only [HasIndex, HasNextIndex]
    decide +kernel
  have hmoved : HasIndex (5 / 2 + ofInt (-2 * threeInRow.width) : Rat) := by
    simp only [HasIndex, HasNextIndex]
    decide +kernel
  have hnext : HasNextIndex (0 : Rat) ∧ HasNextIndex (-7 / 2 : Rat) ∧ HasNextIndex (4 : Rat) := by
    simp only [HasNextIndex]
    decide +kernel
  obtain ⟨hzero, hcolumn, hrow⟩ := hnext
  obtain ⟨hturns, hnearest, hfull⟩ :=
    sample_edges (α := Rat) hr (by decide) (by decide) (by decide)
  have hturned := hturns (5 / 2) 0 (-2) hstart hmoved hzero
  have hplace : (5 / 2 + ofInt (-2 * threeInRow.width) : Rat) = -7 / 2 := by decide +kernel
  have hcorner := hnearest (-7 / 2) 4 hcolumn hrow
  have hx : Arith.clamp (ofInt 0) (ofInt (threeInRow.width - 1)) (-7 / 2 : Rat) = 0 := by
    decide +kernel
  have hy : Arith.clamp (ofInt 0) (ofInt (threeInRow.height - 1)) (4 : Rat) = 0 := by
    decide +kernel
  rw [hplace] at hturned
  rw [hx, hy] at hcorner
  exact ⟨hr, by decide, hstart, hturned, hcorner, (hfull (by decide) (-7 / 2) 4 hcolumn hrow).1⟩

/-- Past the indices of 64 bits the columns do not come again: the last index stands for all. Nor
are the edge pixels repeated there, since the last index is followed by the first one. -/
theorem sample_cylindrical_ne_far :
    threeInRow.WellFormed ∧ threeInRow.isEmpty = false ∧
      (∀ p ∈ threeInRow.pixels, 0 ≤ p.alpha) ∧
      threeInRow.sample .cylindrical
          (2 + ofInt (-3333333333333333334 * threeInRow.width) : Rat) (0 : Rat) ≠
        threeInRow.sample .cylindrical (2 : Rat) (0 : Rat) ∧
      threeInRow.sample .constant (2 ^ 63 + 1 / 2 : Rat) (0 : Rat) ≠
        threeInRow.sample .zero
          (Arith.clamp (ofInt 0) (ofInt (threeInRow.width - 1)) (2 ^ 63 + 1 / 2 : Rat))
          (Arith.clamp (ofInt 0) (ofInt (threeInRow.height - 1)) (0 : Rat)) := by
  simp only [WellFormed]
  decide +kernel

end edges
end Raster
end TilePyramid
