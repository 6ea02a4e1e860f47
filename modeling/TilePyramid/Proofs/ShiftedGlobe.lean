import TilePyramid.Proofs.GridTransforms
import TilePyramid.Proofs.SampledMeans

/-!
# The globe, moved by a few pixels

An image that spans the globe may be a little off: its first pixel lies some columns and rows away
from the date line and the pole. The ends of longitude and latitude then lie just as far from the
edges of the image. Main statement: in exact arithmetic such an image counts as global exactly if
it is off by less than one column and less than one row.
-/
namespace TilePyramid

open ExactArith

/-- The steps of an image of the whole globe, from an origin `dx` columns before the date line and
`dy` rows before the pole. -/
def Affine.shiftedGlobe {α : Type} [Arith α] (cols rows : Nat) (dx dy : α) : Affine α :=
  .steps (ofInt 360 / ofInt cols) (ofInt (-180) / ofInt rows)
    (ofInt (-180) - dx * ofInt 360 / ofInt cols) (ofInt 90 + dy * ofInt 180 / ofInt rows)

section
variable {α : Type} [Arith α]

theorem magnitude_sub_lt_one_iff [ExactRounding α] (v edge : α) :
    Arith.magnitude (v - edge) < ofInt 1 ↔ |value v - value edge| < 1 := by
  rw [lt_iff, value_magnitude, value_sub, value_ofInt, Int.cast_one]

theorem Affine.value_determinant_shiftedGlobe [ExactArith α] {cols rows : Nat} (hcols : 0 < cols)
    (hrows : 0 < rows) (dx dy : α) :
    value (shiftedGlobe cols rows dx dy).determinant ≠ 0 := by
  have hcols : (cols : Rat) ≠ 0 := by exact_mod_cast hcols.ne'
  have hrows : (rows : Rat) ≠ 0 := by exact_mod_cast hrows.ne'
  simp [value_determinant, shiftedGlobe, steps, hcols, hrows]

theorem Affine.value_apply_shiftedGlobe [ExactArith α] (cols rows : Nat) (dx dy : α) (p : α × α) :
    value ((shiftedGlobe cols rows dx dy).apply p).1 =
        (value p.1 - value dx) * (360 / cols) - 180 ∧
      value ((shiftedGlobe cols rows dx dy).apply p).2 =
        90 - (value p.2 - value dy) * (180 / rows) := by
  constructor
  · simp [apply, shiftedGlobe, steps]
    ring
  · simp [apply, shiftedGlobe, steps]
    ring

end

namespace GeoReference

variable {α : Type} [Cartography α]

theorem projection_ofDegrees {transform : Affine α} {datum : Datum α} {g : GeoReference α}
    (h : ofDegrees transform datum = .ok g) : g.projection = degreesDefinition := by
  have htrim : Text.trim degreesDefinition = degreesDefinition := by decide +kernel
  have hdegrees : isDegreesDefinition degreesDefinition = true := by decide +kernel
  simp only [ofDegrees, make, htrim, hdegrees, if_true] at h
  split at h
  · cases h
  · obtain rfl := Except.ok.inj h
    rfl

variable [ExactRounding α]

theorem exists_degreesToPixel_shiftedGlobe {cols rows : Nat} (hcols : 0 < cols) (hrows : 0 < rows)
    {dx dy : α} {g : GeoReference α} (hg : g.IsAffine)
    (htransform : g.transform = .shiftedGlobe cols rows dx dy) (lon lat : Int) :
    ∃ p, g.degreesToPixel (ofInt lon, ofInt lat) = some p ∧
      value p.1 = value dx + (lon + 180) / 360 * cols ∧
      value p.2 = value dy + (90 - lat) / 180 * rows := by
  have hcols : (cols : Rat) ≠ 0 := by exact_mod_cast hcols.ne'
  have hrows : (rows : Rat) ≠ 0 := by exact_mod_cast hrows.ne'
  let p := g.inverse.apply (ofInt lon, ofInt lat)
  have hback : (Affine.shiftedGlobe cols rows dx dy).apply p = (ofInt lon, ofInt lat) := by
    rw [← htransform]
    exact (Affine.apply_inverse hg.inverse (ofInt lon, ofInt lat)).2
  obtain ⟨hx, hy⟩ := Affine.value_apply_shiftedGlobe cols rows dx dy p
  rw [hback, value_ofInt] at hx hy
  refine ⟨p, ?_, ?_, ?_⟩
  · simp [degreesToPixel, degreesToPoint, hg.projector, pointToPixel, p]
  · rw [hx]
    field_simp
    ring
  · rw [hy]
    field_simp
    ring

/-- An image of the globe that is off by some columns and rows is made from its steps, and counts as
global exactly if it is off by less than one of each. -/
theorem isGlobal_shiftedGlobe_iff {cols rows : Nat} (hcols : 0 < cols) (hrows : 0 < rows)
    (dx dy : α) (datum : Datum α) :
    ∃ g, ofDegrees (.shiftedGlobe cols rows dx dy) datum = .ok g ∧
      (g.isGlobal cols rows = true ↔ |value dx| < 1 ∧ |value dy| < 1) := by
  obtain ⟨g, hg, hdegrees⟩ :=
    exists_ofDegrees (Affine.value_determinant_shiftedGlobe hcols hrows dx dy) datum
  have haffine := isAffine_make hg hdegrees
  have hpixel := exists_degreesToPixel_shiftedGlobe hcols hrows haffine (make_eq_ok hg).1
  obtain ⟨left, hleft, hleftX, -⟩ := hpixel (-180) 0
  obtain ⟨right, hright, hrightX, -⟩ := hpixel 180 0
  obtain ⟨top, htop, -, htopY⟩ := hpixel 0 90
  obtain ⟨bottom, hbottom, -, hbottomY⟩ := hpixel 0 (-90)
  have hwest : value left.1 - value (ofInt 0 : α) = value dx := by simp [hleftX]
  have heast : value right.1 - value (ofInt cols : α) = value dx := by
    rw [hrightX, value_ofInt]
    push_cast
    ring
  have hnorth : value top.2 - value (ofInt 0 : α) = value dy := by simp [htopY]
  have hsouth : value bottom.2 - value (ofInt rows : α) = value dy := by
    rw [hbottomY, value_ofInt]
    push_cast
    ring
  refine ⟨g, hg, ?_⟩
  simp only [isGlobal, projection_ofDegrees hg, hleft, hright, htop, hbottom, beq_self_eq_true,
    Option.any_some, Bool.true_and, Bool.and_eq_true, decide_eq_true_eq, magnitude_sub_lt_one_iff,
    hwest, heast, hnorth, hsouth, and_self, and_assoc]

/-- An image of four columns and two rows is global when it is off by half a column and three
quarters of a row. -/
theorem isGlobal_shiftedGlobe_half :
    0 < 4 ∧ 0 < 2 ∧ ∃ g : GeoReference Rat,
      ofDegrees (.shiftedGlobe 4 2 (1 / 2) (-3 / 4)) .wgs84 = .ok g ∧ g.isGlobal 4 2 = true := by
  have hcols : 0 < 4 := by decide
  have hrows : 0 < 2 := by decide
  obtain ⟨g, hg, hglobal⟩ := isGlobal_shiftedGlobe_iff hcols hrows (1 / 2 : Rat) (-3 / 4) .wgs84
  have hdx : |value (1 / 2 : Rat)| < 1 := by
    show |(1 / 2 : Rat)| < 1
    norm_num
  have hdy : |value (-3 / 4 : Rat)| < 1 := by
    show |(-3 / 4 : Rat)| < 1
    norm_num [abs_lt]
  exact ⟨hcols, hrows, g, hg, hglobal.mpr ⟨hdx, hdy⟩⟩

end GeoReference
end TilePyramid
