import TilePyramid.Mosaic.Resolution
import Mathlib

/-!
# Real coordinates

Coordinates may be real numbers. Lengths and logarithms are not rounded then either. How a
coordinate is written and which projections there are is left open.
-/
namespace TilePyramid

/-- The spelling of coordinates and the projections that can be asked for. -/
class RealMaps extends NumberText ℝ where
  projector : String → Datum ℝ → Except GeorefFault (Projector ℝ)

noncomputable section

/-- Quotients of real numbers are those of the field. -/
instance divReal : Div ℝ := inferInstance

instance : Arith ℝ where
  decLt := inferInstance
  decLe := inferInstance
  ofInt n := n
  floor x := ⌊x⌋
  ceil x := ⌈x⌉
  round x := if x < 0 then ⌈x - 1 / 2⌉ else ⌊x + 1 / 2⌋
  toInt x := max (-2 ^ 63) (min (2 ^ 63 - 1) (if x < 0 then ⌈x⌉ else ⌊x⌋))
  isFinite _ := true

instance [RealMaps] : Cartography ℝ where
  pi := Real.pi
  hypot x y := √(x ^ 2 + y ^ 2)
  log2 := Real.logb 2
  projector := RealMaps.projector

end

@[simp] theorem ofInt_real (n : Int) : (ofInt n : ℝ) = n := rfl

@[simp] theorem isFinite_real (x : ℝ) : Arith.isFinite x = true := rfl

theorem lesser_eq_min (a b : ℝ) : Arith.lesser a b = min a b := by
  rw [Arith.lesser, if_pos (beq_self_eq_true a)]
  by_cases h : b < a
  · rw [if_pos h, min_eq_right h.le]
  · rw [if_neg h, min_eq_left (not_lt.mp h)]

theorem toInt_intCast (n : ℤ) : Arith.toInt (n : ℝ) = max (-2 ^ 63) (min (2 ^ 63 - 1) n) := by
  change max (-2 ^ 63) (min (2 ^ 63 - 1) (if (n : ℝ) < 0 then ⌈(n : ℝ)⌉ else ⌊(n : ℝ)⌋)) = _
  rw [Int.ceil_intCast, Int.floor_intCast, ite_self]

/-- Maps without projections, on which no number is written. -/
@[reducible] def RealMaps.unprojected : RealMaps where
  plain _ := ""
  described _ := ""
  metadata _ := ""
  projector definition _ := .error (.badProjection definition .unknown)

section degrees
variable [RealMaps]

namespace GeoReference

theorem exists_ofSteps {stepX stepY : ℝ} (hx : stepX ≠ 0) (hy : stepY ≠ 0) (x y : ℝ) :
    ∃ g, ofDegrees (.steps stepX stepY x y) .wgs84 = .ok g := by
  have hdegrees : isDegreesDefinition (Text.trim degreesDefinition) = true := by decide +kernel
  have hdet : (Affine.steps stepX stepY x y).determinant ≠ 0 := by
    simpa [Affine.determinant, Affine.steps] using mul_ne_zero hx hy
  simp [ofDegrees, make, Affine.inverse?, hdet, hdegrees]

theorem exists_globe {cols rows : Nat} (hcols : cols ≠ 0) (hrows : rows ≠ 0) :
    ∃ g : GeoReference ℝ, ofGlobe cols rows = .ok g := by
  have hsize : ¬ (decide (cols = 0) || decide (rows = 0)) = true := by simp [hcols, hrows]
  have hwidth : (globe : DegreeBox ℝ).east - (globe : DegreeBox ℝ).west ≠ 0 := by
    simp only [globe, ofInt_real]
    norm_num
  have hheight : (globe : DegreeBox ℝ).south - (globe : DegreeBox ℝ).north ≠ 0 := by
    simp only [globe, ofInt_real]
    norm_num
  rw [ofGlobe, ofBounds, if_neg hsize]
  apply exists_ofSteps
  · apply div_ne_zero hwidth
    rw [ofInt_real]
    exact_mod_cast hcols
  · apply div_ne_zero hheight
    rw [ofInt_real]
    exact_mod_cast hrows

end GeoReference

theorem OutputMode.exists_canvas {m : OutputMode} (hm : m ≠ .gmap) {cols rows : Int}
    (hcols : 0 < cols) (hrows : 0 < rows) :
    ∃ canvas : GeoReference ℝ, m.canvas cols rows = .ok canvas := by
  have hsize : ¬ (decide (cols ≤ 0) || decide (rows ≤ 0)) = true := by
    simp [hcols, hrows]
  have hcanvas {span : Int} (hspan : span ≠ 0) (north : Int) :
      ∃ canvas : GeoReference ℝ, degreeCanvas span north cols rows = .ok canvas := by
    apply GeoReference.exists_ofSteps
    · rw [ofInt_real, ofInt_real]
      exact div_ne_zero (by norm_num) (by exact_mod_cast hcols.ne')
    · rw [ofInt_real, ofInt_real]
      exact div_ne_zero (by exact_mod_cast neg_ne_zero.mpr hspan) (by exact_mod_cast hrows.ne')
  rw [canvas.eq_def, if_neg hsize]
  cases m with
  | gmap => exact absurd rfl hm
  | plain | kml | tms | gigapan | uniview | celestia => exact hcanvas (by decide) _

end degrees

end TilePyramid
