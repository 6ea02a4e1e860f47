import TilePyramid.Proofs.Generation
import TilePyramid.Proofs.GridTransforms
import TilePyramid.Proofs.Turns

/-!
# Grids of degrees

In exact arithmetic a georeference without a projection labels pixels by steps that are the same
everywhere: a box within an image that is labelled linearly has the degrees of its corners, and the
boxes of four sibling cells fill the box of their parent with no point left out and none taken
twice.
-/
namespace TilePyramid

namespace DegreeBox

variable {α : Type} [Arith α]

/-- The point lies in the box; the west and the north edge belong to it. -/
def Mem (d : DegreeBox α) (lon lat : α) : Prop :=
  d.west ≤ lon ∧ lon < d.east ∧ d.south < lat ∧ lat ≤ d.north

/-- The degrees of a pixel box on a canvas with a full turn over its columns, and the latitudes
from `edge` down to `-edge` over its rows. -/
def onCanvas (edge : Int) (b : PixelBox) (cols rows : Int) : DegreeBox α where
  west := ofInt (-180) + ofInt 360 * ofInt b.minX / ofInt cols
  south := ofInt edge - ofInt (2 * edge) * ofInt b.maxY / ofInt rows
  east := ofInt (-180) + ofInt 360 * ofInt b.maxX / ofInt cols
  north := ofInt edge - ofInt (2 * edge) * ofInt b.minY / ofInt rows

end DegreeBox

section exact
variable {α : Type}

open ExactArith

theorem DegreeBox.mem_iff [Arith α] [ExactArith α] {d : DegreeBox α} {lon lat : α} :
    d.Mem lon lat ↔ value d.west ≤ value lon ∧ value lon < value d.east ∧
      value d.south < value lat ∧ value lat ≤ value d.north :=
  and_congr (le_iff _ _) (and_congr (lt_iff _ _) (and_congr (lt_iff _ _) (le_iff _ _)))

namespace GeoReference

variable [Cartography α]

/-- The corners of the pixel box lie at the corners of the box of degrees. -/
structure Spans (g : GeoReference α) (b : PixelBox) (d : DegreeBox α) : Prop where
  northWest : g.pixelToDegrees (ofInt b.minX, ofInt b.minY) = some (d.west, d.north)
  northEast : g.pixelToDegrees (ofInt b.maxX, ofInt b.minY) = some (d.east, d.north)
  southWest : g.pixelToDegrees (ofInt b.minX, ofInt b.maxY) = some (d.west, d.south)
  southEast : g.pixelToDegrees (ofInt b.maxX, ofInt b.maxY) = some (d.east, d.south)

theorem Spans.unique {g : GeoReference α} {b : PixelBox} {d d' : DegreeBox α} (h : g.Spans b d)
    (h' : g.Spans b d') : d = d' := by
  have hfirst := h.northWest.symm.trans h'.northWest
  have hlast := h.southEast.symm.trans h'.southEast
  rw [Option.some.injEq, Prod.mk.injEq] at hfirst hlast
  obtain ⟨west, south, east, north⟩ := d
  obtain ⟨west', south', east', north'⟩ := d'
  obtain ⟨rfl, rfl⟩ := hfirst
  obtain ⟨rfl, rfl⟩ := hlast
  rfl

/-- Degrees go by steps from an origin. -/
def IsGrid (g : GeoReference α) (stepX stepY originX originY : α) : Prop :=
  ∀ x y, g.pixelToDegrees (x, y) = some (stepX * x + originX, stepY * y + originY)

variable [ExactArith α] {stepX stepY originX originY : α} {g : GeoReference α}

theorem isGrid_ofDegrees {datum : Datum α}
    (h : ofDegrees (.steps stepX stepY originX originY) datum = .ok g) :
    g.IsGrid stepX stepY originX originY := by
  intro x y
  obtain ⟨htransform, hprojector⟩ := ofDegrees_eq_ok h
  simp only [pixelToDegrees, pointToDegrees, hprojector, pixelToPoint, htransform, Affine.steps,
    Affine.apply, Option.some.injEq, Prod.mk.injEq]
  constructor <;> apply value_injective <;> simp

theorem exists_ofDegrees_eq_ok (hx : value stepX ≠ 0) (hy : value stepY ≠ 0) (datum : Datum α) :
    ∃ g, ofDegrees (.steps stepX stepY originX originY) datum = .ok g := by
  have hdet : value (Affine.steps stepX stepY originX originY).determinant =
      value stepX * value stepY := by
    simp [Affine.determinant, Affine.steps]
  obtain ⟨g, hg, -⟩ := exists_ofDegrees (hdet.trans_ne (mul_ne_zero hx hy)) datum
  exact ⟨g, hg⟩

theorem IsGrid.spans (hg : g.IsGrid stepX stepY originX originY) {b : PixelBox} {d : DegreeBox α}
    (hwest : value d.west = value stepX * b.minX + value originX)
    (heast : value d.east = value stepX * b.maxX + value originX)
    (hnorth : value d.north = value stepY * b.minY + value originY)
    (hsouth : value d.south = value stepY * b.maxY + value originY) : g.Spans b d := by
  have hlon {n : Int} {lon : α} (h : value lon = value stepX * n + value originX) :
      stepX * ofInt n + originX = lon := value_injective (by simp [h])
  have hlat {n : Int} {lat : α} (h : value lat = value stepY * n + value originY) :
      stepY * ofInt n + originY = lat := value_injective (by simp [h])
  constructor <;> rw [hg]
  · rw [hlon hwest, hlat hnorth]
  · rw [hlon heast, hlat hnorth]
  · rw [hlon hwest, hlat hsouth]
  · rw [hlon heast, hlat hsouth]

end GeoReference

/-- The latitude of the first row of a canvas in degrees. -/
def OutputMode.northEdge : OutputMode → Int
  | uniview | celestia => 90
  | _ => 180

variable [Cartography α] [ExactArith α] {g : GeoReference α} {cols rows : Int}

theorem OutputMode.canvas_eq_ok {m : OutputMode} (hm : m ≠ .gmap) (h : m.canvas cols rows = .ok g) :
    0 < cols ∧ 0 < rows ∧ g.IsGrid (ofInt 360 / ofInt cols)
      (ofInt (-(2 * m.northEdge)) / ofInt rows) (ofInt (-180)) (ofInt m.northEdge) := by
  simp only [canvas] at h
  split at h
  · cases h
  · next hsize =>
    simp only [Bool.or_eq_true, decide_eq_true_iff, not_or, Int.not_le] at hsize
    refine ⟨hsize.1, hsize.2, ?_⟩
    cases m with
    | gmap => exact absurd rfl hm
    | plain | kml | tms | gigapan | uniview | celestia => exact GeoReference.isGrid_ofDegrees h

theorem OutputMode.spans_canvas {m : OutputMode} (hm : m ≠ .gmap) (h : m.canvas cols rows = .ok g)
    (b : PixelBox) : g.Spans b (.onCanvas m.northEdge b cols rows) := by
  obtain ⟨-, -, hg⟩ := canvas_eq_ok hm h
  apply hg.spans <;> simp only [DegreeBox.onCanvas, value_add, value_sub, value_mul, value_div,
    value_ofInt] <;> push_cast <;> ring

theorem GeoReference.exists_ofGlobe {cols rows : Nat} (hcols : 0 < cols) (hrows : 0 < rows) :
    ∃ (g : GeoReference α) (stepX stepY originX originY : α), ofGlobe cols rows = .ok g ∧
      g.IsGrid stepX stepY originX originY ∧ g.Spans (.ofImage cols rows) globe := by
  have hcols' : (cols : Rat) ≠ 0 := by exact_mod_cast hcols.ne'
  have hrows' : (rows : Rat) ≠ 0 := by exact_mod_cast hrows.ne'
  have hempty : ¬ (decide (cols = 0) || decide (rows = 0)) = true := by
    simp [hcols.ne', hrows.ne']
  have hx : value ((globe.east - globe.west : α) / ofInt cols) ≠ 0 := by
    simp only [globe, value_div, value_sub, value_ofInt]
    exact div_ne_zero (by norm_num) hcols'
  have hy : value ((globe.south - globe.north : α) / ofInt rows) ≠ 0 := by
    simp only [globe, value_div, value_sub, value_ofInt]
    exact div_ne_zero (by norm_num) hrows'
  obtain ⟨g, hg⟩ : ∃ g : GeoReference α, ofGlobe cols rows = .ok g := by
    simp only [ofGlobe, ofBounds, if_neg hempty]
    exact exists_ofDegrees_eq_ok hx hy _
  have hgrid := isGrid_ofDegrees ((if_neg hempty).symm.trans hg)
  refine ⟨g, _, _, _, _, hg, hgrid, ?_⟩
  apply hgrid.spans <;>
    simp only [globe, PixelBox.ofImage, PixelBox.ofSize, value_sub, value_div, value_ofInt,
      Int.cast_natCast, zero_add] <;> field_simp <;> norm_num

end exact

end TilePyramid
