import TilePyramid.Proofs.ExactArithmetic
import TilePyramid.Proofs.PixelWords
import Mathlib.Tactic.FieldSimp

/-!
# Transforms between grids of degrees

In exact arithmetic a georeference without a projection takes pixels to degrees by an affine map,
and its inverse takes them back. Two grids that differ in their origin alone count the same pixels
from another place: the transform between them moves every point by whole pixels, it comes back to
where it started, and the box of an image keeps its size.
-/
namespace TilePyramid

open ExactArith

/-- Exact arithmetic with lengths. -/
class ExactCartography (α : Type) [Cartography α] extends ExactRounding α where
  hypot_nonneg (x y : α) : 0 ≤ value (Cartography.hypot x y)
  hypot_zero : value (Cartography.hypot (ofInt 0 : α) (ofInt 0)) = 0

instance : ExactCartography Rat where
  hypot_nonneg _ _ := div_nonneg (Nat.cast_nonneg _) (Nat.cast_nonneg _)
  hypot_zero := by decide +kernel

section
variable {α : Type} [Arith α] [ExactArith α]

theorem add_ofInt_zero (v : α) : v + ofInt 0 = v := value_injective (by simp)

theorem sub_ofInt_zero (v : α) : v - ofInt 0 = v := value_injective (by simp)

theorem Affine.value_determinant (t : Affine α) :
    value t.determinant = value t.a * value t.e - value t.b * value t.d := by
  simp only [determinant, value_sub, value_mul]

theorem Affine.value_determinant_ne_zero {t t' : Affine α} (h : t.inverse? = some t') :
    value t.determinant ≠ 0 := by
  intro hzero
  have hsame : t.determinant = ofInt 0 := value_injective (hzero.trans (by simp))
  simp [inverse?, (beq_iff _ _).mpr hsame] at h

theorem Affine.exists_inverse {t : Affine α} (h : value t.determinant ≠ 0) :
    ∃ t', t.inverse? = some t' := by
  have hne : (t.determinant == ofInt 0) = false := by
    rw [Bool.eq_false_iff, ne_eq, beq_iff]
    intro hzero
    rw [hzero, value_ofInt, Int.cast_zero] at h
    exact h rfl
  simp only [inverse?, hne, ExactArith.isFinite]
  exact ⟨_, rfl⟩

end

section
variable {α : Type} [Arith α] [ExactRounding α]

theorem Affine.apply_inverse {t t' : Affine α} (h : t.inverse? = some t') (p : α × α) :
    t'.apply (t.apply p) = p ∧ t.apply (t'.apply p) = p := by
  have hne := value_determinant_ne_zero h
  have hdet := t.value_determinant
  simp only [inverse?] at h
  split at h
  · cases h
  · obtain rfl := Option.some.inj h
    constructor <;> apply Prod.ext <;> apply value_injective (α := α) <;>
      simp only [apply, value_add, value_mul, value_div, ExactRounding.value_neg, value_ofInt] <;>
      field_simp <;> rw [hdet] <;> push_cast <;> ring

end

variable {α : Type} [Cartography α]

namespace GeoReference

/-- A georeference without a projection, with the inverse of its affine map. -/
structure IsAffine (g : GeoReference α) : Prop where
  projector : g.projector = none
  inverse : g.transform.inverse? = some g.inverse

theorem make_eq_ok {definition : String} {datum : Datum α} {transform : Affine α}
    {g : GeoReference α} (h : make definition datum transform = .ok g) :
    g.transform = transform ∧ transform.inverse? = some g.inverse := by
  simp only [make] at h
  split at h
  · cases h
  · next inverse hinverse =>
    split at h
    · obtain rfl := Except.ok.inj h
      exact ⟨rfl, hinverse⟩
    · split at h
      · cases h
      · obtain rfl := Except.ok.inj h
        exact ⟨rfl, hinverse⟩

theorem exists_ofDegrees [ExactArith α] {transform : Affine α}
    (h : value transform.determinant ≠ 0) (datum : Datum α) :
    ∃ g, ofDegrees transform datum = .ok g ∧ g.isDegrees = true := by
  obtain ⟨inverse, hinverse⟩ := Affine.exists_inverse h
  have hdegrees : isDegreesDefinition (Text.trim degreesDefinition) = true := by decide +kernel
  rw [ofDegrees, make, hinverse]
  simp only [hdegrees, if_true]
  exact ⟨_, rfl, rfl⟩

theorem isAffine_make {definition : String} {datum : Datum α} {transform : Affine α}
    {g : GeoReference α} (h : make definition datum transform = .ok g)
    (hdegrees : g.isDegrees = true) : g.IsAffine := by
  obtain ⟨htransform, hinverse⟩ := make_eq_ok h
  exact ⟨Option.isNone_iff_eq_none.mp hdegrees, by rw [htransform, hinverse]⟩

theorem IsAffine.pixelToDegrees {g : GeoReference α} (hg : g.IsAffine) (p : α × α) :
    g.pixelToDegrees p = some (g.transform.apply p) := by
  rw [GeoReference.pixelToDegrees, pointToDegrees, hg.projector]
  rfl

theorem IsAffine.degreesToPixel [ExactRounding α] {g : GeoReference α} (hg : g.IsAffine)
    (p : α × α) : g.degreesToPixel (g.transform.apply p) = some p := by
  rw [GeoReference.degreesToPixel, degreesToPoint, hg.projector]
  exact congrArg some (Affine.apply_inverse hg.inverse p).1

end GeoReference

namespace GridTransform

/-- The target counts the pixels of the source from a place `k` columns and `l` rows away. -/
structure Shifts (t : GridTransform α) (k l : Int) : Prop where
  forward (x y : α) : t.forward (x, y) = some (x + ofInt k, y + ofInt l)
  reverse (x y : α) : t.reverse (x, y) = some (x - ofInt k, y - ofInt l)

/-- Two grids whose degrees agree after a shift. -/
theorem shifts_between [ExactRounding α] {source target : GeoReference α} {k l : Int}
    (hsource : source.IsAffine) (htarget : target.IsAffine)
    (hsame : ∀ x y, source.transform.apply (x, y) =
      target.transform.apply (x + ofInt k, y + ofInt l)) :
    (between source target).Shifts k l where
  forward x y := by
    simp only [forward, between, hsource.pixelToDegrees, hsame, Option.bind_eq_bind,
      Option.bind_some, htarget.degreesToPixel, add_ofInt_zero]
    rfl
  reverse x y := by
    have hback (v : α) (n : Int) : v = v - ofInt n + ofInt n := value_injective (by simp)
    simp only [reverse, between, htarget.pixelToDegrees, sub_ofInt_zero, Option.bind_eq_bind,
      Option.bind_some]
    rw [hback x k, hback y l, ← hsame, hsource.degreesToPixel, ← hback, ← hback]

theorem fault?_eq_none [ExactCartography α] {t : GridTransform α}
    (h : (t.forward (ofInt 0, ofInt 0)).bind t.reverse = some (ofInt 0, ofInt 0))
    (cols rows : Nat) : Placement.fault? t cols rows = none := by
  have hlimit : ¬ Placement.driftTolerance * Cartography.hypot (ofInt cols) (ofInt rows) <
      Cartography.hypot (ofInt 0 : α) (ofInt 0) := by
    rw [lt_iff, ExactCartography.hypot_zero, value_mul, not_lt]
    refine mul_nonneg ?_ (ExactCartography.hypot_nonneg _ _)
    simp [Placement.driftTolerance]
  rw [Placement.fault?, h, Option.filter_some]
  simp only [hlimit, decide_false, Bool.and_false, Bool.false_eq_true, if_false]

theorem Shifts.fault?_eq_none [ExactCartography α] {t : GridTransform α} {k l : Int}
    (h : t.Shifts k l) (cols rows : Nat) : Placement.fault? t cols rows = none := by
  refine GridTransform.fault?_eq_none ?_ cols rows
  rw [h.forward, Option.bind_some, h.reverse]
  congr 2 <;> exact value_injective (by simp)

namespace Extent

/-- The columns of an extent. -/
def columns (e : Extent α) : ValueRange α := ⟨e.minX, e.maxX⟩

/-- The rows of an extent. -/
def rows (e : Extent α) : ValueRange α := ⟨e.minY, e.maxY⟩

private theorem map_foldl_insert {side : Extent α → ValueRange α} {coordinate : α × α → α}
    (hstep : ∀ e p, (insert e p).map side = ValueRange.insert (e.map side) (coordinate p))
    (ps : List (α × α)) (e : Option (Extent α)) :
    (ps.foldl insert e).map side = (ps.map coordinate).foldl ValueRange.insert (e.map side) := by
  induction ps generalizing e with
  | nil => rfl
  | cons p ps ih => rw [List.foldl_cons, ih, hstep, List.map_cons, List.foldl_cons]

variable [ExactRounding α]

theorem isRangeOf_columns (ps : List (α × α)) :
    ValueRange.IsRangeOf ((ps.foldl insert none).map columns) (ps.map Prod.fst) := by
  rw [map_foldl_insert (fun e p => by cases e <;> rfl)]
  exact ValueRange.isRangeOf_foldl_insert _

theorem isRangeOf_rows (ps : List (α × α)) :
    ValueRange.IsRangeOf ((ps.foldl insert none).map rows) (ps.map Prod.snd) := by
  rw [map_foldl_insert (fun e p => by cases e <;> rfl)]
  exact ValueRange.isRangeOf_foldl_insert _

theorem pixels_ofInt {b : PixelBox} (hb : b.IsIndexed) :
    (⟨ofInt b.minX, ofInt b.minY, ofInt b.maxX, ofInt b.maxY⟩ : Extent α).pixels = b := by
  have htolerance : value (edgeTolerance : α) = 1 / 1000000 := by simp [edgeTolerance]
  have hfirst {n : Int} (hn : -2 ^ 63 ≤ n ∧ n < 2 ^ 63) :
      Arith.toInt (Arith.floor (ofInt n + edgeTolerance : α)) = n := by
    have hfloor : Arith.floor (ofInt n + edgeTolerance : α) = ofInt n := by
      apply value_injective
      rw [ExactRounding.value_floor, value_add, htolerance, value_ofInt, Int.cast_inj,
        Int.floor_eq_iff]
      constructor <;> linarith
    rw [hfloor, ExactRounding.toInt_ofInt n hn.1 hn.2]
  have hlast {n : Int} (hn : -2 ^ 63 ≤ n ∧ n < 2 ^ 63) :
      Arith.toInt (Arith.ceil (ofInt n - edgeTolerance : α)) = n := by
    have hceil : Arith.ceil (ofInt n - edgeTolerance : α) = ofInt n := by
      apply value_injective
      rw [ExactRounding.value_ceil, value_sub, htolerance, value_ofInt, Int.cast_inj,
        Int.ceil_eq_iff]
      constructor <;> linarith
    rw [hceil, ExactRounding.toInt_ofInt n hn.1 hn.2]
  simp only [PixelBox.IsIndexed, List.forall_mem_cons] at hb
  obtain ⟨hminX, hminY, hmaxX, hmaxY, -⟩ := hb
  rw [pixels, hfirst hminX, hfirst hminY, hlast hmaxX, hlast hmaxY]

end Extent

variable [ExactRounding α]

theorem isRangeOf_gridLine (start : Int) {size : Int} (hsize : 0 ≤ size) :
    ValueRange.IsRangeOf (some ⟨ofInt start, ofInt (start + size)⟩)
      (gridLine start size : List α) := by
  have hsteps : (0 : Rat) < (min (max size 1).toNat gridSteps : Nat) := by
    exact_mod_cast Nat.pos_of_ne_zero (by simp only [gridSteps]; omega)
  have hsize : (0 : Rat) ≤ size := by exact_mod_cast hsize
  simp only [gridLine, ValueRange.IsRangeOf, List.mem_map, List.mem_range, Nat.lt_succ_iff]
  refine ⟨⟨0, Nat.zero_le _, value_injective (by simp)⟩, ⟨_, le_rfl, value_injective ?_⟩, ?_⟩
  · simp only [value_add, value_div, value_mul, value_ofInt, Int.cast_natCast, Int.cast_add]
    field_simp
  · rintro _ ⟨i, hi, rfl⟩
    have hi : (i : Rat) ≤ (min (max size 1).toNat gridSteps : Nat) := by exact_mod_cast hi
    constructor <;> rw [le_iff] <;>
      simp only [value_add, value_div, value_mul, value_ofInt, Int.cast_natCast, Int.cast_add]
    · have hstep := div_nonneg (mul_nonneg hsize (Nat.cast_nonneg i)) hsteps.le
      linarith
    · have hstep := (div_le_iff₀ hsteps).mpr (mul_le_mul_of_nonneg_left hi hsize)
      linarith

omit [ExactRounding α] in
theorem mem_gridPoints (b : PixelBox) (x y : α) :
    (x, y) ∈ gridPoints b ↔ x ∈ gridLine b.minX b.width ∧ y ∈ gridLine b.minY b.height := by
  simp [gridPoints, and_comm]

theorem isRangeOf_gridPoints {b : PixelBox} (hb : b.isEmpty = false) :
    ValueRange.IsRangeOf (some ⟨ofInt b.minX, ofInt b.maxX⟩)
        ((gridPoints b : List (α × α)).map Prod.fst) ∧
      ValueRange.IsRangeOf (some ⟨ofInt b.minY, ofInt b.maxY⟩)
        ((gridPoints b : List (α × α)).map Prod.snd) := by
  obtain ⟨hw, hh⟩ := PixelBox.isEmpty_eq_false_iff.mp hb
  have hcolumns := isRangeOf_gridLine (α := α) b.minX (Int.sub_nonneg_of_le hw.le)
  have hrows := isRangeOf_gridLine (α := α) b.minY (Int.sub_nonneg_of_le hh.le)
  rw [add_sub_cancel] at hcolumns hrows
  constructor
  · refine hcolumns.congr fun x => ⟨fun hx => ?_, fun hx => ?_⟩
    · obtain ⟨p, hp, rfl⟩ := List.mem_map.mp hx
      exact ((mem_gridPoints b _ _).mp hp).1
    · exact List.mem_map_of_mem ((mem_gridPoints b x _).mpr ⟨hx, hrows.1⟩)
  · refine hrows.congr fun y => ⟨fun hy => ?_, fun hy => ?_⟩
    · obtain ⟨p, hp, rfl⟩ := List.mem_map.mp hy
      exact ((mem_gridPoints b _ _).mp hp).2
    · exact List.mem_map_of_mem ((mem_gridPoints b _ y).mpr ⟨hcolumns.1, hy⟩)

/-- Where every point has an image, a box is rounded from the least and the greatest coordinates of
the images of its grid points. -/
theorem exists_extent {t : GridTransform α} {f : α × α → α × α}
    (hf : ∀ p, t.forward p = some (f p)) {b : PixelBox} (hb : b.isEmpty = false) :
    ∃ e : Extent α, t.forwardBox b = e.pixels ∧
      ValueRange.IsRangeOf (some e.columns) ((gridPoints b).map fun p => (f p).1) ∧
      ValueRange.IsRangeOf (some e.rows) ((gridPoints b).map fun p => (f p).2) := by
  let images := (gridPoints b).map f
  have himages : ((gridPoints b).filterMap fun p =>
      (t.forward p).filter fun q => Arith.isFinite q.1 && Arith.isFinite q.2) = images := by
    refine (List.filterMap_congr fun p _ => ?_).trans (congrFun List.filterMap_eq_map _)
    simp [hf p, ExactArith.isFinite]
  have hcolumns := Extent.isRangeOf_columns images
  have hrows := Extent.isRangeOf_rows images
  rw [List.map_map] at hcolumns hrows
  cases he : images.foldl Extent.insert none with
  | none =>
    rw [he] at hcolumns
    have hnone : (gridPoints b : List (α × α)) = [] := List.map_eq_nil_iff.mp hcolumns
    have hfirst := (isRangeOf_gridPoints (α := α) hb).1.1
    rw [hnone] at hfirst
    cases hfirst
  | some e =>
    rw [he] at hcolumns hrows
    exact ⟨e, by simp only [forwardBox, himages, he], hcolumns, hrows⟩

theorem Shifts.forwardBox {t : GridTransform α} {k l : Int} (h : t.Shifts k l) {b : PixelBox}
    (hb : b.isEmpty = false) (hindexed : (b.translate k l).IsIndexed) :
    t.forwardBox b = b.translate k l := by
  have hmono (n : Int) (v w : α) (hvw : v ≤ w) : v + ofInt n ≤ w + ofInt n := by
    rw [le_iff, value_add, value_add]
    exact add_le_add_left ((le_iff v w).mp hvw) _
  have hsum (m n : Int) : (ofInt m + ofInt n : α) = ofInt (m + n) := value_injective (by simp)
  -- Each side of the extent is the range of its grid line, moved along with the points.
  obtain ⟨e, hbox, hcolumnsRange, hrowsRange⟩ := exists_extent (fun p => h.forward p.1 p.2) hb
  obtain ⟨hgridColumns, hgridRows⟩ := isRangeOf_gridPoints (α := α) hb
  have hcolumns := hcolumnsRange.unique (by
    simpa only [List.map_map, Function.comp_def] using hgridColumns.map (hmono k))
  have hrows := hrowsRange.unique (by
    simpa only [List.map_map, Function.comp_def] using hgridRows.map (hmono l))
  obtain ⟨minX, minY, maxX, maxY⟩ := e
  simp only [Extent.columns, Extent.rows, Option.some.injEq, ValueRange.mk.injEq, hsum]
    at hcolumns hrows
  obtain ⟨rfl, rfl⟩ := hcolumns
  obtain ⟨rfl, rfl⟩ := hrows
  exact hbox.trans (Extent.pixels_ofInt hindexed)

end GridTransform
theorem Placement.place_of_fault?_eq_none {σ : Type} [Arith σ] (input : PlacementInput α σ)
    {target : GeoReference α}
    (h : fault? (.between input.georef target) input.source.cols input.source.rows = none)
    (adjustments : Adjustments σ) :
    ∃ edge, (edge = .zero ∨ edge = .cylindrical) ∧
      let transform := GridTransform.between input.georef target
      let box := transform.forwardBox (.ofImage input.source.cols input.source.rows)
      let width := wrapIndex box.width
      let height := wrapIndex box.height
      place input target adjustments =
        if width ≤ 0 ∨ height ≤ 0 then
          .error (.reprojection (.degenerate input.source.name width height))
        else
          .ok
            { name := input.source.name
              image := adjustments.apply input.source.raster ⟨input.channel, input.nodata⟩
              transform := transform
              edge := edge
              shift := (ofInt 0, ofInt 0)
              box := box } := by
  have hedge (global : Bool) : ∃ edge, (edge = .zero ∨ edge = .cylindrical) ∧
      edgeAndShift input.source.name (.between input.georef target) global input.source.cols
        input.source.rows = .ok (edge, ofInt 0, ofInt 0) := by
    rw [edgeAndShift, h]
    cases global with
    | true => exact ⟨.cylindrical, .inr rfl, rfl⟩
    | false => exact ⟨.zero, .inl rfl, rfl⟩
  obtain ⟨edge, hmode, hedge⟩ := hedge (input.georef.isGlobal input.source.cols input.source.rows)
  refine ⟨edge, hmode, ?_⟩
  simp only [place, hedge]
  rfl

end TilePyramid
