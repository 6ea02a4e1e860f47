import TilePyramid.Proofs.DateLine
import TilePyramid.Proofs.Resolving
import Mathlib.Tactic.FieldSimp

/-!
# Turns of a canvas with an aspect ratio

A canvas in degrees has a full turn over its columns, and these are the pixels of the resolution
divided by the aspect ratio. Images are put on the canvas a second time one resolution to the left,
which is a turn only for square pixels. With any other aspect ratio there is no second copy, and
what lies past the end of the turn is lost.
-/
namespace TilePyramid

theorem GeoReference.ofDegrees_eq_ok {α : Type} [Cartography α] {transform : Affine α}
    {datum : Datum α} {g : GeoReference α} (h : ofDegrees transform datum = .ok g) :
    g.transform = transform ∧ g.projector = none := by
  have hdegrees : isDegreesDefinition (Text.trim degreesDefinition) = true := by decide +kernel
  simp only [ofDegrees, make, hdegrees, if_true] at h
  split at h
  · cases h
  · obtain rfl := Except.ok.inj h
    exact ⟨rfl, rfl⟩

theorem OutputMode.pixelToDegrees_turn {m : OutputMode} (hm : m ≠ .gmap) {turn rows : Int}
    {g : GeoReference Rat} (h : m.canvas turn rows = .ok g) (x y : Rat) :
    ∃ lon lat, g.pixelToDegrees (x, y) = some (lon, lat) ∧
      g.pixelToDegrees (x + turn, y) = some (lon + 360, lat) := by
  simp only [canvas] at h
  split at h
  · cases h
  · next hsize =>
    have hturn : (turn : Rat) ≠ 0 := by
      simp only [Bool.or_eq_true, decide_eq_true_iff, not_or, Int.not_le] at hsize
      exact_mod_cast hsize.1.ne'
    have hcanvas {span north : Int} (hg : degreeCanvas span north turn rows = .ok g) :
        ∃ lon lat, g.pixelToDegrees (x, y) = some (lon, lat) ∧
          g.pixelToDegrees (x + turn, y) = some (lon + 360, lat) := by
      obtain ⟨htransform, hprojector⟩ := GeoReference.ofDegrees_eq_ok hg
      have hsteps (p : Rat × Rat) : g.pixelToDegrees p =
          some (360 / turn * p.1 + 0 * p.2 + -180, 0 * p.1 + -span / rows * p.2 + north) := by
        simp only [GeoReference.pixelToDegrees, GeoReference.pointToDegrees, hprojector,
          GeoReference.pixelToPoint, htransform]
        simp [Affine.steps, Affine.apply, ofInt]
      refine ⟨_, _, hsteps (x, y), ?_⟩
      rw [hsteps]
      congr 2
      · field_simp
        ring
      · rw [zero_mul, zero_mul]
    cases m with
    | gmap => exact absurd rfl hm
    | plain | kml | tms | gigapan | uniview | celestia => exact hcanvas h

namespace PixelBox

/-- The column lies between the left and the right edge of the box. -/
def HasColumn (b : PixelBox) (x : Int) : Prop := b.minX ≤ x ∧ x < b.maxX

instance (b : PixelBox) (x : Int) : Decidable (b.HasColumn x) :=
  inferInstanceAs (Decidable (_ ∧ _))

theorem forall_hasColumn_of_next_iff {b : PixelBox} {turn : Int} (hleft : 0 ≤ b.minX)
    (hwidth : b.minX < b.maxX) (hright : b.maxX ≤ 2 * turn) :
    (∀ x, 0 ≤ x → x < turn → b.HasColumn (x + turn) → b.HasColumn x) ↔
      b.maxX ≤ turn ∨ b.minX = 0 := by
  constructor
  · intro hnext
    by_contra hnot
    -- The first column past the turn that the box has comes around to one that it has not.
    let x := max 0 (b.minX - turn)
    have hpast : b.HasColumn (x + turn) := by
      simp only [HasColumn, x]
      omega
    have hx : b.HasColumn x := hnext x (by omega) (by omega) hpast
    have hstart := hx.1
    omega
  · intro hcase x hx hlt hpast
    simp only [HasColumn] at hpast ⊢
    omega

end PixelBox

variable {α σ : Type}

/-- Some layer covers the column. -/
def CoversColumn (ls : List (Layer α σ)) (x : Int) : Prop := ∃ l ∈ ls, l.box.HasColumn x

theorem Layer.hasColumn_moved (p : Placement α σ) (d x y : Int) :
    (Layer.box ⟨p, p.box.minX - d, y⟩).HasColumn x ↔ p.box.HasColumn (x + d) := by
  simp only [Layer.box, PixelBox.ofSize, PixelBox.HasColumn, PixelBox.width]
  omega

/-- Whatever the width of the canvas is, its columns show those of the image at the same place and
one resolution further right. -/
theorem coversColumn_wrappedColumns (p : Placement α σ) (total : Int) {cols x : Int} (hx : 0 ≤ x)
    (hcols : x < cols) :
    CoversColumn ((Composite.wrappedColumns p.box total cols).map fun x => ⟨p, x, p.box.minY⟩) x ↔
      p.box.HasColumn x ∨ p.box.HasColumn (x + total) := by
  have hstill := Layer.hasColumn_moved p 0 x p.box.minY
  have hmoved := Layer.hasColumn_moved p total x p.box.minY
  rw [Int.sub_zero, Int.add_zero] at hstill
  have hpast (h : p.box.HasColumn (x + total)) : total < p.box.maxX := by
    have hright := h.2
    omega
  have hstart (h : p.box.HasColumn x) : p.box.minX < cols := h.1.trans_lt hcols
  simp only [CoversColumn, Composite.wrappedColumns, List.map_append, List.mem_append]
  constructor
  · rintro ⟨l, hl | hl, hcovers⟩
    · split at hl
      · simp only [List.map_cons, List.map_nil, List.mem_singleton] at hl
        rw [hl] at hcovers
        exact .inr (hmoved.mp hcovers)
      · cases hl
    · split at hl
      · simp only [List.map_cons, List.map_nil, List.mem_singleton] at hl
        rw [hl] at hcovers
        exact .inl (hstill.mp hcovers)
      · cases hl
  · rintro (h | h)
    · refine ⟨_, .inr ?_, hstill.mpr h⟩
      simp [hstart h]
    · refine ⟨_, .inl ?_, hmoved.mpr h⟩
      simp [hpast h]

theorem mem_wrappedColumns {b : PixelBox} {total cols x : Int}
    (h : x ∈ Composite.wrappedColumns b total cols) :
    (x = b.minX - total ∧ total < b.maxX) ∨ x = b.minX := by
  rcases List.mem_append.mp h with hx | hx
  · split at hx
    · next hpast => exact .inl ⟨List.mem_singleton.mp hx, hpast⟩
    · cases hx
  · split at hx
    · exact .inr (List.mem_singleton.mp hx)
    · cases hx

theorem two_mul_turn_le {aspect : Nat} {total turn : Int} (hturn : turn = total.tdiv aspect)
    (hpos : 1 ≤ turn) (haspect : 2 ≤ aspect) : 2 * turn ≤ total := by
  have htotal : 0 ≤ total := nonneg_of_tdiv_pos (k := aspect) (by omega)
  calc
    2 * turn ≤ aspect * turn := Int.mul_le_mul_of_nonneg_right (by omega) (by omega)
    _ = aspect * (total / aspect) := by rw [hturn, Int.tdiv_eq_ediv_of_nonneg htotal]
    _ ≤ total := Int.mul_ediv_self_le (by omega)

/-- What an image that lies on two turns covers of the canvas. Its layers are at its own place and
at places whole turns to the left of it, where a turn is what takes a canvas in degrees around. For
square pixels they cover the columns that the image has at their places or one turn further right.
With any other aspect ratio the columns past the first turn are left out, so that the law of the
square holds for images that have none of them, and for images that start at the first column. -/
theorem insertWrapped_columns (c : Composite α σ) {p : Placement α σ} {aspect : Nat}
    {total turn : Int} (haspect : 1 ≤ aspect) (hturn : turn = total.tdiv aspect) (hpos : 1 ≤ turn)
    (hleft : 0 ≤ p.box.minX) (hwidth : p.box.minX < p.box.maxX) (hright : p.box.maxX ≤ 2 * turn) :
    ∃ ls, (c.insertWrapped p total turn).layers = c.layers ++ ls ∧
      (∀ l ∈ ls, l.placement = p ∧ l.y = p.box.minY ∧ ∃ k : Int, l.x = p.box.minX - k * turn) ∧
      (∀ x, 0 ≤ x → x < turn →
        (CoversColumn ls x ↔
          p.box.HasColumn x ∨ (aspect = 1 ∧ p.box.HasColumn (x + turn)))) ∧
      ((∀ x, 0 ≤ x → x < turn →
          (CoversColumn ls x ↔ p.box.HasColumn x ∨ p.box.HasColumn (x + turn))) ↔
        aspect = 1 ∨ p.box.maxX ≤ turn ∨ p.box.minX = 0) ∧
      ∀ m ≠ OutputMode.gmap, ∀ g : GeoReference Rat, m.canvas turn total = .ok g →
        ∀ x y, ∃ lon lat, g.pixelToDegrees (x, y) = some (lon, lat) ∧
          g.pixelToDegrees (x + turn, y) = some (lon + 360, lat) := by
  refine ⟨_, c.layers_insertWrapped p total turn, ?_, ?_⟩
  · intro l hl
    obtain ⟨x, hx, rfl⟩ := List.mem_map.mp hl
    refine ⟨rfl, rfl, ?_⟩
    rcases mem_wrappedColumns hx with ⟨hmoved, hpast⟩ | hstill
    · have hone : aspect = 1 := by
        by_contra hne
        have htwo := two_mul_turn_le hturn hpos (by omega)
        omega
      rw [hone, Nat.cast_one, Int.tdiv_one] at hturn
      exact ⟨1, by rw [one_mul, hturn]; exact hmoved⟩
    · exact ⟨0, by rw [zero_mul, sub_zero]; exact hstill⟩
  have hcovers {x : Int} (hx : 0 ≤ x) (hlt : x < turn) :=
    coversColumn_wrappedColumns p total hx hlt
  rw [← and_assoc]
  refine ⟨?_, fun m hm g hg x y => OutputMode.pixelToDegrees_turn hm hg x y⟩
  rcases Nat.eq_or_lt_of_le haspect with hone | hmore
  · have htotal : total = turn := by
      rw [hturn, ← hone, Nat.cast_one, Int.tdiv_one]
    rw [htotal] at hcovers ⊢
    constructor
    · intro x hx hlt
      simpa only [← hone, true_and] using hcovers hx hlt
    · exact iff_of_true (fun x hx hlt => hcovers hx hlt) (.inl hone.symm)
  · have htwo : 2 * turn ≤ total := two_mul_turn_le hturn hpos hmore
    have hown {x : Int} (hx : 0 ≤ x) (hlt : x < turn) := by
      have hnone : ¬ p.box.HasColumn (x + total) := by
        rintro ⟨-, hpast⟩
        omega
      exact (hcovers hx hlt).trans (or_iff_left hnone)
    constructor
    · intro x hx hlt
      rw [hown hx hlt, or_iff_left fun h => by omega]
    · rw [or_iff_right (by omega), ← PixelBox.forall_hasColumn_of_next_iff hleft hwidth hright]
      refine forall_congr' fun x => forall₂_congr fun hx hlt => ?_
      rw [hown hx hlt, iff_self_or]

/-- An image across the end of a turn of 512 columns. -/
def acrossTurn : Placement Rat Float32 := .still (.blank 20 1 1 .u8) ⟨500, 0, 520, 1⟩

theorem insertWrapped_columns_two :
    (512 : Int) = Int.tdiv 1024 (2 : Nat) ∧
      ∃ ls, ((Composite.empty true).insertWrapped acrossTurn 1024 512).layers = ls ∧
        CoversColumn ls 511 ∧ ¬ CoversColumn ls 7 := by
  have hturn : (512 : Int) = Int.tdiv 1024 (2 : Nat) := by decide
  have hleft : 0 ≤ acrossTurn.box.minX := by decide
  have hwidth : acrossTurn.box.minX < acrossTurn.box.maxX := by decide
  have hright : acrossTurn.box.maxX ≤ 2 * 512 := by decide
  obtain ⟨ls, hls, -, hcolumns, -⟩ := insertWrapped_columns (.empty true) (by decide) hturn
    (by decide) hleft hwidth hright
  refine ⟨hturn, ls, hls, ?_, ?_⟩
  · exact (hcolumns 511 (by decide) (by decide)).mpr (by decide)
  · intro h
    exact absurd ((hcolumns 7 (by decide) (by decide)).mp h) (by decide)

/-- An image that lies past the turn leaves nothing on the canvas, where its own column would come
around to be the first one. -/
theorem insertWrapped_lost :
    let p : Placement Rat Float32 := .still (.blank 1 1 1 .u8) ⟨512, 0, 513, 1⟩
    (512 : Int) = Int.tdiv 1024 2 ∧ 0 ≤ p.box.minX ∧ p.box.minX < p.box.maxX ∧
      p.box.maxX ≤ 2 * 512 ∧
        ¬ (CoversColumn ((Composite.empty true).insertWrapped p 1024 512).layers 0 ↔
          p.box.HasColumn 0 ∨ p.box.HasColumn (0 + 512)) := by
  refine ⟨by decide, by decide, by decide, by decide, fun h => ?_⟩
  obtain ⟨l, hl, -⟩ := h.mpr (by decide)
  cases hl

end TilePyramid
