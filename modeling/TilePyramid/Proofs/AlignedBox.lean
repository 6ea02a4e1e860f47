import TilePyramid.Box.Cell
import Mathlib.Algebra.Order.Ring.Int

/-!
# Aligned boxes

The output box is never empty and holds all of the data that lies on the canvas. Where whole cells
are asked for it is a cell: the side starts as a power of two and is doubled until the cell at that
side holds the data, which the cell of the whole canvas does.
-/
namespace TilePyramid.PixelBox

theorem contains_iff {b inner : PixelBox} :
    b.contains inner = true ↔
      b.minX ≤ inner.minX ∧ b.minY ≤ inner.minY ∧ inner.maxX ≤ b.maxX ∧ inner.maxY ≤ b.maxY := by
  simp only [contains, Bool.and_eq_true, decide_eq_true_iff, and_assoc]

/-- A cell of the quad-tree of the canvas: a square whose side is a power of two and whose corner
is a multiple of the side. -/
structure IsCell (k : Nat) (b : PixelBox) : Prop where
  width : b.width = 2 ^ k
  height : b.height = 2 ^ k
  minX : (2 ^ k : Int) ∣ b.minX
  minY : (2 ^ k : Int) ∣ b.minY

theorem isCell_cellAt (b : PixelBox) (k : Nat) : (b.cellAt (2 ^ k)).IsCell k where
  width := by simp only [cellAt, ofSize, width, add_sub_cancel_left]
  height := by simp only [cellAt, ofSize, height, add_sub_cancel_left]
  minX := Int.dvd_mul_left _ _
  minY := Int.dvd_mul_left _ _

theorem two_pow_le_iff {j k : Nat} : (2 ^ j : Int) ≤ 2 ^ k ↔ j ≤ k :=
  pow_le_pow_iff_right₀ (by decide)

/-- The search for a cell around a box from a side on: it ends at a cell that holds the box or is as
large as the canvas, and goes on with twice the side otherwise. -/
inductive GrowsTo (b : PixelBox) (total : Int) : Int → PixelBox → Prop
  | stop {dim : Int} (h : (b.cellAt dim).contains b = true ∨ total ≤ dim) :
      GrowsTo b total dim (b.cellAt dim)
  | double {dim : Int} {cell : PixelBox} (hlost : (b.cellAt dim).contains b = false)
      (hroom : dim < total) (h : GrowsTo b total (min (dim * 2) total) cell) :
      GrowsTo b total dim cell

theorem GrowsTo.unique {b c c' : PixelBox} {total dim : Int} (h : b.GrowsTo total dim c)
    (h' : b.GrowsTo total dim c') : c = c' := by
  induction h with
  | stop hend =>
    cases h' with
    | stop => rfl
    | double hlost hroom =>
      rw [hlost] at hend
      exact absurd (hend.resolve_left Bool.false_ne_true) (not_le.mpr hroom)
  | double hlost hroom _ ih =>
    cases h' with
    | stop hend =>
      rw [hlost] at hend
      exact absurd (hend.resolve_left Bool.false_ne_true) (not_le.mpr hroom)
    | double _ _ h' => exact ih h'

private theorem min_double {k most : Nat} (h : k < most) :
    min ((2 ^ k : Int) * 2) (2 ^ most) = 2 ^ (k + 1) := by
  rw [← pow_succ]
  exact min_eq_left (two_pow_le_iff.mpr h)

private theorem growsTo_growCell (b : PixelBox) {most steps k : Nat} (hk : k ≤ most)
    (hsteps : most ≤ k + steps) :
    b.GrowsTo (2 ^ most) (2 ^ k) (b.growCell (2 ^ most) steps (2 ^ k)) := by
  induction steps generalizing k with
  | zero => exact .stop (.inr (two_pow_le_iff.mpr (by omega)))
  | succ steps ih =>
    rw [growCell]
    split
    · next hstop =>
      refine .stop ((Bool.or_eq_true_iff.mp hstop).imp_right of_decide_eq_true)
    · next hgo =>
      obtain ⟨hlost, hroom⟩ := Bool.or_eq_false_iff.mp (Bool.eq_false_of_not_eq_true hgo)
      have hroom : (2 ^ k : Int) < 2 ^ most := not_le.mp (of_decide_eq_false hroom)
      have hlt : k < most := by
        by_contra hge
        exact absurd (two_pow_le_iff.mpr (not_lt.mp hge)) (not_le.mpr hroom)
      refine .double hlost hroom ?_
      rw [min_double hlt]
      exact ih hlt (by omega)

theorem GrowsTo.exists_level {b c : PixelBox} {most k : Nat} (hk : k ≤ most)
    (h : b.GrowsTo (2 ^ most) (2 ^ k) c) :
    ∃ j, k ≤ j ∧ j ≤ most ∧ c = b.cellAt (2 ^ j) ∧
      ((b.cellAt (2 ^ j)).contains b = true ∨ j = most) ∧
      ∀ i, k ≤ i → i < j → (b.cellAt (2 ^ i)).contains b = false := by
  generalize hdim : (2 ^ k : Int) = dim at h
  induction h generalizing k with
  | stop h =>
    subst hdim
    refine ⟨k, le_rfl, hk, rfl, h.imp_right fun hlast => ?_, by omega⟩
    exact le_antisymm hk (two_pow_le_iff.mp hlast)
  | double hlost hroom _ ih =>
    subst hdim
    have hlt : k < most := by
      by_contra hge
      exact absurd (two_pow_le_iff.mpr (not_lt.mp hge)) (not_le.mpr hroom)
    obtain ⟨j, hkj, hj, hcell, hend, hpassed⟩ := ih hlt (min_double hlt).symm
    refine ⟨j, by omega, hj, hcell, hend, fun i hi hij => ?_⟩
    rcases Nat.eq_or_lt_of_le hi with rfl | hlater
    · exact hlost
    · exact hpassed i hlater hij

theorem exists_leastPowerOfTwo_eq (n : Int) : ∃ k : Nat, leastPowerOfTwo n = 2 ^ k := by
  rw [leastPowerOfTwo]
  split
  · exact ⟨0, rfl⟩
  · exact ⟨_, by rw [Nat.one_shiftLeft, Nat.cast_pow, Nat.cast_ofNat]⟩

theorem exists_start (b : PixelBox) (most : Nat) :
    ∃ k ≤ most, min (leastPowerOfTwo (max b.width b.height)) (2 ^ most) = (2 ^ k : Int) := by
  obtain ⟨k, hk⟩ := exists_leastPowerOfTwo_eq (max b.width b.height)
  refine ⟨min k most, Nat.min_le_right _ _, ?_⟩
  rw [hk]
  rcases Nat.le_total k most with hle | hle
  · rw [min_eq_left hle, min_eq_left (two_pow_le_iff.mpr hle)]
  · rw [min_eq_right hle, min_eq_right (two_pow_le_iff.mpr hle)]

theorem growsTo_alignToCell (b : PixelBox) (most : Nat) :
    b.GrowsTo (2 ^ most) (min (leastPowerOfTwo (max b.width b.height)) (2 ^ most))
      (b.alignToCell (2 ^ most)) := by
  obtain ⟨k, hk, hstart⟩ := b.exists_start most
  have hside : ((2 ^ most : Int)).toNat = 2 ^ most := Int.toNat_pow_of_nonneg (by decide) most
  rw [alignToCell, hstart, hside, Nat.log2_two_pow]
  exact b.growsTo_growCell hk (by omega)

/-- On a canvas whose side is a power of two the search ends at a cell, either around `b` or as
large as the canvas. -/
theorem exists_alignToCell (b : PixelBox) (most : Nat) :
    ∃ j ≤ most, b.alignToCell (2 ^ most) = b.cellAt (2 ^ j) ∧
      ((b.cellAt (2 ^ j)).contains b = true ∨ j = most) := by
  have hgrows := b.growsTo_alignToCell most
  obtain ⟨k, hk, hstart⟩ := b.exists_start most
  rw [hstart] at hgrows
  obtain ⟨j, -, hj, hcell, hend, -⟩ := hgrows.exists_level hk
  exact ⟨j, hj, hcell, hend⟩

theorem contains_alignToCell {b : PixelBox} {most : Nat} (hx : 0 ≤ b.minX) (hy : 0 ≤ b.minY)
    (hw : b.minX < b.maxX) (hh : b.minY < b.maxY) (hright : b.maxX ≤ 2 ^ most)
    (hbottom : b.maxY ≤ 2 ^ most) : (b.alignToCell (2 ^ most)).contains b = true := by
  obtain ⟨j, -, hcell, hholds | rfl⟩ := b.exists_alignToCell most
  · rw [hcell]
    exact hholds
  · have hcolumn : b.minX.ediv (2 ^ j) = 0 := Int.ediv_eq_zero_of_lt hx (by omega)
    have hrow : b.minY.ediv (2 ^ j) = 0 := Int.ediv_eq_zero_of_lt hy (by omega)
    rw [hcell, contains_iff, cellAt, hcolumn, hrow]
    simp only [ofSize]
    omega

private theorem cropToCanvas_eq_ok {b c : PixelBox} {cols rows : Int}
    (h : b.cropToCanvas cols rows = .ok c) :
    c = b.crop (ofSize 0 0 cols rows) ∧ c.isEmpty = false := by
  rw [cropToCanvas] at h
  split at h
  · cases h
  · next hdata =>
    obtain rfl := Except.ok.inj h
    exact ⟨rfl, by simpa only [Bool.not_eq_true] using hdata⟩

private theorem crop_canvas_bounds {b : PixelBox} {cols rows : Int}
    (h : (b.crop (ofSize 0 0 cols rows)).isEmpty = false) :
    let c := b.crop (ofSize 0 0 cols rows)
    0 ≤ c.minX ∧ 0 ≤ c.minY ∧ c.minX < c.maxX ∧ c.minY < c.maxY ∧ c.maxX ≤ cols ∧
      c.maxY ≤ rows := by
  obtain ⟨hw, hh⟩ := isEmpty_eq_false_iff.mp h
  simp only [crop, ofSize] at hw hh ⊢
  omega

/-- What an alignment has done when it ends well: none of the data on the canvas is left out, the
result is no larger than the canvas, and whole cells are cells. -/
theorem align_eq_ok {raw aligned : PixelBox} {most : Nat} {cols : Int} {wholeCells : Bool}
    (hcols : cols ≤ 2 ^ most) (h : raw.align (2 ^ most) cols (2 ^ most) wholeCells = .ok aligned) :
    let data := raw.crop (ofSize 0 0 cols (2 ^ most))
    data.isEmpty = false ∧ aligned.contains data = true ∧ aligned.width ≤ 2 ^ most ∧
      aligned.height ≤ 2 ^ most ∧ (wholeCells = true → ∃ k ≤ most, aligned.IsCell k) := by
  intro data
  rw [align] at h
  cases hcrop : raw.cropToCanvas cols (2 ^ most) with
  | error e =>
    rw [hcrop] at h
    cases h
  | ok c =>
    obtain ⟨rfl, hdata⟩ := cropToCanvas_eq_ok hcrop
    obtain ⟨hx, hy, hw, hh, hright, hbottom⟩ := crop_canvas_bounds hdata
    rw [hcrop] at h
    obtain rfl := Except.ok.inj h
    cases wholeCells with
    | false =>
      refine ⟨hdata, contains_iff.mpr ⟨le_rfl, le_rfl, le_rfl, le_rfl⟩, ?_, ?_, by simp⟩
      · change data.width ≤ _
        simp only [width, data]
        omega
      · change data.height ≤ _
        simp only [height, data]
        omega
    | true =>
      have hheld := contains_alignToCell hx hy hw hh (hright.trans hcols) hbottom
      obtain ⟨k, hk, hcell, -⟩ := data.exists_alignToCell most
      have hsquare := data.isCell_cellAt k
      rw [← hcell] at hsquare
      refine ⟨hdata, hheld, ?_, ?_, fun _ => ⟨k, hk, hsquare⟩⟩
      · exact hsquare.width.trans_le (two_pow_le_iff.mpr hk)
      · exact hsquare.height.trans_le (two_pow_le_iff.mpr hk)

end TilePyramid.PixelBox
