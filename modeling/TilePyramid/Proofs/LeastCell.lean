import TilePyramid.Proofs.AlignedBox
import Mathlib.Tactic.Linarith

/-!
# The smallest cell around a box

A cell that holds a box is the cell of its side at the corner of the box, and its side is at least
the one that the search starts from. So every smaller cell that could hold the box is one that the
search has passed. Main statement: a box on the canvas is aligned to the one smallest cell around
it, and a box that has been aligned stays what it is.
-/
namespace TilePyramid.PixelBox

/-- A cell of a canvas of side `2 ^ most` that holds a box, and no smaller cell does. -/
structure IsLeastCell (most : Nat) (b cell : PixelBox) : Prop where
  exists_level : ∃ k ≤ most, cell.IsCell k ∧
    ∀ (j : Nat) (other : PixelBox), other.IsCell j → other.contains b = true → k ≤ j
  holds : cell.contains b = true
  onCanvas : (ofSize 0 0 (2 ^ most) (2 ^ most)).contains cell = true

theorem contains_self (b : PixelBox) : b.contains b = true :=
  contains_iff.mpr ⟨le_rfl, le_rfl, le_rfl, le_rfl⟩

theorem contains_trans {a b c : PixelBox} (hab : a.contains b = true) (hbc : b.contains c = true) :
    a.contains c = true := by
  rw [contains_iff] at hab hbc ⊢
  omega

theorem IsCell.isEmpty_eq_false {k : Nat} {b : PixelBox} (h : b.IsCell k) : b.isEmpty = false := by
  have hside : (0 : Int) < 2 ^ k := pow_pos (by decide) k
  have hw := h.width
  have hh := h.height
  simp only [PixelBox.width, PixelBox.height] at hw hh
  exact isEmpty_eq_false_iff.mpr (by omega)

theorem IsCell.eq_cellAt {k : Nat} {b cell : PixelBox} (h : cell.IsCell k)
    (hb : b.isEmpty = false) (hholds : cell.contains b = true) : cell = b.cellAt (2 ^ k) := by
  have hside : (0 : Int) < 2 ^ k := pow_pos (by decide) k
  have hcorner {corner v : Int} (hdvd : (2 ^ k : Int) ∣ corner) (hle : corner ≤ v)
      (hlt : v < corner + 2 ^ k) : v.ediv (2 ^ k) * 2 ^ k = corner := by
    obtain ⟨n, rfl⟩ := hdvd
    rw [mul_comm]
    congr 1
    exact (Int.ediv_eq_iff_of_pos hside).mpr ⟨by linarith, by linarith⟩
  obtain ⟨hwidth, hheight⟩ := isEmpty_eq_false_iff.mp hb
  obtain ⟨hx, hy, hright, hbottom⟩ := contains_iff.mp hholds
  have hw := h.width
  have hh := h.height
  simp only [PixelBox.width, PixelBox.height] at hw hh
  rw [cellAt, hcorner h.minX hx (by omega), hcorner h.minY hy (by omega), ofSize,
    ← eq_add_of_sub_eq' hw, ← eq_add_of_sub_eq' hh]

private theorem nested_ediv (v : Int) {j k : Nat} (h : j ≤ k) :
    v.ediv (2 ^ k) * 2 ^ k ≤ v.ediv (2 ^ j) * 2 ^ j ∧
      v.ediv (2 ^ j) * 2 ^ j + 2 ^ j ≤ v.ediv (2 ^ k) * 2 ^ k + 2 ^ k := by
  obtain ⟨d, rfl⟩ := Nat.exists_eq_add_of_le h
  have hside : (0 : Int) < 2 ^ j := pow_pos (by decide) j
  have hfactor : (0 : Int) < 2 ^ d := pow_pos (by decide) d
  have hdiv : v.ediv (2 ^ (j + d)) = v.ediv (2 ^ j) / 2 ^ d := by
    rw [pow_add]
    exact (Int.ediv_ediv_of_nonneg hside.le).symm
  have hlo := Int.ediv_mul_le (v.ediv (2 ^ j)) hfactor.ne'
  have hhi := Int.lt_ediv_add_one_mul_self (v.ediv (2 ^ j)) hfactor
  rw [hdiv, pow_add]
  constructor
  · nlinarith
  · nlinarith

theorem cellAt_onCanvas {b : PixelBox} {k most : Nat} (hk : k ≤ most)
    (hcanvas : (ofSize 0 0 (2 ^ most) (2 ^ most)).contains b = true) (hb : b.isEmpty = false) :
    (ofSize 0 0 (2 ^ most) (2 ^ most)).contains (b.cellAt (2 ^ k)) = true := by
  obtain ⟨hw, hh⟩ := isEmpty_eq_false_iff.mp hb
  obtain ⟨hx, hy, hright, hbottom⟩ := contains_iff.mp hcanvas
  simp only [ofSize, zero_add] at hx hy hright hbottom
  obtain ⟨hleft, hright'⟩ := nested_ediv b.minX hk
  obtain ⟨htop, hbottom'⟩ := nested_ediv b.minY hk
  have hcolumn : b.minX.ediv (2 ^ most) = 0 := Int.ediv_eq_zero_of_lt hx (by omega)
  have hrow : b.minY.ediv (2 ^ most) = 0 := Int.ediv_eq_zero_of_lt hy (by omega)
  rw [hcolumn] at hleft hright'
  rw [hrow] at htop hbottom'
  simp only [contains_iff, cellAt, ofSize]
  omega

private theorem leastPowerOfTwo_le {n : Int} {k : Nat} (h : n ≤ 2 ^ k) :
    leastPowerOfTwo n ≤ 2 ^ k := by
  rw [leastPowerOfTwo]
  split
  · exact one_le_pow₀ (by decide)
  · next hlarge =>
    have hbelow : n.toNat - 1 < 2 ^ k := by
      have hnat : n.toNat ≤ 2 ^ k := Int.toNat_le.mpr (by exact_mod_cast h)
      omega
    have hlog : (n.toNat - 1).log2 < k := (Nat.log2_lt (by omega)).mpr hbelow
    rw [Nat.one_shiftLeft]
    exact_mod_cast Nat.pow_le_pow_right (by decide) hlog

private theorem IsCell.start_le {j : Nat} {b cell : PixelBox} (h : cell.IsCell j)
    (hholds : cell.contains b = true) :
    leastPowerOfTwo (max b.width b.height) ≤ 2 ^ j := by
  apply leastPowerOfTwo_le
  have hw := h.width
  have hh := h.height
  rw [contains_iff] at hholds
  simp only [PixelBox.width, PixelBox.height] at hw hh ⊢
  omega

/-- What the search ends at is the smallest cell. -/
theorem isLeastCell_alignToCell {b : PixelBox} {most : Nat} (hb : b.isEmpty = false)
    (hcanvas : (ofSize 0 0 (2 ^ most) (2 ^ most)).contains b = true) :
    b.IsLeastCell most (b.alignToCell (2 ^ most)) := by
  have hgrows := b.growsTo_alignToCell most
  obtain ⟨start, hstart, hside⟩ := b.exists_start most
  rw [hside] at hgrows
  obtain ⟨k, -, hk, hcell, -, hpassed⟩ := hgrows.exists_level hstart
  obtain ⟨hw, hh⟩ := isEmpty_eq_false_iff.mp hb
  obtain ⟨hx, hy, hright, hbottom⟩ := contains_iff.mp hcanvas
  simp only [ofSize, zero_add] at hx hy hright hbottom
  have hholds := contains_alignToCell hx hy hw hh hright hbottom
  rw [hcell] at hholds ⊢
  refine ⟨⟨k, hk, b.isCell_cellAt k, fun j other hother hin => ?_⟩, hholds,
    cellAt_onCanvas hk hcanvas hb⟩
  -- Every side below the last one is passed by the search or smaller than its start.
  by_contra hlt
  have hle : start ≤ j := by
    rw [← two_pow_le_iff, ← hside]
    exact (min_le_left _ _).trans (hother.start_le hin)
  have hlost := hpassed j hle (not_le.mp hlt)
  rw [hother.eq_cellAt hb hin] at hin
  rw [hin] at hlost
  cases hlost

theorem IsLeastCell.unique {most : Nat} {b cell cell' : PixelBox} (hb : b.isEmpty = false)
    (h : b.IsLeastCell most cell) (h' : b.IsLeastCell most cell') : cell = cell' := by
  obtain ⟨k, -, hk, hleast⟩ := h.exists_level
  obtain ⟨k', -, hk', hleast'⟩ := h'.exists_level
  obtain rfl : k = k' :=
    le_antisymm (hleast k' cell' hk' h'.holds) (hleast' k cell hk h.holds)
  rw [hk.eq_cellAt hb h.holds, hk'.eq_cellAt hb h'.holds]

theorem IsLeastCell.self {most : Nat} {b cell : PixelBox} (h : b.IsLeastCell most cell) :
    cell.IsLeastCell most cell where
  exists_level := by
    obtain ⟨k, hk, hcell, hleast⟩ := h.exists_level
    exact ⟨k, hk, hcell, fun j other hother hin => hleast j other hother (contains_trans hin h.holds)⟩
  holds := cell.contains_self
  onCanvas := h.onCanvas

/-- On a canvas whose side is a power of two the search for a cell ends, and ends in one way only.
What it ends at is the one smallest cell around the box, and is its own smallest cell. -/
theorem alignToCell_least {b : PixelBox} {most : Nat} (hb : b.isEmpty = false)
    (hcanvas : (ofSize 0 0 (2 ^ most) (2 ^ most)).contains b = true) :
    (∀ cell, b.GrowsTo (2 ^ most) (min (leastPowerOfTwo (max b.width b.height)) (2 ^ most)) cell ↔
      cell = b.alignToCell (2 ^ most)) ∧
    (∀ cell, b.IsLeastCell most cell ↔ cell = b.alignToCell (2 ^ most)) ∧
    (b.alignToCell (2 ^ most)).alignToCell (2 ^ most) = b.alignToCell (2 ^ most) := by
  have hleast := isLeastCell_alignToCell hb hcanvas
  obtain ⟨k, -, hcell, -⟩ := hleast.exists_level
  have hnonempty := hcell.isEmpty_eq_false
  have hagain := isLeastCell_alignToCell hnonempty hleast.onCanvas
  refine ⟨fun cell => ⟨fun h => h.unique (b.growsTo_alignToCell most), ?_⟩,
    fun cell => ⟨fun h => h.unique hb hleast, ?_⟩, hagain.unique hnonempty hleast.self⟩
  · rintro rfl
    exact b.growsTo_alignToCell most
  · rintro rfl
    exact hleast

/-- A box of 300 by 100 pixels lies in one half of a canvas of 1024 pixels, the first one. -/
theorem alignToCell_least_offset :
    (ofSize 200 10 300 100).IsLeastCell 10 (ofSize 0 0 512 512) ∧
      (ofSize 0 0 512 512).alignToCell (2 ^ 10) = ofSize 0 0 512 512 := by
  have hb : (ofSize 200 10 300 100).isEmpty = false := by decide
  have hcanvas : (ofSize 0 0 (2 ^ 10) (2 ^ 10)).contains (ofSize 200 10 300 100) = true := by decide
  have hcell : (ofSize 200 10 300 100).alignToCell (2 ^ 10) = ofSize 0 0 512 512 := by
    decide +kernel
  obtain ⟨-, hleast, hagain⟩ := alignToCell_least hb hcanvas
  rw [hcell] at hagain
  exact ⟨(hleast _).mpr hcell.symm, hagain⟩

end TilePyramid.PixelBox
