import TilePyramid.Box.Pixel
import Mathlib.Tactic.Ring

/-!
# Pixels in machine words

Corners of boxes are counted in 64 bits and sides of rasters in 32. Boxes that stay within these
words are the same whether or not their counts are cut.
-/
namespace TilePyramid

theorem toWord_eq_toNat {n : Int} (h : n < 2 ^ 32) : toWord n = n.toNat := by
  apply Nat.mod_eq_of_lt
  have hsize : UInt32.size = 2 ^ 32 := rfl
  omega

theorem wrapIndex_eq {n : Int} (hlo : -2 ^ 63 ≤ n) (hhi : n < 2 ^ 63) : wrapIndex n = n :=
  Int.bmod_eq_of_le hlo hhi

theorem wrapIndex_mem (n : Int) : -2 ^ 63 ≤ wrapIndex n ∧ wrapIndex n < 2 ^ 63 :=
  ⟨Int.le_bmod (by decide), Int.bmod_lt (by decide)⟩

/-- Numbers that are close to each other keep their distance, unless only one of them wraps around.
-/
theorem wrapIndex_sub {m n : Int} (hclose : n - m < 2 ^ 32) (hmn : m < n)
    (h : wrapIndex m < wrapIndex n) : wrapIndex n - wrapIndex m = n - m := by
  have hm : wrapIndex m + 2 ^ 64 * m.bdiv UInt64.size = m := Int.bmod_add_bdiv ..
  have hn : wrapIndex n + 2 ^ 64 * n.bdiv UInt64.size = n := Int.bmod_add_bdiv ..
  have hmem := wrapIndex_mem m
  have hmem' := wrapIndex_mem n
  omega

namespace PixelBox

/-- The corners of the box are indices of 64 bits. -/
def IsIndexed (b : PixelBox) : Prop :=
  ∀ n ∈ [b.minX, b.minY, b.maxX, b.maxY], -2 ^ 63 ≤ n ∧ n < 2 ^ 63

instance (b : PixelBox) : Decidable b.IsIndexed :=
  inferInstanceAs (Decidable (∀ n ∈ [b.minX, b.minY, b.maxX, b.maxY], -2 ^ 63 ≤ n ∧ n < 2 ^ 63))

/-- Both sides are differences of 64 bits, and no greater than 32 bits can hold. -/
def HasWordSides (b : PixelBox) : Prop :=
  (-2 ^ 63 ≤ b.width ∧ b.width < 2 ^ 32) ∧ -2 ^ 63 ≤ b.height ∧ b.height < 2 ^ 32

instance (b : PixelBox) : Decidable b.HasWordSides :=
  inferInstanceAs (Decidable (_ ∧ _))

variable {b : PixelBox}

theorem wrap_eq (h : b.IsIndexed) : b.wrap = b := by
  simp only [IsIndexed, List.forall_mem_cons] at h
  obtain ⟨hleft, htop, hright, hbottom, -⟩ := h
  rw [wrap, wrapIndex_eq hleft.1 hleft.2, wrapIndex_eq htop.1 htop.2,
    wrapIndex_eq hright.1 hright.2, wrapIndex_eq hbottom.1 hbottom.2]

theorem isIndexed_wrap (b : PixelBox) : b.wrap.IsIndexed := by
  simp only [IsIndexed, wrap, List.forall_mem_cons]
  exact ⟨wrapIndex_mem _, wrapIndex_mem _, wrapIndex_mem _, wrapIndex_mem _, List.forall_mem_nil _⟩

/-- A box that wraps around keeps its sides, unless it ends before it starts then. -/
theorem HasWordSides.sides_wrap (hb : b.HasWordSides) (hpixel : b.isEmpty = false)
    (hwrap : b.wrap.isEmpty = false) : b.wrap.width = b.width ∧ b.wrap.height = b.height := by
  obtain ⟨⟨-, hw⟩, -, hh⟩ := hb
  obtain ⟨hx, hy⟩ := isEmpty_eq_false_iff.mp hpixel
  obtain ⟨hx', hy'⟩ := isEmpty_eq_false_iff.mp hwrap
  exact ⟨wrapIndex_sub hw hx hx', wrapIndex_sub hh hy hy'⟩

theorem HasWordSides.wordCols_eq (hb : b.HasWordSides) : b.wordCols = b.width.toNat := by
  obtain ⟨⟨hlo, hhi⟩, -⟩ := hb
  rw [wordCols, wrapIndex_eq hlo (by omega), toWord_eq_toNat hhi]

theorem HasWordSides.wordRows_eq (hb : b.HasWordSides) : b.wordRows = b.height.toNat := by
  obtain ⟨-, hlo, hhi⟩ := hb
  rw [wordRows, wrapIndex_eq hlo (by omega), toWord_eq_toNat hhi]

theorem HasWordSides.toWord_sub (hb : b.HasWordSides) {x y : Int} (h : b.Mem x y) :
    toWord (x - b.minX) = (x - b.minX).toNat ∧ toWord (y - b.minY) = (y - b.minY).toNat := by
  obtain ⟨⟨-, hw⟩, -, hh⟩ := hb
  simp only [Mem, width, height] at hw hh h
  exact ⟨toWord_eq_toNat (by omega), toWord_eq_toNat (by omega)⟩

end PixelBox
end TilePyramid
