import TilePyramid.Proofs.Generation
import Mathlib.Data.Finset.Prod
import Mathlib.Order.Interval.Finset.Nat

/-!
# The number of leaves

The leaves of a pyramid are its tiles of the deepest level. There the columns and the rows of the
tiles that meet a box within the image are two ranges, from the tile of the first pixel up to the
tile of the last one. So the leaves can be counted before any of them is made.
-/
namespace TilePyramid

namespace Tree

variable {β : Type}

mutual

theorem leafCount_eq_countP : (t : Tree β) → t.leafCount = t.preorder.countP isLeaf
  | node v [] => rfl
  | node v (t :: ts) => by
    rw [leafCount, preorder, List.countP_cons_of_neg (by simp [isLeaf, children]),
      leafCountAll_eq_countP (t :: ts)]

theorem leafCountAll_eq_countP : (ts : List (Tree β)) →
    leafCountAll ts = (preorderAll ts).countP isLeaf
  | [] => rfl
  | t :: ts => by
    rw [leafCountAll, preorderAll, List.countP_append, leafCount_eq_countP t,
      leafCountAll_eq_countP ts]

end

end Tree

theorem exists_div_eq_iff {tileSize a b x : Nat} (ht : 0 < tileSize) (hab : a < b) :
    (∃ u, u / tileSize = x ∧ a ≤ u ∧ u < b) ↔
      x ∈ Finset.Ico (a / tileSize) ((b + tileSize - 1) / tileSize) := by
  have hlast : x < (b + tileSize - 1) / tileSize ↔ x * tileSize < b := by
    rw [Nat.lt_iff_add_one_le, Nat.le_div_iff_mul_le ht, Nat.add_mul]
    omega
  rw [Finset.mem_Ico, hlast]
  constructor
  · rintro ⟨u, rfl, hau, hub⟩
    exact ⟨Nat.div_le_div_right hau, (Nat.div_mul_le_self u tileSize).trans_lt hub⟩
  · rintro ⟨hax, hxb⟩
    refine ⟨max a (x * tileSize), ?_, le_max_left _ _, max_lt hab hxb⟩
    have hlt : a < (x + 1) * tileSize := (Nat.div_lt_iff_lt_mul ht).mp (Nat.lt_succ_of_le hax)
    rw [Nat.div_eq_iff ht]
    rw [Nat.add_mul] at hlt
    omega

/-- The tiles of the deepest level that meet a box, by their columns and rows. -/
def leafPlaces (tileSize a b c d : Nat) : Finset (Nat × Nat) :=
  Finset.Ico (a / tileSize) ((b + tileSize - 1) / tileSize) ×ˢ
    Finset.Ico (c / tileSize) ((d + tileSize - 1) / tileSize)

theorem meets_deepest_iff {tileSize maxLevel a b c d x y : Nat} (ht : 0 < tileSize) (hab : a < b)
    (hcd : c < d) :
    Meets tileSize maxLevel (PixelBox.Mem ⟨a, c, b, d⟩) maxLevel x y ↔
      (x, y) ∈ leafPlaces tileSize a b c d := by
  rw [leafPlaces, Finset.mem_product, ← exists_div_eq_iff ht hab, ← exists_div_eq_iff ht hcd, Meets,
    Nat.sub_self, Nat.pow_zero, Nat.mul_one]
  simp only [PixelBox.mem_square_iff ht]
  constructor
  · rintro ⟨_, _, ⟨u, v, rfl, rfl, hu, hv⟩, hau, hub, hcv, hvd⟩
    exact ⟨⟨u, hu, Int.ofNat_le.mp hau, Int.ofNat_lt.mp hub⟩,
      v, hv, Int.ofNat_le.mp hcv, Int.ofNat_lt.mp hvd⟩
  · rintro ⟨⟨u, hu, hau, hub⟩, v, hv, hcv, hvd⟩
    exact ⟨u, v, ⟨u, v, rfl, rfl, hu, hv⟩, Int.ofNat_le.mpr hau, Int.ofNat_lt.mpr hub,
      Int.ofNat_le.mpr hcv, Int.ofNat_lt.mpr hvd⟩

namespace IsCellTree

variable {tileSize maxLevel : Nat} {kept : Int → Int → Prop} {root : TileTree}

/-- The columns and rows of the leaves, one after the other. -/
private def leaves (root : TileTree) : List (Nat × Nat) :=
  (root.preorder.filter Tree.isLeaf).map fun n => (n.value.x, n.value.y)

private theorem level_of_isLeaf (h : IsCellTree tileSize maxLevel kept root) {n : TileTree}
    (hn : n ∈ root.preorder.filter Tree.isLeaf) :
    n ∈ root.preorder ∧ n.value.level = maxLevel := by
  obtain ⟨hn, hleaf⟩ := List.mem_filter.mp hn
  exact ⟨hn, (h.leaf_iff n hn).mp (List.isEmpty_iff.mp hleaf)⟩

private theorem nodup_leaves (h : IsCellTree tileSize maxLevel kept root) :
    (leaves root).Nodup := by
  apply List.Nodup.of_map fun p => (maxLevel, p)
  have hplaces : (leaves root).map (fun p => (maxLevel, p)) =
      (root.preorder.filter Tree.isLeaf).map fun n => n.value.place := by
    rw [leaves, List.map_map]
    refine List.map_congr_left fun n hn => ?_
    rw [Function.comp_apply, Tile.place, (h.level_of_isLeaf hn).2]
  rw [hplaces]
  exact h.once.sublist (List.filter_sublist.map _)

private theorem mem_leaves_iff (h : IsCellTree tileSize maxLevel kept root) {x y : Nat} :
    (x, y) ∈ leaves root ↔
      x < 2 ^ maxLevel ∧ y < 2 ^ maxLevel ∧ Meets tileSize maxLevel kept maxLevel x y := by
  have hoccurs := h.occurs_iff maxLevel x y
  rw [leaves, List.mem_map]
  constructor
  · rintro ⟨n, hn, hplace⟩
    obtain ⟨hn, hlevel⟩ := h.level_of_isLeaf hn
    refine (hoccurs.mp ⟨n, hn, ?_⟩).2
    rw [Tile.place, hlevel, hplace]
  · intro hmeets
    obtain ⟨n, hn, hplace⟩ := hoccurs.mpr ⟨le_rfl, hmeets⟩
    simp only [Tile.place, Prod.mk.injEq] at hplace
    have hleaf : n.isLeaf = true := List.isEmpty_iff.mpr ((h.leaf_iff n hn).mpr hplace.1)
    exact ⟨n, List.mem_filter.mpr ⟨hn, hleaf⟩, Prod.ext hplace.2.1 hplace.2.2⟩

private theorem length_leaves (root : TileTree) : (leaves root).length = root.leafCount := by
  rw [leaves, List.length_map, Tree.leafCount_eq_countP, List.countP_eq_length_filter]

private theorem toFinset_leaves {a b c d : Nat}
    (h : IsCellTree tileSize maxLevel (PixelBox.Mem ⟨a, c, b, d⟩) root) (ht : 0 < tileSize)
    (hab : a < b) (hcd : c < d) (hb : b ≤ tileSize * 2 ^ maxLevel)
    (hd : d ≤ tileSize * 2 ^ maxLevel) :
    (leaves root).toFinset = leafPlaces tileSize a b c d := by
  ext ⟨x, y⟩
  rw [List.mem_toFinset, h.mem_leaves_iff, meets_deepest_iff ht hab hcd]
  refine ⟨fun hplace => hplace.2.2, fun hplace => ?_⟩
  -- A tile that holds a pixel of the square lies in the square.
  have hbound {u z side : Nat} (hu : u / tileSize = z) (hlt : u < tileSize * side) : z < side :=
    hu ▸ Nat.div_lt_of_lt_mul hlt
  obtain ⟨hcolumn, hrow⟩ := Finset.mem_product.mp hplace
  obtain ⟨u, hu, -, hub⟩ := (exists_div_eq_iff ht hab).mpr hcolumn
  obtain ⟨v, hv, -, hvd⟩ := (exists_div_eq_iff ht hcd).mpr hrow
  exact ⟨hbound hu (hub.trans_le hb), hbound hv (hvd.trans_le hd), hplace⟩

private theorem leavesWithin_eq_card {a b c d : Nat} (ht : 0 < tileSize) :
    Generator.leavesWithin ⟨a, c, b, d⟩ tileSize = (leafPlaces tileSize a b c d).card := by
  have hside (lo hi : Nat) :
      max (((hi : Int) + tileSize - 1).tdiv tileSize - (lo : Int).tdiv tileSize) 0 =
        ((hi + tileSize - 1) / tileSize - lo / tileSize : Nat) := by
    have hlast : (hi : Int) + tileSize - 1 = (hi + tileSize - 1 : Nat) := by omega
    rw [hlast, ← Int.ofNat_tdiv, ← Int.ofNat_tdiv]
    omega
  simp only [Generator.leavesWithin, hside]
  rw [leafPlaces, Finset.card_product, Nat.card_Ico, Nat.card_Ico, Nat.cast_mul]

theorem exists_kept (h : IsCellTree tileSize maxLevel kept root) : ∃ px py, kept px py := by
  obtain ⟨-, -, -, px, py, -, hkept⟩ :=
    (h.occurs_iff _ _ _).mp ⟨root, root.self_mem_preorder, rfl⟩
  exact ⟨px, py, hkept⟩

/-- The leaves are the nodes of the deepest level. -/
theorem countP_level_eq_leafCount (h : IsCellTree tileSize maxLevel kept root) :
    (root.postorder.countP fun n => n.value.level = maxLevel) = root.leafCount := by
  rw [root.postorder_perm_preorder.countP_eq, Tree.leafCount_eq_countP]
  refine List.countP_congr fun n hn => ?_
  rw [decide_eq_true_eq, ← h.leaf_iff n hn, Tree.isLeaf, List.isEmpty_iff]

theorem leavesWithin_eq_leafCount {crop : PixelBox}
    (h : IsCellTree tileSize maxLevel crop.Mem root) (ht : 0 < tileSize)
    (hinside : ∀ px py, crop.Mem px py →
      (PixelBox.ofImage (tileSize * 2 ^ maxLevel) (tileSize * 2 ^ maxLevel)).Mem px py) :
    Generator.leavesWithin crop tileSize = root.leafCount := by
  obtain ⟨px, py, hkept⟩ := h.exists_kept
  obtain ⟨minX, minY, maxX, maxY⟩ := crop
  simp only [PixelBox.Mem, PixelBox.ofImage, PixelBox.ofSize, zero_add] at hkept hinside
  have hfirst := hinside minX minY (by omega)
  have hlast := hinside (maxX - 1) (maxY - 1) (by omega)
  lift minX to Nat using hfirst.1
  lift minY to Nat using hfirst.2.2.1
  lift maxX to Nat using by omega
  lift maxY to Nat using by omega
  have hplaces := h.toFinset_leaves ht (by omega) (by omega) (by omega) (by omega)
  rw [leavesWithin_eq_card ht, ← hplaces, List.toFinset_card_of_nodup h.nodup_leaves,
    length_leaves]

end IsCellTree
end TilePyramid
