import TilePyramid.Proofs.TreeOrder
import TilePyramid.Pyramid.Rendering
import Mathlib.Data.List.Nodup
import Mathlib.Tactic.Ring

/-!
# Cells of the quad-tree

The cells of a level are the squares of a grid whose first corner is the corner of the image. A
level has twice as many columns and rows as the level above. The rendered tree is made of the
cells that meet the crop box, each at its place; whether a cell is rendered is decided by its own
square, and a cell that meets the crop box has a quadrant that does.
-/
namespace TilePyramid

/-- The square of side `side` in column `x` and row `y` of a grid. -/
def PixelBox.square (side x y : Nat) : PixelBox :=
  .ofSize (x * side : Nat) (y * side : Nat) side side

/-- The quadrant digits of a place: one for each level, made of one bit of the row and one bit of
the column, from the most significant bits on. -/
def placeDigits (level x y : Nat) : String :=
  String.ofList ((List.range level).map fun k =>
    Nat.digitChar (2 * (y / 2 ^ (level - 1 - k) % 2) + x / 2 ^ (level - 1 - k) % 2))

/-- The tile of a cell, in a tree whose deepest level is `maxLevel` and whose deepest tiles have
`tileSize` pixels on each side. -/
def Tile.ofCell (tileSize maxLevel level x y : Nat) : Tile where
  level := level
  path := placeDigits level x y
  x := x
  y := y
  box := .square (tileSize * 2 ^ (maxLevel - level)) x y

section squares

theorem PixelBox.mem_square_iff {side x y : Nat} (hs : 0 < side) {px py : Int} :
    (PixelBox.square side x y).Mem px py ↔
      ∃ u v : Nat, px = u ∧ py = v ∧ u / side = x ∧ v / side = y := by
  have hdiv (u z : Nat) : u / side = z ↔ z * side ≤ u ∧ u < z * side + side := by
    rw [Nat.div_eq_iff hs]
    omega
  constructor
  · intro h
    simp only [square, ofSize, Mem] at h
    refine ⟨px.toNat, py.toNat, by omega, by omega, (hdiv _ _).mpr ?_, (hdiv _ _).mpr ?_⟩ <;> omega
  · rintro ⟨u, v, rfl, rfl, hx, hy⟩
    have hx := (hdiv _ _).mp hx
    have hy := (hdiv _ _).mp hy
    simp only [square, ofSize, Mem]
    omega

private theorem side_pos {tileSize : Nat} (ht : 0 < tileSize) (k : Nat) : 0 < tileSize * 2 ^ k :=
  Nat.mul_pos ht (Nat.two_pow_pos k)

private theorem div_side {tileSize maxLevel level deeper : Nat} (h : level ≤ deeper)
    (hd : deeper ≤ maxLevel) (u : Nat) :
    u / (tileSize * 2 ^ (maxLevel - level)) =
      u / (tileSize * 2 ^ (maxLevel - deeper)) / 2 ^ (deeper - level) := by
  rw [Nat.div_div_eq_div_mul, Nat.mul_assoc, ← Nat.pow_add]
  congr 4
  omega

end squares

section quadrants

theorem placeDigits_succ (level x y : Nat) (q : Fin 4) :
    placeDigits (level + 1) (2 * x + q.val % 2) (2 * y + q.val / 2) =
      (placeDigits level x y).push (quadrantDigit q) := by
  have hlow (z b : Nat) (hb : b < 2) (k : Nat) (hk : k < level) :
      (2 * z + b) / 2 ^ (level + 1 - 1 - k) = z / 2 ^ (level - 1 - k) := by
    have hexp : level + 1 - 1 - k = (level - 1 - k) + 1 := by omega
    rw [hexp, Nat.pow_succ', ← Nat.div_div_eq_div_mul]
    congr 1
    omega
  have hlast : Nat.digitChar (2 * (q.val / 2) + q.val % 2) = quadrantDigit q := by
    rw [Nat.div_add_mod]
    revert q
    decide
  rw [← String.toList_inj, String.toList_push]
  simp only [placeDigits, String.toList_ofList, List.range_succ, List.map_append,
    List.map_singleton]
  congr 1
  · apply List.map_congr_left
    intro k hk
    rw [hlow y _ (by omega) k (List.mem_range.mp hk), hlow x _ (by omega) k (List.mem_range.mp hk)]
  · rw [← hlast]
    congr 2
    have hexp : level + 1 - 1 - level = 0 := by omega
    rw [hexp, Nat.pow_zero, Nat.div_one, Nat.div_one]
    omega

theorem PixelBox.width_square (side x y : Nat) : (PixelBox.square side x y).width = side := by
  simp only [square, ofSize, width]
  omega

private theorem quadrantBox_square (half x y : Nat) (q : Fin 4) :
    quadrantBox (.square (2 * half) x y) ((PixelBox.square (2 * half) x y).width.tdiv 2) q =
      .square half (2 * x + q.val % 2) (2 * y + q.val / 2) := by
  have hhalf : (PixelBox.square (2 * half) x y).width.tdiv 2 = half := by
    rw [PixelBox.width_square, Int.tdiv_eq_ediv_of_nonneg (by omega)]
    omega
  have hx : ((x * (2 * half) : Nat) : Int) + ((q.val % 2 : Nat) : Int) * half =
      (((2 * x + q.val % 2) * half : Nat) : Int) := by
    push_cast
    ring
  have hy : ((y * (2 * half) : Nat) : Int) + ((q.val / 2 : Nat) : Int) * half =
      (((2 * y + q.val / 2) * half : Nat) : Int) := by
    push_cast
    ring
  rw [hhalf]
  simp only [quadrantBox, PixelBox.square, PixelBox.ofSize]
  rw [hx, hy]

theorem Tile.quadrant_ofCell {tileSize maxLevel level : Nat} (h : level < maxLevel) (x y : Nat)
    (q : Fin 4) :
    (Tile.ofCell tileSize maxLevel level x y).quadrant q =
      Tile.ofCell tileSize maxLevel (level + 1) (2 * x + q.val % 2) (2 * y + q.val / 2) := by
  have hside : tileSize * 2 ^ (maxLevel - level) =
      2 * (tileSize * 2 ^ (maxLevel - (level + 1))) := by
    have hexp : maxLevel - level = maxLevel - (level + 1) + 1 := by omega
    rw [hexp, Nat.pow_succ]
    ring
  simp only [quadrant, ofCell, quadrantPlace, placeDigits_succ, hside, quadrantBox_square]

end quadrants

/-- The square of a cell holds a pixel that is kept. -/
def Meets (tileSize maxLevel : Nat) (kept : Int → Int → Prop) (level x y : Nat) : Prop :=
  ∃ px py, (PixelBox.square (tileSize * 2 ^ (maxLevel - level)) x y).Mem px py ∧ kept px py

theorem Meets.above {tileSize maxLevel level deeper x y : Nat} {kept : Int → Int → Prop}
    (ht : 0 < tileSize) (hle : level ≤ deeper) (hd : deeper ≤ maxLevel)
    (hm : Meets tileSize maxLevel kept deeper x y) :
    Meets tileSize maxLevel kept level (x / 2 ^ (deeper - level)) (y / 2 ^ (deeper - level)) := by
  obtain ⟨px, py, hp, hk⟩ := hm
  obtain ⟨u, v, rfl, rfl, hu, hv⟩ := (PixelBox.mem_square_iff (side_pos ht _)).mp hp
  refine ⟨u, v, (PixelBox.mem_square_iff (side_pos ht _)).mpr ⟨u, v, rfl, rfl, ?_, ?_⟩, hk⟩
  · rw [div_side hle hd, hu]
  · rw [div_side hle hd, hv]

/-- The place of a tile: its level, its column and its row. -/
def Tile.place (t : Tile) : Nat × Nat × Nat := (t.level, t.x, t.y)

/-- A tree is made of exactly the cells that hold a pixel that is kept. Each is there once, with
its square and its digits; children come in the order of the quadrants, and only the tiles of the
deepest level have none. -/
structure IsCellTree (tileSize maxLevel : Nat) (kept : Int → Int → Prop) (root : TileTree) :
    Prop where
  tile : ∀ n ∈ root.preorder,
    n.value = Tile.ofCell tileSize maxLevel n.value.level n.value.x n.value.y
  occurs_iff (level x y : Nat) :
    (∃ n ∈ root.preorder, n.value.place = (level, x, y)) ↔
      level ≤ maxLevel ∧ x < 2 ^ level ∧ y < 2 ^ level ∧ Meets tileSize maxLevel kept level x y
  once : (root.preorder.map fun n => n.value.place).Nodup
  inOrder : ∀ n ∈ root.preorder,
    (n.children.map fun c => c.value.place).Sublist
      [(n.value.level + 1, 2 * n.value.x, 2 * n.value.y),
        (n.value.level + 1, 2 * n.value.x + 1, 2 * n.value.y),
        (n.value.level + 1, 2 * n.value.x, 2 * n.value.y + 1),
        (n.value.level + 1, 2 * n.value.x + 1, 2 * n.value.y + 1)]
  leaf_iff : ∀ n ∈ root.preorder, n.children = [] ↔ n.value.level = maxLevel

section
variable {tileSize maxLevel : Nat} {kept : Int → Int → Prop} {root n c : TileTree}

theorem IsCellTree.level_le (h : IsCellTree tileSize maxLevel kept root)
    (hn : n ∈ root.preorder) : n.value.level ≤ maxLevel :=
  ((h.occurs_iff _ _ _).mp ⟨n, hn, rfl⟩).1

theorem IsCellTree.level_child (h : IsCellTree tileSize maxLevel kept root)
    (hn : n ∈ root.preorder) (hc : c ∈ n.children) : c.value.level = n.value.level + 1 := by
  have hplaces := (h.inOrder n hn).subset (List.mem_map_of_mem hc)
  simp only [List.mem_cons, List.not_mem_nil, or_false, Tile.place, Prod.mk.injEq] at hplaces
  omega

end

namespace TileSource

variable {σ : Type} [Arith σ] (source : TileSource σ) {tileSize maxLevel : Nat} {crop : PixelBox}

/-- A tile is rendered exactly when its box shares a pixel with the crop box. -/
theorem render_isSome_iff (levels : Nat) (tile : Tile) :
    (source.render tileSize crop levels tile).isSome ↔
      ∃ px py, tile.box.Mem px py ∧ crop.Mem px py := by
  rw [← PixelBox.inter?_isSome_iff]
  cases levels <;> cases h : tile.box.inter? crop <;> simp [render, h]

theorem render_eq_none_iff (levels : Nat) (tile : Tile) :
    source.render tileSize crop levels tile = none ↔
      ¬ ∃ px py, tile.box.Mem px py ∧ crop.Mem px py := by
  rw [← source.render_isSome_iff levels, Option.not_isSome_iff_eq_none]

theorem exists_mem_of_render {levels : Nat} {tile : Tile} {t : Tree (RenderedTile σ)}
    (h : source.render tileSize crop levels tile = some t) :
    ∃ px py, tile.box.Mem px py ∧ crop.Mem px py :=
  (source.render_isSome_iff levels tile).mp (Option.isSome_iff_exists.mpr ⟨t, h⟩)

theorem render_tile {levels : Nat} {tile : Tile} {t : Tree (RenderedTile σ)}
    (h : source.render tileSize crop levels tile = some t) : t.value.tile = tile := by
  cases levels <;> simp only [render] at h <;> split at h
  · cases h
  · obtain rfl := Option.some.inj h
    rfl
  · cases h
  · obtain rfl := Option.some.inj h
    rfl

theorem render_children_zero {tile : Tile} {t : Tree (RenderedTile σ)}
    (h : source.render tileSize crop 0 tile = some t) : t.children = [] := by
  simp only [render] at h
  split at h
  · cases h
  · obtain rfl := Option.some.inj h
    rfl

theorem render_children_succ {levels : Nat} {tile : Tile} {t : Tree (RenderedTile σ)}
    (h : source.render tileSize crop (levels + 1) tile = some t) :
    t.children = (List.finRange 4).filterMap fun q =>
      source.render tileSize crop levels (tile.quadrant q) := by
  simp only [render] at h
  split at h
  · cases h
  · obtain rfl := Option.some.inj h
    rw [Tree.children, List.filterMap_map]
    rfl

theorem mem_render_children {levels : Nat} {tile : Tile} {t c : Tree (RenderedTile σ)}
    (h : source.render tileSize crop (levels + 1) tile = some t) :
    c ∈ t.children ↔ ∃ q, source.render tileSize crop levels (tile.quadrant q) = some c := by
  simp only [source.render_children_succ h, List.mem_filterMap, List.mem_finRange, true_and]

theorem mem_preorder_render {levels level x y : Nat} (hl : level + levels = maxLevel)
    {t n : Tree (RenderedTile σ)}
    (h : source.render tileSize crop levels (.ofCell tileSize maxLevel level x y) = some t)
    (hn : n ∈ t.preorder) :
    ∃ deeper left x' y', deeper + left = maxLevel ∧ level ≤ deeper ∧
      source.render tileSize crop left (.ofCell tileSize maxLevel deeper x' y') = some n ∧
      x' / 2 ^ (deeper - level) = x ∧ y' / 2 ^ (deeper - level) = y := by
  induction levels generalizing level x y t with
  | zero =>
    rcases Tree.mem_preorder_iff.mp hn with rfl | ⟨c, hc, -⟩
    · exact ⟨level, 0, x, y, hl, le_rfl, h, by simp, by simp⟩
    · rw [source.render_children_zero h] at hc
      cases hc
  | succ levels ih =>
    rcases Tree.mem_preorder_iff.mp hn with rfl | ⟨c, hc, hnc⟩
    · exact ⟨level, levels + 1, x, y, hl, le_rfl, h, by simp, by simp⟩
    · obtain ⟨q, hq⟩ := (source.mem_render_children h).mp hc
      rw [Tile.quadrant_ofCell (by omega)] at hq
      obtain ⟨deeper, left, x', y', hdl, hle, hr, hx, hy⟩ := ih (by omega) hq hnc
      have hexp : deeper - level = deeper - (level + 1) + 1 := by omega
      refine ⟨deeper, left, x', y', hdl, by omega, hr, ?_, ?_⟩
      · rw [hexp, Nat.pow_succ, ← Nat.div_div_eq_div_mul, hx]
        omega
      · rw [hexp, Nat.pow_succ, ← Nat.div_div_eq_div_mul, hy]
        omega

private theorem exists_quadrant (levels : Nat) {level x y x' y' : Nat}
    (hlt : level < maxLevel) (hx : x' / 2 = x) (hy : y' / 2 = y)
    (hm : Meets tileSize maxLevel crop.Mem (level + 1) x' y') :
    ∃ q c, source.render tileSize crop levels
        ((Tile.ofCell tileSize maxLevel level x y).quadrant q) = some c ∧
      (Tile.ofCell tileSize maxLevel level x y).quadrant q =
        .ofCell tileSize maxLevel (level + 1) x' y' := by
  let q : Fin 4 := ⟨x' % 2 + 2 * (y' % 2), by omega⟩
  have hq : (Tile.ofCell tileSize maxLevel level x y).quadrant q =
      .ofCell tileSize maxLevel (level + 1) x' y' := by
    rw [Tile.quadrant_ofCell hlt]
    congr 1 <;> simp only [q] <;> omega
  have hsome : (source.render tileSize crop levels
      ((Tile.ofCell tileSize maxLevel level x y).quadrant q)).isSome := by
    rw [source.render_isSome_iff, hq]
    exact hm
  obtain ⟨c, hc⟩ := Option.isSome_iff_exists.mp hsome
  exact ⟨q, c, hc, hq⟩

theorem exists_mem_children (ht : 0 < tileSize) {levels level x y : Nat} (hlt : level < maxLevel)
    {t : Tree (RenderedTile σ)}
    (h : source.render tileSize crop (levels + 1) (.ofCell tileSize maxLevel level x y) = some t) :
    ∃ c, c ∈ t.children := by
  obtain ⟨px, py, hp, hk⟩ := source.exists_mem_of_render h
  obtain ⟨u, v, rfl, rfl, hu, hv⟩ := (PixelBox.mem_square_iff (side_pos ht _)).mp hp
  have hone : level + 1 - level = 1 := by omega
  rw [div_side (Nat.le_succ level) hlt, hone, Nat.pow_one] at hu hv
  obtain ⟨q, c, hc, -⟩ := source.exists_quadrant levels hlt hu hv
    ⟨u, v, (PixelBox.mem_square_iff (side_pos ht _)).mpr ⟨u, v, rfl, rfl, rfl, rfl⟩, hk⟩
  exact ⟨c, (source.mem_render_children h).mpr ⟨q, hc⟩⟩

theorem exists_mem_preorder_render (ht : 0 < tileSize) {levels level x y : Nat}
    (hl : level + levels = maxLevel) {t : Tree (RenderedTile σ)}
    (h : source.render tileSize crop levels (.ofCell tileSize maxLevel level x y) = some t)
    {deeper x' y' : Nat} (hle : level ≤ deeper) (hd : deeper ≤ maxLevel)
    (hx : x' / 2 ^ (deeper - level) = x) (hy : y' / 2 ^ (deeper - level) = y)
    (hm : Meets tileSize maxLevel crop.Mem deeper x' y') :
    ∃ n ∈ t.preorder, n.value.tile = .ofCell tileSize maxLevel deeper x' y' := by
  -- The way down: the quadrant that holds the cell meets the crop box because the cell does.
  induction levels generalizing level x y t with
  | zero =>
    obtain rfl : level = deeper := by omega
    rw [Nat.sub_self, Nat.pow_zero, Nat.div_one] at hx hy
    exact ⟨t, t.self_mem_preorder, by rw [source.render_tile h, hx, hy]⟩
  | succ levels ih =>
    rcases Nat.eq_or_lt_of_le hle with rfl | hlt
    · rw [Nat.sub_self, Nat.pow_zero, Nat.div_one] at hx hy
      exact ⟨t, t.self_mem_preorder, by rw [source.render_tile h, hx, hy]⟩
    · have hexp : deeper - level = deeper - (level + 1) + 1 := by omega
      rw [hexp, Nat.pow_succ, ← Nat.div_div_eq_div_mul] at hx hy
      obtain ⟨q, c, hc, hq⟩ := source.exists_quadrant levels (by omega) hx hy
        (hm.above ht hlt hd)
      obtain ⟨n, hn, htile⟩ := ih (by omega) (hq ▸ hc) hlt rfl rfl
      have hchild := (source.mem_render_children h).mpr ⟨q, hc⟩
      exact ⟨n, Tree.mem_preorder_iff.mpr (.inr ⟨c, hchild, hn⟩), htile⟩

theorem nodup_preorder_render {levels level x y : Nat} (hl : level + levels = maxLevel)
    {t : Tree (RenderedTile σ)}
    (h : source.render tileSize crop levels (.ofCell tileSize maxLevel level x y) = some t) :
    (t.preorder.map fun n => n.value.tile.place).Nodup := by
  induction levels generalizing level x y t with
  | zero =>
    rw [Tree.preorder_eq, source.render_children_zero h]
    exact List.nodup_singleton _
  | succ levels ih =>
    have hquadrant (q : Fin 4) :
        (Tile.ofCell tileSize maxLevel level x y).quadrant q =
          .ofCell tileSize maxLevel (level + 1) (2 * x + q.val % 2) (2 * y + q.val / 2) :=
      Tile.quadrant_ofCell (by omega) x y q
    -- A place below a quadrant gives the place of the quadrant back.
    have hbelow {q : Fin 4} {c n : Tree (RenderedTile σ)}
        (hc : source.render tileSize crop levels
          ((Tile.ofCell tileSize maxLevel level x y).quadrant q) = some c)
        (hn : n ∈ c.preorder) :
        level + 1 ≤ n.value.tile.level ∧
          n.value.tile.x / 2 ^ (n.value.tile.level - (level + 1)) = 2 * x + q.val % 2 ∧
          n.value.tile.y / 2 ^ (n.value.tile.level - (level + 1)) = 2 * y + q.val / 2 := by
      rw [hquadrant] at hc
      obtain ⟨deeper, left, x', y', -, hle, hr, hx, hy⟩ :=
        source.mem_preorder_render (by omega) hc hn
      rw [source.render_tile hr]
      exact ⟨hle, hx, hy⟩
    rw [Tree.preorder_eq, List.map_cons, List.nodup_cons, List.map_flatMap, List.nodup_flatMap]
    refine ⟨?_, ?_, ?_⟩
    · intro hmem
      obtain ⟨c, hc, hcn⟩ := List.mem_flatMap.mp hmem
      obtain ⟨n, hn, hplace⟩ := List.mem_map.mp hcn
      obtain ⟨q, hq⟩ := (source.mem_render_children h).mp hc
      have hlevel := (hbelow hq hn).1
      have hroot := congrArg Prod.fst hplace
      rw [source.render_tile h] at hroot
      simp only [Tile.place, Tile.ofCell] at hroot
      omega
    · intro c hc
      obtain ⟨q, hq⟩ := (source.mem_render_children h).mp hc
      rw [hquadrant] at hq
      exact ih (by omega) hq
    · rw [source.render_children_succ h, List.pairwise_filterMap]
      refine (List.nodup_finRange 4).imp fun {q q'} hne c hc c' hc' => ?_
      intro place hp hp'
      obtain ⟨n, hn, rfl⟩ := List.mem_map.mp hp
      obtain ⟨n', hn', hplace⟩ := List.mem_map.mp hp'
      simp only [Tile.place, Prod.mk.injEq] at hplace
      have hb := hbelow hc hn
      have hb' := hbelow hc' hn'
      rw [hplace.1, hplace.2.1, hplace.2.2] at hb'
      apply hne
      ext
      omega

private theorem sublist_map_filterMap {β γ δ : Type} (f : β → Option γ) (g : γ → δ) (k : β → δ)
    (hk : ∀ b c, f b = some c → g c = k b) (bs : List β) :
    ((bs.filterMap f).map g).Sublist (bs.map k) := by
  induction bs with
  | nil => exact .refl _
  | cons b bs ih =>
    cases hb : f b with
    | none =>
      rw [List.filterMap_cons_none hb, List.map_cons]
      exact ih.cons _
    | some c =>
      rw [List.filterMap_cons_some hb, List.map_cons, List.map_cons, hk b c hb]
      exact ih.cons_cons _

/-- The tiles of a rendering from the root are the cells that meet the crop box. -/
theorem isCellTree_render (ht : 0 < tileSize) {t : Tree (RenderedTile σ)}
    (h : source.render tileSize crop maxLevel (.ofCell tileSize maxLevel 0 0 0) = some t) :
    IsCellTree tileSize maxLevel crop.Mem (t.map RenderedTile.tile) := by
  have hl : 0 + maxLevel = maxLevel := Nat.zero_add _
  have hnode {n : TileTree} (hn : n ∈ (t.map RenderedTile.tile).preorder) :
      ∃ m ∈ t.preorder, m.map RenderedTile.tile = n := by
    rw [Tree.preorder_map] at hn
    exact List.mem_map.mp hn
  have hmap {m : Tree (RenderedTile σ)} (hm : m ∈ t.preorder) :
      m.map RenderedTile.tile ∈ (t.map RenderedTile.tile).preorder := by
    rw [Tree.preorder_map]
    exact List.mem_map_of_mem hm
  constructor
  case tile =>
    intro n hn
    obtain ⟨m, hm, rfl⟩ := hnode hn
    obtain ⟨level, left, x, y, -, -, hr, -⟩ := source.mem_preorder_render hl h hm
    rw [Tree.value_map, source.render_tile hr]
    rfl
  case occurs_iff =>
    intro level x y
    constructor
    · rintro ⟨n, hn, hplace⟩
      obtain ⟨m, hm, rfl⟩ := hnode hn
      obtain ⟨deeper, left, x', y', hdl, -, hr, hx, hy⟩ := source.mem_preorder_render hl h hm
      rw [Tree.value_map, source.render_tile hr] at hplace
      obtain ⟨rfl, rfl, rfl⟩ : deeper = level ∧ x' = x ∧ y' = y := by
        simpa only [Tile.place, Tile.ofCell, Prod.mk.injEq] using hplace
      rw [Nat.sub_zero] at hx hy
      have hmeets := source.exists_mem_of_render hr
      exact ⟨by omega, Nat.lt_of_div_eq_zero (Nat.two_pow_pos _) hx,
        Nat.lt_of_div_eq_zero (Nat.two_pow_pos _) hy, hmeets⟩
    · rintro ⟨hle, hx, hy, hmeets⟩
      obtain ⟨m, hm, htile⟩ := source.exists_mem_preorder_render ht hl h (Nat.zero_le _) hle
        (Nat.div_eq_of_lt hx) (Nat.div_eq_of_lt hy) hmeets
      refine ⟨m.map RenderedTile.tile, hmap hm, ?_⟩
      rw [Tree.value_map, htile]
      rfl
  case once =>
    have hnodup := source.nodup_preorder_render hl h
    rw [Tree.preorder_map, List.map_map]
    simpa only [Function.comp_def, Tree.value_map] using hnodup
  case inOrder =>
    intro n hn
    obtain ⟨m, hm, rfl⟩ := hnode hn
    obtain ⟨level, left, x, y, hdl, -, hr, -⟩ := source.mem_preorder_render hl h hm
    rw [Tree.children_map, List.map_map, Tree.value_map, source.render_tile hr]
    cases left with
    | zero =>
      rw [source.render_children_zero hr]
      exact List.nil_sublist _
    | succ left =>
      rw [source.render_children_succ hr]
      refine sublist_map_filterMap _ _
        (fun q : Fin 4 => (level + 1, 2 * x + q.val % 2, 2 * y + q.val / 2)) ?_ (List.finRange 4)
      intro q c hc
      rw [Function.comp_apply, Tree.value_map, source.render_tile hc,
        Tile.quadrant_ofCell (by omega)]
      rfl
  case leaf_iff =>
    intro n hn
    obtain ⟨m, hm, rfl⟩ := hnode hn
    obtain ⟨level, left, x, y, hdl, -, hr, -⟩ := source.mem_preorder_render hl h hm
    rw [Tree.children_map, List.map_eq_nil_iff, Tree.value_map, source.render_tile hr]
    change m.children = [] ↔ level = maxLevel
    cases left with
    | zero => exact iff_of_true (source.render_children_zero hr) hdl
    | succ left =>
      refine iff_of_false (fun hnil => ?_) (by omega)
      obtain ⟨c, hc⟩ := source.exists_mem_children ht (by omega) hr
      rw [hnil] at hc
      cases hc

end TileSource
end TilePyramid
