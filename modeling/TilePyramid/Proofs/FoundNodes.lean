import TilePyramid.Proofs.LeafCount
import TilePyramid.Proofs.TilePaths

/-!
# Nodes found by their paths

Every child extends the path of its parent by one digit, and no two children by the same. So the
digits of a path lead down to the one node that has it, or to a place where the tree ends. Main
statement: walking over a tree lists its nodes in pre-order and counts them, and in a generated tree
a search finds the node of the given path, if there is one.
-/
namespace TilePyramid

namespace Tree

variable {β : Type}

/-- What holds of a tree as soon as it holds of its children holds of every tree. -/
theorem children_induction {P : Tree β → Prop} (h : ∀ t, (∀ c ∈ t.children, P c) → P t)
    (t : Tree β) : P t := by
  apply h
  intro c hc
  exact children_induction h c
termination_by sizeOf t
decreasing_by
  cases t
  have := List.sizeOf_lt_of_mem hc
  simp only [children, node.sizeOf_spec] at this ⊢
  omega

end Tree

theorem textAfter?_eq_some_iff {start text rest : List Char} :
    textAfter? start text = some rest ↔ text = start ++ rest := by
  induction start generalizing text with
  | nil => simp [textAfter?]
  | cons s start ih =>
    cases text with
    | nil => simp [textAfter?]
    | cons c text =>
      by_cases hsame : s = c
      · simp [textAfter?, hsame, ih]
      · simp [textAfter?, hsame, Ne.symm hsame]

namespace TileTree

/-- Children extend the path of their parent by one digit each, all by different ones. -/
structure BranchesByDigits (t : TileTree) : Prop where
  child : ∀ n ∈ t.preorder, ∀ c ∈ n.children,
    ∃ digit, c.value.path = n.value.path.push digit
  apart : ∀ n ∈ t.preorder, (n.children.map fun c => c.value.path).Nodup

variable {t c n : TileTree}

theorem BranchesByDigits.of_mem_children (h : t.BranchesByDigits) (hc : c ∈ t.children) :
    c.BranchesByDigits where
  child m hm := h.child m (Tree.mem_preorder_iff.mpr (.inr ⟨c, hc, hm⟩))
  apart m hm := h.apart m (Tree.mem_preorder_iff.mpr (.inr ⟨c, hc, hm⟩))

theorem BranchesByDigits.path_isPrefix (h : t.BranchesByDigits) (hn : n ∈ t.preorder) :
    t.path.toList <+: n.path.toList := by
  have hway := Tree.reflTransGen_of_mem_preorder h.child hn
  clear hn
  induction hway with
  | refl => exact List.prefix_refl _
  | tail _ hstep ih =>
    obtain ⟨digit, hdigit⟩ := hstep
    refine ih.trans ?_
    rw [path, path, hdigit, String.toList_push]
    exact List.prefix_append _ _

theorem BranchesByDigits.exists_digit (h : t.BranchesByDigits) (hc : c ∈ t.children)
    (hn : n ∈ c.preorder) :
    ∃ digit, c.path = t.path.push digit ∧ t.path.toList ++ [digit] <+: n.path.toList := by
  obtain ⟨digit, hdigit⟩ := h.child t t.self_mem_preorder c hc
  refine ⟨digit, hdigit, ?_⟩
  have hbelow := (h.of_mem_children hc).path_isPrefix hn
  rwa [path, hdigit, String.toList_push] at hbelow

theorem BranchesByDigits.eq_of_path (h : t.BranchesByDigits) (hn : n ∈ t.preorder)
    (hpath : n.path = t.path) : n = t := by
  rcases Tree.mem_preorder_iff.mp hn with rfl | ⟨c, hc, hnc⟩
  · rfl
  · obtain ⟨digit, -, hbelow⟩ := h.exists_digit hc hnc
    have hlength := hbelow.length_le
    simp [hpath] at hlength

theorem findBelow?_eq_some_iff {p childPath : String} {cs : List TileTree}
    (hcs : (cs.map path).Nodup) :
    findBelow? p childPath cs = some n ↔ ∃ c ∈ cs, c.path = childPath ∧ c.find? p = some n := by
  induction cs with
  | nil => simp [findBelow?]
  | cons c cs ih =>
    rw [List.map_cons, List.nodup_cons] at hcs
    rw [findBelow?]
    by_cases hpath : c.path = childPath
    · -- The search goes no further, and no later child has the path.
      have hlater (d : TileTree) (hd : d ∈ cs) : d.path ≠ childPath := by
        intro hsame
        exact hcs.1 (List.mem_map.mpr ⟨d, hd, hsame.trans hpath.symm⟩)
      rw [if_pos hpath]
      constructor
      · intro hfound
        exact ⟨c, List.mem_cons_self, hpath, hfound⟩
      · rintro ⟨d, hd, hsame, hfound⟩
        rcases List.mem_cons.mp hd with rfl | hd
        · exact hfound
        · exact absurd hsame (hlater d hd)
    · simp [hpath, ih hcs.2]

theorem find?_eq (p : String) (t : TileTree) : t.find? p =
    match textAfter? t.path.toList p.toList with
    | none => none
    | some [] => some t
    | some (digit :: _) => findBelow? p (t.path.push digit) t.children := by
  cases t
  rw [find?]
  rfl

/-- A search finds the node of the given path. -/
theorem BranchesByDigits.find?_eq_some_iff (h : t.BranchesByDigits) (p : String) :
    t.find? p = some n ↔ n ∈ t.preorder ∧ n.path = p := by
  induction t using Tree.children_induction with
  | h t ih =>
    rw [find?_eq]
    cases hafter : textAfter? (path t).toList p.toList with
    | none =>
      simp only [reduceCtorEq, false_iff]
      rintro ⟨hn, rfl⟩
      obtain ⟨rest, hrest⟩ := h.path_isPrefix hn
      rw [textAfter?_eq_some_iff.mpr hrest.symm] at hafter
      cases hafter
    | some rest =>
      have hp := textAfter?_eq_some_iff.mp hafter
      cases rest with
      | nil =>
        rw [List.append_nil, String.toList_inj] at hp
        simp only [Option.some.injEq, hp]
        constructor
        · rintro rfl
          exact ⟨t.self_mem_preorder, rfl⟩
        · rintro ⟨hn, hpath⟩
          exact (h.eq_of_path hn hpath).symm
      | cons digit rest =>
        simp only [findBelow?_eq_some_iff (h.apart t t.self_mem_preorder)]
        constructor
        · rintro ⟨c, hc, -, hfound⟩
          obtain ⟨hn, hpath⟩ := (ih c hc (h.of_mem_children hc)).mp hfound
          exact ⟨Tree.mem_preorder_iff.mpr (.inr ⟨c, hc, hn⟩), hpath⟩
        · rintro ⟨hn, rfl⟩
          rcases Tree.mem_preorder_iff.mp hn with rfl | ⟨c, hc, hnc⟩
          · simp at hp
          · obtain ⟨digit', hchild, hbelow⟩ := h.exists_digit hc hnc
            rw [hp, List.prefix_append_right_inj, List.cons_prefix_cons] at hbelow
            obtain ⟨rfl, -⟩ := hbelow
            exact ⟨c, hc, hchild, (ih c hc (h.of_mem_children hc)).mpr ⟨hnc, rfl⟩⟩

end TileTree

theorem Tile.IsPlaced.place_eq_of_path {t t' : Tile} (h : t.IsPlaced) (h' : t'.IsPlaced)
    (hpath : t.path = t'.path) : t.place = t'.place := by
  rw [h.path_eq, h'.path_eq] at hpath
  obtain ⟨hlevel, hx, hy⟩ := placeDigits_inj h.x_lt h.y_lt h'.x_lt h'.y_lt hpath
  rw [place, place, hlevel, hx, hy]

section cells
variable {tileSize maxLevel : Nat} {kept : Int → Int → Prop} {root n c : TileTree}

theorem IsCellTree.exists_quadrant (h : IsCellTree tileSize maxLevel kept root)
    (hn : n ∈ root.preorder) (hc : c ∈ n.children) :
    ∃ q : Fin 4, c.value.place =
      (n.value.level + 1, 2 * n.value.x + q.val % 2, 2 * n.value.y + q.val / 2) := by
  have hplace := (h.inOrder n hn).subset (List.mem_map_of_mem hc)
  simp only [List.mem_cons, List.not_mem_nil, or_false] at hplace
  rcases hplace with hplace | hplace | hplace | hplace
  · exact ⟨0, hplace⟩
  · exact ⟨1, hplace⟩
  · exact ⟨2, hplace⟩
  · exact ⟨3, hplace⟩

theorem IsCellTree.branchesByDigits (h : IsCellTree tileSize maxLevel kept root) :
    root.BranchesByDigits where
  child n hn c hc := by
    obtain ⟨q, hq⟩ := h.exists_quadrant hn hc
    simp only [Tile.place, Prod.mk.injEq] at hq
    refine ⟨quadrantDigit q, ?_⟩
    rw [(h.isPlaced (Tree.mem_preorder_of_mem_children hn hc)).path_eq, (h.isPlaced hn).path_eq,
      hq.1, hq.2.1, hq.2.2, placeDigits_succ]
  apart n hn := by
    have hplaces : (n.children.map fun c => c.value.place).Nodup := by
      refine (h.inOrder n hn).nodup ?_
      simp
    refine List.Nodup.map_on ?_ (List.Nodup.of_map _ hplaces)
    intro c hc d hd hpath
    have hplaced {e : TileTree} (he : e ∈ n.children) : e.value.IsPlaced :=
      h.isPlaced (Tree.mem_preorder_of_mem_children hn he)
    exact List.inj_on_of_nodup_map hplaces hc hd ((hplaced hc).place_eq_of_path (hplaced hd) hpath)

end cells

namespace Generator

variable {α σ : Type} [Arith α] [NumberText α] [Arith σ]

theorem exists_tileSize_of_plan {g : Generator α} {source : TileSource σ} {root : TileTree}
    (h : (g.plan source).outcome = .ok root) :
    ∃ tileSize, g.tileSize = some tileSize ∧ 0 < tileSize := by
  cases ht : g.tileSize with
  | none =>
    rw [plan, ht] at h
    split at h <;> cases h
  | some tileSize =>
    refine ⟨tileSize, rfl, ?_⟩
    obtain ⟨rendered, -, -, -, -, hr, -⟩ := exists_render_of_plan ht h
    obtain ⟨px, py, hmem, -⟩ := source.exists_mem_of_render hr
    by_contra hzero
    obtain rfl : tileSize = 0 := by omega
    simp [Tile.ofCell, PixelBox.square, PixelBox.ofSize, PixelBox.Mem] at hmem
    omega

/-- A walk over a tree lists its nodes in pre-order, as many as are counted, and among them as many
without children as leaves are counted. In the tree of a generation that ends well a search for a
path finds the node of that path, and nothing if there is none. -/
theorem walk_and_find {β S : Type} :
    (∀ t : Tree β, t.walk = t.preorder ∧ t.count = t.walk.length ∧
      t.leafCount = (t.walk.filter Tree.isLeaf).length) ∧
    ∀ (g : Generator α) (source : TileSource σ) (w : TileWriter (StateM S) σ)
      (report : α → StateM S Unit) (s : S) (root : TileTree),
      ((g.generate source w report).run s).1.1 = .ok root →
        ∀ (p : String) (n : TileTree), root.find? p = some n ↔ n ∈ root.walk ∧ n.path = p := by
  constructor
  · intro t
    rw [t.walk_eq_preorder, t.length_preorder, ← List.countP_eq_length_filter]
    exact ⟨rfl, rfl, t.leafCount_eq_countP⟩
  · intro g source w report s root h p n
    obtain ⟨tileSize, ht, hpos⟩ := exists_tileSize_of_plan (plan_outcome_of_generate h)
    rw [Tree.walk_eq_preorder]
    exact (generate_isCellTree ht hpos h).branchesByDigits.find?_eq_some_iff p

/-- An image of four pixels is cut to its last pixel: there is a tile for it, and none beside it. -/
theorem walk_and_find_corner :
    ∃ root, (((ofCrop 1 ⟨1, 1, 5, 5⟩).generate
        (Raster.blank 2 2 1 .u8 : Raster Float32).tileSource TileWriter.recorder
          fun _ => pure ()).run []).1.1 = .ok root ∧
      root.find? "3" = some (.node (.ofCell 1 1 1 1 1) []) ∧ root.find? "1" = none := by
  let leaf : TileTree := .node (.ofCell 1 1 1 1 1) []
  let root : TileTree := .node (.ofCell 1 1 0 0 0) [leaf]
  have hplan : ((ofCrop 1 ⟨1, 1, 5, 5⟩).plan
      (Raster.blank 2 2 1 .u8 : Raster Float32).tileSource).outcome = .ok root := rfl
  have hroot := generate_recorder (by decide) hplan
  have hfind := (@walk_and_find _ _ _ _ _ Tile _).2 _ _ _ _ _ _ hroot
  have hwalk : root.walk = [root, leaf] := by
    rw [Tree.walk_eq_preorder]
    rfl
  have hrootPath : root.path ≠ "1" := by decide
  have hleafPath : leaf.path ≠ "1" := by decide
  refine ⟨root, hroot, ?_, ?_⟩
  · rw [hfind, hwalk]
    exact ⟨List.mem_cons_of_mem _ List.mem_cons_self, by decide⟩
  · rw [Option.eq_none_iff_forall_ne_some]
    intro n hn
    rw [hfind, hwalk, List.mem_pair] at hn
    obtain ⟨rfl | rfl, hpath⟩ := hn
    · exact hrootPath hpath
    · exact hleafPath hpath

end Generator
end TilePyramid
