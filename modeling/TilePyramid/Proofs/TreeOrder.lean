import TilePyramid.Pyramid.Tree
import Mathlib.Data.List.Perm.Basic

/-!
# Listings of trees

A node lies in the listing of a tree if it is the tree or lies in the listing of a child. The two
recursive listings hold the same nodes, and both follow a change of the values.
-/
namespace TilePyramid.Tree

variable {β γ : Type}

@[simp] theorem preorderAll_eq_flatMap (ts : List (Tree β)) :
    preorderAll ts = ts.flatMap preorder := by
  induction ts with
  | nil => rfl
  | cons t ts ih => rw [preorderAll, ih, List.flatMap_cons]

@[simp] theorem mapAll_eq_map (f : β → γ) (ts : List (Tree β)) :
    mapAll f ts = ts.map (map f) := by
  induction ts with
  | nil => rfl
  | cons t ts ih => rw [mapAll, ih, List.map_cons]

theorem preorder_eq (t : Tree β) : t.preorder = t :: t.children.flatMap preorder := by
  cases t
  rw [preorder, preorderAll_eq_flatMap]
  rfl

@[simp] theorem value_map (f : β → γ) (t : Tree β) : (t.map f).value = f t.value := by
  cases t
  rfl

@[simp] theorem children_map (f : β → γ) (t : Tree β) :
    (t.map f).children = t.children.map (map f) := by
  cases t
  rw [map, mapAll_eq_map]
  rfl

/-- The tree itself comes first, then the listings of its children. -/
theorem mem_preorder_iff {n t : Tree β} :
    n ∈ t.preorder ↔ n = t ∨ ∃ c ∈ t.children, n ∈ c.preorder := by
  rw [preorder_eq, List.mem_cons, List.mem_flatMap]

theorem self_mem_preorder (t : Tree β) : t ∈ t.preorder := mem_preorder_iff.mpr (.inl rfl)

theorem mem_preorder_of_mem_children {t n c : Tree β} (hn : n ∈ t.preorder)
    (hc : c ∈ n.children) : c ∈ t.preorder := by
  rcases mem_preorder_iff.mp hn with rfl | ⟨d, hd, hnd⟩
  · exact mem_preorder_iff.mpr (.inr ⟨c, hc, self_mem_preorder c⟩)
  · exact mem_preorder_iff.mpr (.inr ⟨d, hd, mem_preorder_of_mem_children hnd hc⟩)
termination_by sizeOf t
decreasing_by
  cases t
  have := List.sizeOf_lt_of_mem hd
  simp only [children, node.sizeOf_spec] at this ⊢
  omega

theorem reflTransGen_of_mem_preorder {r : Tree β → Tree β → Prop} {t n : Tree β}
    (h : ∀ m ∈ t.preorder, ∀ c ∈ m.children, r m c) (hn : n ∈ t.preorder) :
    Relation.ReflTransGen r t n := by
  rcases mem_preorder_iff.mp hn with rfl | ⟨c, hc, hnc⟩
  · exact .refl
  · have hbelow (m : Tree β) (hm : m ∈ c.preorder) (d : Tree β) (hd : d ∈ m.children) : r m d :=
      h m (mem_preorder_iff.mpr (.inr ⟨c, hc, hm⟩)) d hd
    exact .head (h t t.self_mem_preorder c hc) (reflTransGen_of_mem_preorder hbelow hnc)
termination_by sizeOf t
decreasing_by
  cases t
  have := List.sizeOf_lt_of_mem hc
  simp only [children, node.sizeOf_spec] at this ⊢
  omega

/-- With the nodes still to come on a stack, a tree is listed as by recursion. -/
theorem walkStack_eq (stack : List (Tree β)) : walkStack stack = preorderAll stack := by
  fun_induction walkStack stack with
  | case1 => rfl
  | case2 v cs stack ih =>
    rw [ih, preorderAll, preorder, preorderAll_eq_flatMap, preorderAll_eq_flatMap,
      preorderAll_eq_flatMap, List.flatMap_append, List.cons_append]

theorem walk_eq_preorder (t : Tree β) : t.walk = t.preorder := by
  rw [walk, walkStack_eq, preorderAll, preorderAll, List.append_nil]

mutual

theorem preorder_map (f : β → γ) : (t : Tree β) →
    (t.map f).preorder = t.preorder.map (map f)
  | node v cs => by
    rw [map, preorder, preorderAll_map f cs, preorder, List.map_cons, map]

theorem preorderAll_map (f : β → γ) : (ts : List (Tree β)) →
    preorderAll (mapAll f ts) = (preorderAll ts).map (map f)
  | [] => rfl
  | t :: ts => by
    rw [mapAll, preorderAll, preorder_map f t, preorderAll_map f ts, preorderAll, List.map_append]

end

mutual

theorem postorder_map (f : β → γ) : (t : Tree β) →
    (t.map f).postorder = t.postorder.map (map f)
  | node v cs => by
    rw [map, postorder, postorderAll_map f cs, postorder, List.map_append, List.map_singleton, map]

theorem postorderAll_map (f : β → γ) : (ts : List (Tree β)) →
    postorderAll (mapAll f ts) = (postorderAll ts).map (map f)
  | [] => rfl
  | t :: ts => by
    rw [mapAll, postorderAll, postorder_map f t, postorderAll_map f ts, postorderAll,
      List.map_append]

end

mutual

theorem postorder_perm_preorder : (t : Tree β) → t.postorder.Perm t.preorder
  | node v cs => by
    rw [postorder, preorder]
    exact List.perm_append_singleton _ _ |>.trans ((postorderAll_perm_preorderAll cs).cons _)

theorem postorderAll_perm_preorderAll : (ts : List (Tree β)) →
    (postorderAll ts).Perm (preorderAll ts)
  | [] => .refl _
  | t :: ts => by
    rw [postorderAll, preorderAll]
    exact (postorder_perm_preorder t).append (postorderAll_perm_preorderAll ts)

end

mutual

theorem length_preorder : (t : Tree β) → t.preorder.length = t.count
  | node v cs => by
    rw [preorder, List.length_cons, length_preorderAll cs, count, Nat.add_comm]

theorem length_preorderAll : (ts : List (Tree β)) → (preorderAll ts).length = countAll ts
  | [] => rfl
  | t :: ts => by
    rw [preorderAll, List.length_append, length_preorder t, length_preorderAll ts, countAll]

end

end TilePyramid.Tree
