import TilePyramid.Proofs.Generation
import TilePyramid.Proofs.JoinedPaths
import Mathlib

/-!
# Paths of tiles

A tile lies at a few directories and a word, with the file type behind a dot. The directories and
the word name the cell of the tile: numbers and quadrant digits are told apart by their texts, and
the rows that are counted from below by the rows counted from above. Main statement: no two tiles of
a tree lie at the same path, whatever the mode, the name of the pyramid and the file type.
-/
namespace TilePyramid

/-- A text without slashes and dots, which is not empty. -/
structure IsWord (s : String) : Prop where
  nonempty : s ≠ ""
  no_slash : '/' ∉ s.toList
  no_dot : '.' ∉ s.toList

section words

theorem IsWord.exists_mem {s : String} (hs : IsWord s) : ∃ c, c ∈ s.toList ∧ c ≠ '.' := by
  have hlist : s.toList ≠ [] := fun h => hs.nonempty (String.toList_eq_nil_iff.mp h)
  obtain ⟨c, hc⟩ := List.exists_mem_of_ne_nil _ hlist
  exact ⟨c, hc, fun h => hs.no_dot (h ▸ hc)⟩

theorem IsWord.isName {s : String} (hs : IsWord s) : Path.IsName s := by
  obtain ⟨c, hc, hdot⟩ := hs.exists_mem
  exact .of_mem hs.no_slash hc hdot

theorem IsWord.isName_dot {s fileType : String} (hs : IsWord s) (h : '/' ∉ fileType.toList) :
    Path.IsName (s ++ "." ++ fileType) := by
  obtain ⟨c, hc, hdot⟩ := hs.exists_mem
  refine .of_mem (c := c) ?_ ?_ hdot
  · simp [hs.no_slash, h]
  · simp [hc]

theorem IsWord.append {s t : String} (hs : IsWord s) (ht : IsWord t) : IsWord (s ++ t) where
  nonempty h := hs.nonempty (String.append_eq_empty_iff.mp h).1
  no_slash := by simp [hs.no_slash, ht.no_slash]
  no_dot := by simp [hs.no_dot, ht.no_dot]

theorem isWord_of_isDigit {s : String} (hne : s ≠ "") (hs : ∀ c ∈ s.toList, c.isDigit = true) :
    IsWord s where
  nonempty := hne
  no_slash h := absurd (hs _ h) (by decide)
  no_dot h := absurd (hs _ h) (by decide)

theorem isDigit_of_mem_toString {n : Nat} {c : Char} (h : c ∈ (toString n).toList) :
    c.isDigit = true := by
  change c ∈ n.repr.toList at h
  rw [Nat.toList_repr] at h
  exact Nat.isDigit_of_mem_toDigits (by decide) (by decide) h

theorem isWord_toString (n : Nat) : IsWord (toString n) := by
  refine isWord_of_isDigit ?_ fun c => isDigit_of_mem_toString
  rw [ne_eq, ← String.toList_eq_nil_iff]
  exact Nat.toList_repr ▸ Nat.toDigits_ne_nil

theorem toString_inj {m n : Nat} : toString m = toString n ↔ m = n := Nat.repr_inj

end words

section digits

theorem isDigit_of_mem_placeDigits {level x y : Nat} {c : Char}
    (h : c ∈ (placeDigits level x y).toList) : c.isDigit = true := by
  rw [placeDigits, String.toList_ofList] at h
  obtain ⟨k, -, rfl⟩ := List.mem_map.mp h
  have hdigit : ∀ d < 4, (Nat.digitChar d).isDigit = true := by decide
  exact hdigit _ (by omega)

theorem length_placeDigits (level x y : Nat) : (placeDigits level x y).length = level := by
  rw [placeDigits, String.length_ofList, List.length_map, List.length_range]

theorem placeDigits_eq_empty_iff {level x y : Nat} : placeDigits level x y = "" ↔ level = 0 := by
  rw [← String.length_eq_zero_iff, length_placeDigits]

theorem placeDigits_inj {level level' x y x' y' : Nat} (hx : x < 2 ^ level) (hy : y < 2 ^ level)
    (hx' : x' < 2 ^ level') (hy' : y' < 2 ^ level')
    (h : placeDigits level x y = placeDigits level' x' y') :
    level = level' ∧ x = x' ∧ y = y' := by
  have hlevel := congrArg String.length h
  rw [length_placeDigits, length_placeDigits] at hlevel
  subst hlevel
  refine ⟨rfl, ?_⟩
  induction level generalizing x y x' y' with
  | zero => omega
  | succ level ih =>
    -- The last digit is made of the lowest bits; the digits before it name the cell above.
    have hsplit (x y : Nat) : placeDigits (level + 1) x y =
        (placeDigits level (x / 2) (y / 2)).push
          (quadrantDigit ⟨x % 2 + 2 * (y % 2), by omega⟩) := by
      rw [← placeDigits_succ]
      congr 1 <;> simp only <;> omega
    rw [hsplit, hsplit, String.push_inj] at h
    obtain ⟨habove, hlast⟩ := h
    obtain ⟨hx, hy⟩ := ih (by omega) (by omega) (by omega) (by omega) habove
    have hquadrant : ∀ q q' : Fin 4, quadrantDigit q = quadrantDigit q' → q = q' := by decide
    have hbits := congrArg Fin.val (hquadrant _ _ hlast)
    simp only at hbits
    omega

end digits

/-- A tile is named for a cell of its level. -/
structure Tile.IsPlaced (t : Tile) : Prop where
  path_eq : t.path = placeDigits t.level t.x t.y
  x_lt : t.x < 2 ^ t.level
  y_lt : t.y < 2 ^ t.level

theorem IsCellTree.isPlaced {tileSize maxLevel : Nat} {kept : Int → Int → Prop}
    {root n : TileTree} (h : IsCellTree tileSize maxLevel kept root) (hn : n ∈ root.preorder) :
    n.value.IsPlaced := by
  obtain ⟨-, hx, hy, -⟩ := (h.occurs_iff _ _ _).mp ⟨n, hn, rfl⟩
  exact ⟨congrArg Tile.path (h.tile n hn), hx, hy⟩

theorem Tile.IsPlaced.flippedRow_add {t : Tile} (h : t.IsPlaced) :
    t.flippedRow + 1 + t.y = 2 ^ t.level := by
  have hy := h.y_lt
  rw [flippedRow, Nat.one_shiftLeft]
  omega

theorem Tile.IsPlaced.stem_eq {t : Tile} (h : t.IsPlaced) :
    (t.level = 0 ∧ t.stem = "root") ∨ (t.level ≠ 0 ∧ t.stem = placeDigits t.level t.x t.y) := by
  by_cases hlevel : t.level = 0
  · refine .inl ⟨hlevel, if_pos ?_⟩
    rw [h.path_eq, placeDigits_eq_empty_iff.mpr hlevel]
    rfl
  · refine .inr ⟨hlevel, (if_neg ?_).trans h.path_eq⟩
    rw [h.path_eq, String.isEmpty_iff, placeDigits_eq_empty_iff]
    exact hlevel

theorem Tile.IsPlaced.isWord_stem {t : Tile} (h : t.IsPlaced) : IsWord t.stem := by
  rcases h.stem_eq with ⟨-, hstem⟩ | ⟨hlevel, hstem⟩
  · rw [hstem]
    exact ⟨by decide, by decide, by decide⟩
  · rw [hstem]
    exact isWord_of_isDigit (fun h => hlevel (placeDigits_eq_empty_iff.mp h)) fun c =>
      isDigit_of_mem_placeDigits

theorem Tile.IsPlaced.place_eq_of_stem {t t' : Tile} (h : t.IsPlaced) (h' : t'.IsPlaced)
    (hstem : t.stem = t'.stem) : t.place = t'.place := by
  -- The first tile has a word in place of digits, and no other tile has that name.
  have hroot {level x y : Nat} : placeDigits level x y ≠ "root" := by
    intro hdigits
    have hr : 'r' ∈ (placeDigits level x y).toList := hdigits ▸ by decide
    exact absurd (isDigit_of_mem_placeDigits hr) (by decide)
  have hcell (hdigits : placeDigits t.level t.x t.y = placeDigits t'.level t'.x t'.y) :
      t.place = t'.place := by
    obtain ⟨hlevel, hx, hy⟩ := placeDigits_inj h.x_lt h.y_lt h'.x_lt h'.y_lt hdigits
    rw [place, place, hlevel, hx, hy]
  rcases h.stem_eq with ⟨hlevel, heq⟩ | ⟨-, heq⟩ <;>
    rcases h'.stem_eq with ⟨hlevel', heq'⟩ | ⟨-, heq'⟩ <;> rw [heq, heq'] at hstem
  · refine hcell ?_
    rw [placeDigits_eq_empty_iff.mpr hlevel, placeDigits_eq_empty_iff.mpr hlevel']
  · exact absurd hstem.symm hroot
  · exact absurd hstem hroot
  · exact hcell hstem

namespace OutputMode

/-- The directories of a tile. -/
def tileDirs (m : OutputMode) (t : Tile) : List String :=
  match m with
  | plain | kml | gigapan => []
  | tms | gmap => [toString t.level, toString t.x]
  | uniview => [toString t.level, toString t.y]
  | celestia => ["level" ++ toString t.level]

/-- The name of the file of a tile, up to its dot. -/
def tileWord (m : OutputMode) (t : Tile) : String :=
  match m with
  | plain | kml | gigapan => t.stem
  | tms => toString t.flippedRow
  | gmap => toString t.y
  | uniview => toString t.x
  | celestia => "tx_" ++ toString t.x ++ "_" ++ toString t.y

theorem tileSteps_eq (m : OutputMode) (fileType : String) (t : Tile) :
    m.tileSteps fileType t = m.tileDirs t ++ [m.tileWord t ++ "." ++ fileType] := by
  cases m <;> rfl

theorem isWord_tileWord (m : OutputMode) {t : Tile} (h : t.IsPlaced) : IsWord (m.tileWord t) := by
  cases m with
  | plain | kml | gigapan => exact h.isWord_stem
  | tms | gmap | uniview => exact isWord_toString _
  | celestia =>
    have hword (s : String) (hs : s = "tx_" ∨ s = "_") : IsWord s := by
      rcases hs with rfl | rfl <;> exact ⟨by decide, by decide, by decide⟩
    exact (((hword _ (.inl rfl)).append (isWord_toString _)).append (hword _ (.inr rfl))).append
      (isWord_toString _)

theorem isWord_of_mem_tileDirs {m : OutputMode} {t : Tile} {s : String} (hs : s ∈ m.tileDirs t) :
    IsWord s := by
  have hnumbers {a b : Nat} (hs : s ∈ [toString a, toString b]) : IsWord s := by
    rcases List.mem_pair.mp hs with rfl | rfl <;> exact isWord_toString _
  cases m with
  | plain | kml | gigapan => cases hs
  | tms | gmap | uniview => exact hnumbers hs
  | celestia =>
    obtain rfl := List.mem_singleton.mp hs
    have hlevel : IsWord "level" := ⟨by decide, by decide, by decide⟩
    exact hlevel.append (isWord_toString _)

private theorem two_numbers_inj {x y x' y' : Nat}
    (h : "tx_" ++ toString x ++ "_" ++ toString y = "tx_" ++ toString x' ++ "_" ++ toString y') :
    x = x' ∧ y = y' := by
  have hbar {n : Nat} : '_' ∉ (toString n).toList := fun hmem =>
    absurd (isDigit_of_mem_toString hmem) (by decide)
  rw [String.append_assoc, String.append_assoc, String.append_assoc, String.append_assoc,
    String.append_right_inj, ← String.toList_inj] at h
  simp only [String.toList_append] at h
  obtain ⟨hx, -, hy⟩ := (List.append_cons_inj_of_notMem hbar hbar).mp h
  exact ⟨toString_inj.mp (String.toList_inj.mp hx), toString_inj.mp (String.toList_inj.mp hy)⟩

theorem place_eq_of_tileWord {m : OutputMode} {t t' : Tile} (h : t.IsPlaced) (h' : t'.IsPlaced)
    (hdirs : m.tileDirs t = m.tileDirs t') (hword : m.tileWord t = m.tileWord t') :
    t.place = t'.place := by
  simp only [Tile.place, Prod.mk.injEq]
  cases m with
  | plain | kml | gigapan =>
    have hplace := h.place_eq_of_stem h' hword
    simpa only [Tile.place, Prod.mk.injEq] using hplace
  | tms =>
    simp only [tileDirs, List.cons.injEq, toString_inj, and_true] at hdirs
    -- Rows are counted from below; on one level this turns them around.
    have hrow : t.flippedRow = t'.flippedRow := toString_inj.mp hword
    have hsum := h.flippedRow_add
    have hsum' := h'.flippedRow_add
    rw [hrow, hdirs.1] at hsum
    exact ⟨hdirs.1, hdirs.2, by omega⟩
  | gmap =>
    simp only [tileDirs, List.cons.injEq, toString_inj, and_true] at hdirs
    exact ⟨hdirs.1, hdirs.2, toString_inj.mp hword⟩
  | uniview =>
    simp only [tileDirs, List.cons.injEq, toString_inj, and_true] at hdirs
    exact ⟨hdirs.1, toString_inj.mp hword, hdirs.2⟩
  | celestia =>
    simp only [tileDirs, List.cons.injEq, String.append_right_inj, toString_inj, and_true] at hdirs
    exact ⟨hdirs, two_numbers_inj hword⟩

end OutputMode

namespace PyramidInfo

variable {info : PyramidInfo}

theorem components_below {steps : List String} (h : ∀ s ∈ steps, Path.IsName s) :
    (info.below steps).components = info.name.components ++ steps.map Component.name := by
  have run (p : Path) : (steps.foldl (fun path s => path.join ⟨s⟩) p).components =
      p.components ++ steps.map Component.name := by
    induction steps generalizing p with
    | nil => exact (List.append_nil _).symm
    | cons s steps ih =>
      rw [List.foldl_cons, ih (fun t ht => h t (List.mem_cons_of_mem s ht)),
        Path.components_join_name p (h s List.mem_cons_self), List.append_assoc]
      rfl
  exact run info.name

theorem components_tilePath (hslash : '/' ∉ info.fileType.toList) (m : OutputMode) {t : Tile}
    (ht : t.IsPlaced) : (info.tilePath m t).components =
      info.name.components ++
        (m.tileDirs t ++ [m.tileWord t ++ "." ++ info.fileType]).map Component.name := by
  rw [tilePath, components_below, OutputMode.tileSteps_eq]
  intro s hs
  rw [OutputMode.tileSteps_eq, List.mem_append, List.mem_singleton] at hs
  rcases hs with hs | rfl
  · exact (OutputMode.isWord_of_mem_tileDirs hs).isName
  · exact (OutputMode.isWord_tileWord m ht).isName_dot hslash

theorem place_eq_of_tilePath (hslash : '/' ∉ info.fileType.toList) {m : OutputMode} {t t' : Tile}
    (ht : t.IsPlaced) (ht' : t'.IsPlaced)
    (h : (info.tilePath m t).components = (info.tilePath m t').components) :
    t.place = t'.place := by
  rw [components_tilePath hslash m ht, components_tilePath hslash m ht', List.append_right_inj] at h
  have hnames : Function.Injective Component.name := fun _ _ => Component.name.inj
  obtain ⟨hdirs, hfile⟩ := List.append_inj' (hnames.list_map h) rfl
  have hword := List.singleton_inj.mp hfile
  rw [String.append_left_inj, String.append_left_inj] at hword
  exact OutputMode.place_eq_of_tileWord ht ht' hdirs hword

end PyramidInfo

section
variable {tileSize maxLevel : Nat} {kept : Int → Int → Prop} {root : TileTree}

/-- No two nodes of a tree have their tiles at the same path. -/
theorem IsCellTree.eq_of_tilePath (h : IsCellTree tileSize maxLevel kept root) {info : PyramidInfo}
    (hslash : '/' ∉ info.fileType.toList) {m : OutputMode} {n n' : TileTree}
    (hn : n ∈ root.preorder) (hn' : n' ∈ root.preorder)
    (hpath : (info.tilePath m n.value).components = (info.tilePath m n'.value).components) :
    n = n' := by
  have hplace := PyramidInfo.place_eq_of_tilePath hslash (h.isPlaced hn) (h.isPlaced hn') hpath
  exact List.inj_on_of_nodup_map h.once hn hn' hplace

theorem IsCellTree.nodup_tilePaths (h : IsCellTree tileSize maxLevel kept root)
    (info : PyramidInfo) (hslash : '/' ∉ info.fileType.toList) (m : OutputMode) :
    (root.preorder.map fun n => (info.tilePath m n.value).components).Nodup :=
  List.Nodup.map_on (fun _ hn _ hn' => h.eq_of_tilePath hslash hn hn') (List.Nodup.of_map _ h.once)

end
end TilePyramid
