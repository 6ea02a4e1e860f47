import TilePyramid.Proofs.TilePaths
import TilePyramid.Store.Memory

/-!
# Stored tiles

A map from paths keeps what is inserted at paths of their own, each value at its path. The tiles of
a tree have such paths, so the memory store ends with one tile for every node. Main statement: a
generation into an empty memory store stores exactly the tiles of its tree, and the tile that is
found at the path of a node is the one that was rendered for it.
-/
namespace TilePyramid

namespace Path

theorem same_iff {p q : Path} : p.same q = true ↔ p.components = q.components := beq_iff_eq

private theorem dropWhile_ne_append {c : Char} (cs ds : List Char) :
    ∃ rest, (cs ++ c :: ds).dropWhile (· ≠ c) = c :: (rest ++ ds) := by
  induction cs with
  | nil => exact ⟨[], by simp⟩
  | cons d cs ih =>
    by_cases hd : d = c
    · exact ⟨cs ++ [c], by simp [hd]⟩
    · obtain ⟨rest, hrest⟩ := ih
      exact ⟨rest, by simpa [hd] using hrest⟩

theorem isSome_splitExtension {s fileType : String} (hs : s ≠ "") :
    (splitExtension (s ++ "." ++ fileType)).2.isSome = true := by
  have hreverse : (s ++ "." ++ fileType).toList.reverse =
      fileType.toList.reverse ++ '.' :: s.toList.reverse := by
    simp
  obtain ⟨rest, hrest⟩ := dropWhile_ne_append (c := '.') fileType.toList.reverse s.toList.reverse
  have hlist : rest ++ s.toList.reverse ≠ [] := by simp [hs]
  obtain ⟨d, ds, hds⟩ := List.exists_cons_of_ne_nil hlist
  rw [hds, ← hreverse] at hrest
  simp only [splitExtension, hrest]
  rfl

end Path

namespace PathMap

variable {β : Type}

/-- Inserts the files in their order. -/
def insertAll (m : PathMap β) (files : List (Path × β)) : PathMap β :=
  files.foldl (fun m f => m.insert f.1 f.2) m

theorem find?_insert_of_ne (m : PathMap β) {path q : Path} (value : β)
    (h : path.components ≠ q.components) : (m.insert path value).find? q = m.find? q := by
  have hpath : path.same q = false := by rwa [Bool.eq_false_iff, ne_eq, Path.same_iff]
  simp only [insert, find?]
  induction m.entries with
  | nil => simp [insertInto, hpath]
  | cons e rest ih =>
    obtain ⟨p, v⟩ := e
    simp only [insertInto]
    split
    · next hsame =>
      have hp : p.same q = false := by
        rw [Bool.eq_false_iff, ne_eq, Path.same_iff, Path.same_iff.mp hsame]
        exact h
      simp [hp]
    · split
      · simp [hpath]
      · cases hp : p.same q with
        | true => simp [hp]
        | false => simpa [hp] using ih

theorem size_insert (m : PathMap β) {path : Path} (value : β) (h : m.find? path = none) :
    (m.insert path value).size = m.size + 1 := by
  rw [find?, Option.map_eq_none_iff, List.find?_eq_none] at h
  obtain ⟨entries⟩ := m
  simp only [insert, size] at h ⊢
  induction entries with
  | nil => rfl
  | cons e rest ih =>
    obtain ⟨p, v⟩ := e
    have hp : p.same path = false := by simpa using h _ List.mem_cons_self
    simp only [insertInto, hp]
    split
    · next hbefore => cases hbefore
    · split
      · rfl
      · rw [List.length_cons, List.length_cons, ih fun e he => h e (List.mem_cons_of_mem _ he)]

theorem find?_insertAll_of_ne (m : PathMap β) {files : List (Path × β)} {q : Path}
    (h : ∀ f ∈ files, f.1.components ≠ q.components) : (m.insertAll files).find? q = m.find? q := by
  induction files generalizing m with
  | nil => rfl
  | cons f files ih =>
    rw [insertAll, List.foldl_cons]
    exact (ih _ fun e he => h e (List.mem_cons_of_mem f he)).trans
      (m.find?_insert_of_ne f.2 (h f List.mem_cons_self))

theorem find?_insertAll_of_mem (m : PathMap β) {files : List (Path × β)}
    (hpaths : (files.map fun f => f.1.components).Nodup) {f : Path × β} (hf : f ∈ files) :
    (m.insertAll files).find? f.1 = some f.2 := by
  induction files generalizing m with
  | nil => cases hf
  | cons e files ih =>
    rw [List.map_cons, List.nodup_cons] at hpaths
    rw [insertAll, List.foldl_cons]
    rcases List.mem_cons.mp hf with rfl | hf
    · refine (find?_insertAll_of_ne _ fun e he heq => hpaths.1 ?_).trans (m.find?_insert_self _ _)
      exact heq ▸ List.mem_map_of_mem he
    · exact ih _ hpaths.2 hf

theorem size_insertAll (m : PathMap β) {files : List (Path × β)}
    (hpaths : (files.map fun f => f.1.components).Nodup) (h : ∀ f ∈ files, m.find? f.1 = none) :
    (m.insertAll files).size = m.size + files.length := by
  induction files generalizing m with
  | nil => rfl
  | cons f files ih =>
    rw [List.map_cons, List.nodup_cons] at hpaths
    -- The files behind the first are new to the map that holds it, since its path is its own.
    have hlater (e : Path × β) (he : e ∈ files) : (m.insert f.1 f.2).find? e.1 = none := by
      have hne : f.1.components ≠ e.1.components := by
        intro heq
        rw [heq] at hpaths
        exact hpaths.1 (List.mem_map_of_mem he)
      exact (m.find?_insert_of_ne f.2 hne).trans (h e (List.mem_cons_of_mem f he))
    rw [insertAll, List.foldl_cons]
    refine (ih _ hpaths.2 hlater).trans ?_
    rw [m.size_insert f.2 (h f List.mem_cons_self), List.length_cons]
    omega

end PathMap

namespace MemoryStore

variable {α σ β : Type}

/-- The memory store takes every tile that has an extension, and keeps the tiles of a plan in their
order. -/
theorem run_execute (p : Plan α σ β) (s : MemoryStore σ)
    (h : ∀ f ∈ p.tiles, ∃ ext, tileExtension f.1 = .ok ext) :
    ((p.execute writer fun _ => pure ()).run s).1 = p.outcome ∧
      ((p.execute writer fun _ => pure ()).run s).2.tiles = s.tiles.insertAll p.tiles := by
  -- By induction on the actions, from any store: only an action with a tile changes the tiles.
  have hperform (actions : List (Action α σ)) (s : MemoryStore σ)
      (h : ∀ f ∈ actions.filterMap Action.tile?, ∃ ext, tileExtension f.1 = .ok ext) :
      ∃ s', (Plan.perform writer (fun _ => pure ()) actions).run s = (.ok (), s') ∧
        s'.tiles = s.tiles.insertAll (actions.filterMap Action.tile?) := by
    induction actions generalizing s with
    | nil => exact ⟨s, rfl, rfl⟩
    | cons a rest ih =>
      cases a with
      | report f => exact ih s h
      | tile path raster =>
        rw [List.filterMap_cons] at h
        obtain ⟨ext, hext⟩ := h (path, raster) List.mem_cons_self
        obtain ⟨s', hrun, htiles⟩ := ih { s with tiles := s.tiles.insert path raster }
          fun f hf => h f (List.mem_cons_of_mem _ hf)
        refine ⟨s', ?_, htiles⟩
        rw [← hrun]
        simp only [Plan.perform, writer, hext]
        rfl
      | metadata path text =>
        obtain ⟨s', hrun, htiles⟩ := ih { s with metadata := s.metadata.insert path text } h
        exact ⟨s', hrun, htiles⟩
  obtain ⟨s', hrun, htiles⟩ := hperform p.actions s h
  rw [Plan.execute, StateT.run_bind, hrun]
  exact ⟨rfl, htiles⟩

end MemoryStore

theorem PyramidInfo.exists_tileExtension (info : PyramidInfo) (hslash : '/' ∉ info.fileType.toList)
    (m : OutputMode) {t : Tile} (ht : t.IsPlaced) :
    ∃ ext, tileExtension (info.tilePath m t) = .ok ext := by
  have hword := m.isWord_tileWord ht
  have hpath : info.tilePath m t =
      (info.below (m.tileDirs t)).join ⟨m.tileWord t ++ "." ++ info.fileType⟩ := by
    rw [tilePath, OutputMode.tileSteps_eq, below, List.foldl_append]
    rfl
  have hextension : ((info.tilePath m t).extension?).isSome = true := by
    rw [hpath, Path.extension?, Path.fileName?_join _ (hword.isName_dot hslash), Option.bind_some]
    exact Path.isSome_splitExtension hword.nonempty
  obtain ⟨ext, hext⟩ := Option.isSome_iff_exists.mp hextension
  exact ⟨ext, by rw [tileExtension, hext]⟩

namespace Generator

variable {α σ : Type} [Arith α] [NumberText α] [Arith σ]

theorem stored_tiles_of_plan {g : Generator α} {source : TileSource σ} {root : TileTree}
    {tileSize : Nat} (ht : g.tileSize = some tileSize) (hpos : 0 < tileSize)
    (h : (g.plan source).outcome = .ok root) {fileType : String} {format : Format α}
    (hfileType : g.fileType = some fileType) (hformat : g.format = some format)
    (hslash : '/' ∉ fileType.toList) :
    let run := (g.generate source MemoryStore.writer fun _ => pure ()).run .empty
    run.1.1 = .ok root ∧ run.2.tiles.size = root.count ∧
      ∃ rendered,
        source.render tileSize (g.window source)
          (maxLevelFor (max source.cols source.rows) tileSize)
          (.ofCell tileSize (maxLevelFor (max source.cols source.rows) tileSize) 0 0 0) =
            some rendered ∧
        root = rendered.map RenderedTile.tile ∧
        ∀ n ∈ rendered.preorder, run.2.tiles.find?
          ((g.infoOf source tileSize fileType).tilePath format.mode n.value.tile) =
            some n.value.raster := by
  intro run
  obtain ⟨hstate, -⟩ := plan_outcome_eq_ok ht h
  obtain ⟨rendered, fileType', format', hfileType', hformat', hrender, hroot, htiles⟩ :=
    exists_render_of_plan ht h
  obtain rfl := Option.some.inj (hfileType.symm.trans hfileType')
  obtain rfl := Option.some.inj (hformat.symm.trans hformat')
  have hcells := plan_isCellTree ht hpos h
  rw [hroot] at hcells
  let info := g.infoOf source tileSize fileType
  have hextensions (f : Path × Raster σ) (hf : f ∈ (g.plan source).tiles) :
      ∃ ext, tileExtension f.1 = .ok ext := by
    rw [htiles] at hf
    obtain ⟨n, hn, rfl⟩ := List.mem_map.mp hf
    have hmem : n.map RenderedTile.tile ∈ (rendered.map RenderedTile.tile).preorder := by
      rw [Tree.preorder_map]
      exact List.mem_map_of_mem ((Tree.postorder_perm_preorder rendered).mem_iff.mp hn)
    have hplaced := hcells.isPlaced hmem
    rw [Tree.value_map] at hplaced
    exact info.exists_tileExtension hslash format.mode hplaced
  obtain ⟨houtcome, hstored⟩ := MemoryStore.run_execute (g.plan source) .empty hextensions
  have hpaths : ((g.plan source).tiles.map fun f => f.1.components).Nodup := by
    have hnodes := hcells.nodup_tilePaths info hslash format.mode
    rw [Tree.preorder_map, List.map_map] at hnodes
    rw [htiles, List.map_map, ((Tree.postorder_perm_preorder rendered).map _).nodup_iff]
    simpa only [Function.comp_def, Tree.value_map] using hnodes
  have hresult : run.1.1 = .ok root ∧
      run.2.tiles = PathMap.empty.insertAll (g.plan source).tiles := by
    simp only [run]
    rw [generate, if_neg (not_not_intro hstate)]
    exact ⟨houtcome.trans h, hstored⟩
  refine ⟨hresult.1, ?_, rendered, hrender, hroot, fun n hn => ?_⟩
  · rw [hresult.2, PathMap.size_insertAll _ hpaths fun _ _ => rfl, htiles, hroot,
      List.length_map, (Tree.postorder_perm_preorder rendered).length_eq, ← Tree.length_preorder,
      Tree.preorder_map, List.length_map]
    exact Nat.zero_add _
  · have hmem : (info.tilePath format.mode n.value.tile, n.value.raster) ∈
        (g.plan source).tiles := by
      rw [htiles]
      exact List.mem_map_of_mem ((Tree.postorder_perm_preorder rendered).mem_iff.mpr hn)
    have hfound := PathMap.find?_insertAll_of_mem .empty hpaths hmem
    rw [hresult.2]
    exact hfound

/-- The tiles of a tree have paths of their own, whatever the mode, the name and the file type are,
and their rows can be counted from below in 32 bits. So a generation into an empty memory store
stores one tile for every node, at the path of the node. -/
theorem generate_stored_tiles {S : Type} {g : Generator α} {source : TileSource σ}
    {w : TileWriter (StateM S) σ} {report : α → StateM S Unit} {s : S} {root : TileTree}
    {tileSize : Nat} (ht : g.tileSize = some tileSize) (hpos : 0 < tileSize)
    (h : ((g.generate source w report).run s).1.1 = .ok root) :
    (∀ info : PyramidInfo, '/' ∉ info.fileType.toList → ∀ mode,
      ∀ m ∈ root.preorder, ∀ n ∈ root.preorder,
        (info.tilePath mode m.value).components = (info.tilePath mode n.value).components →
          m = n) ∧
      (∀ n ∈ root.preorder, n.value.level ≤ 31 →
        1 <<< n.value.level < 2 ^ 32 ∧ 1 + n.value.y ≤ 1 <<< n.value.level ∧
          n.value.flippedRow < 2 ^ n.value.level) ∧
      ∃ fileType format, g.fileType = some fileType ∧ g.format = some format ∧
        ('/' ∉ fileType.toList →
          let run := (g.generate source MemoryStore.writer fun _ => pure ()).run .empty
          run.1.1 = .ok root ∧ run.2.tiles.size = root.count ∧
            ∃ rendered,
              source.render tileSize (g.window source)
                (maxLevelFor (max source.cols source.rows) tileSize)
                (.ofCell tileSize (maxLevelFor (max source.cols source.rows) tileSize) 0 0 0) =
                  some rendered ∧
              root = rendered.map RenderedTile.tile ∧
              ∀ n ∈ rendered.preorder, run.2.tiles.find?
                ((g.infoOf source tileSize fileType).tilePath format.mode n.value.tile) =
                  some n.value.raster) := by
  have hplan := plan_outcome_of_generate h
  have hcells := plan_isCellTree ht hpos hplan
  obtain ⟨-, fileType, format, hfileType, hformat, -⟩ := plan_outcome_eq_ok ht hplan
  refine ⟨fun info hslash mode m hm n hn => hcells.eq_of_tilePath hslash hm hn,
    fun n hn hlevel => ?_, fileType, format, hfileType, hformat,
    stored_tiles_of_plan ht hpos hplan hfileType hformat⟩
  have hplaced := hcells.isPlaced hn
  have hrows := hplaced.flippedRow_add
  have hlimit : 2 ^ n.value.level < 2 ^ 32 := Nat.pow_lt_pow_right (by decide) (by omega)
  rw [Nat.one_shiftLeft]
  omega

/-- A tree of two nodes: both tiles are stored. -/
theorem generate_stored_tiles_corner :
    (ofCrop 1 ⟨1, 1, 5, 5⟩).tileSize = some 1 ∧ 0 < 1 ∧
      ∃ root, (((ofCrop 1 ⟨1, 1, 5, 5⟩).generate
          (Raster.blank 2 2 1 .u8 : Raster Float32).tileSource TileWriter.recorder
            fun _ => pure ()).run []).1.1 = .ok root ∧
        let run := ((ofCrop 1 ⟨1, 1, 5, 5⟩).generate
          (Raster.blank 2 2 1 .u8 : Raster Float32).tileSource MemoryStore.writer
            fun _ => pure ()).run .empty
        run.1.1 = .ok root ∧ run.2.tiles.size = 2 := by
  have hplan : ((ofCrop 1 ⟨1, 1, 5, 5⟩).plan
      (Raster.blank 2 2 1 .u8 : Raster Float32).tileSource).outcome =
        .ok (.node (.ofCell 1 1 0 0 0) [.node (.ofCell 1 1 1 1 1) []]) := rfl
  have h := generate_recorder (by decide) hplan
  obtain ⟨-, -, fileType, format, hfileType, -, hstored⟩ :=
    generate_stored_tiles rfl Nat.one_pos h
  obtain rfl : "png" = fileType := Option.some.inj hfileType
  obtain ⟨hrun, hsize, -⟩ := hstored (by decide)
  exact ⟨rfl, Nat.one_pos, _, h, hrun, hsize⟩

end Generator
end TilePyramid
