import TilePyramid.Proofs.Cells
import TilePyramid.Pyramid.Generator

/-!
# What a successful generation has done

A generation that ends well has carried out its plan to the end: the tree it returns is the tree
of the rendering, and the tiles of the plan are those of the rendering, every tile after the tiles
below it. Main statement: the returned tree is made of exactly the cells that meet the crop box
and the image.
-/
namespace TilePyramid

/-- The tile that an action writes. -/
def Action.tile? {α σ : Type} : Action α σ → Option (Path × Raster σ)
  | .tile path raster => some (path, raster)
  | _ => none

/-- The metadata file that an action writes. -/
def Action.file? {α σ : Type} : Action α σ → Option (Path × String)
  | .metadata path text => some (path, text)
  | _ => none

namespace Plan

variable {α σ β γ : Type}

/-- The tiles that a plan writes, in order. -/
def tiles (p : Plan α σ β) : List (Path × Raster σ) := p.actions.filterMap Action.tile?

/-- The metadata files that a plan writes, in order. -/
def files (p : Plan α σ β) : List (Path × String) := p.actions.filterMap Action.file?

theorem bind_actions_eq_ok {p : Plan α σ β} {next : β → Plan α σ γ} {c : γ}
    (h : (p >>= next).outcome = .ok c) :
    ∃ b, p.outcome = .ok b ∧ (next b).outcome = .ok c ∧
      (p >>= next).actions = p.actions ++ (next b).actions := by
  change (p.andThen next).outcome = .ok c at h
  cases hp : p.outcome with
  | error e =>
    simp only [andThen, hp] at h
    cases h
  | ok b =>
    simp only [andThen, hp] at h
    refine ⟨b, rfl, h, ?_⟩
    change (p.andThen next).actions = _
    simp only [andThen, hp]

theorem bind_outcome_eq_ok {p : Plan α σ β} {next : β → Plan α σ γ} {c : γ}
    (h : (p >>= next).outcome = .ok c) :
    ∃ b, p.outcome = .ok b ∧ (next b).outcome = .ok c ∧
      (p >>= next).tiles = p.tiles ++ (next b).tiles := by
  obtain ⟨b, hb, hnext, hactions⟩ := bind_actions_eq_ok h
  refine ⟨b, hb, hnext, ?_⟩
  simp only [tiles, hactions, List.filterMap_append]

theorem filterMap_shareActions {δ : Type} [Arith α] {f : Action α σ → Option δ}
    (hf : ∀ x, f (.report x) = none) (share : Share α) (actions : List (Action α σ)) :
    (shareActions share actions).filterMap f = actions.filterMap f := by
  induction actions generalizing share with
  | nil => rfl
  | cons a rest ih =>
    cases a with
    | report x =>
      rw [shareActions, List.filterMap_append, ih, List.filterMap_cons, hf]
      cases (share.report x).2 with
      | none => rfl
      | some sent => rw [Option.toList_some, List.map_singleton, List.filterMap_cons, hf]; rfl
    | tile path raster => simp only [shareActions, List.filterMap_cons, ih]
    | metadata path text => simp only [shareActions, List.filterMap_cons, ih]

theorem tiles_within [Arith α] (start stop : α) (p : Plan α σ β) :
    (p.within start stop).tiles = p.tiles :=
  filterMap_shareActions (fun _ => rfl) _ _

theorem files_within [Arith α] (start stop : α) (p : Plan α σ β) :
    (p.within start stop).files = p.files :=
  filterMap_shareActions (fun _ => rfl) _ _

theorem tiles_metadata (files : List (Path × String)) :
    (act (α := α) (σ := σ) (files.map fun f => .metadata f.1 f.2)).tiles = [] := by
  simp only [act, tiles, List.filterMap_map]
  exact List.filterMap_eq_nil_iff.mpr fun _ _ => rfl

theorem files_metadata (files : List (Path × String)) :
    (act (α := α) (σ := σ) (files.map fun f => .metadata f.1 f.2)).files = files := by
  simp only [act, Plan.files, List.filterMap_map]
  exact List.filterMap_some

theorem files_act_bind (actions : List (Action α σ)) (next : Unit → Plan α σ β) :
    (act actions >>= next).files = (act actions).files ++ (next ()).files :=
  List.filterMap_append

theorem ofExcept_ok_bind (b : β) (next : β → Plan α σ γ) :
    (ofExcept (.ok b) >>= next) = next b := rfl

theorem ofExcept_bind_eq_ok {x : Except Error β} {next : β → Plan α σ γ} {c : γ}
    (h : (ofExcept x >>= next).outcome = .ok c) :
    ∃ b, x = .ok b ∧ ofExcept x >>= next = next b ∧ (next b).outcome = .ok c := by
  obtain ⟨b, rfl, hnext, -⟩ := bind_actions_eq_ok h
  exact ⟨b, rfl, rfl, hnext⟩

end Plan

section runs
variable {α σ β S : Type}

theorem run_guarded (call : StateM S (Except Error Unit)) (rest : StateM S (Except Error β))
    (s : S) :
    StateT.run (do match ← call with
      | .error e => return .error e
      | .ok () => rest) s =
      match (call.run s).1 with
      | .error e => (Except.error e, (call.run s).2)
      | .ok () => rest.run (call.run s).2 := by
  rw [StateT.run_bind]
  change _ = match (StateT.run call s).1 with
    | .error e => (Except.error e, (StateT.run call s).2)
    | .ok () => rest.run (StateT.run call s).2
  generalize StateT.run call s = r
  obtain ⟨_ | _, _⟩ := r <;> rfl

theorem Plan.run_execute (w : TileWriter (StateM S) σ) (report : α → StateM S Unit)
    (p : Plan α σ β) (s : S) :
    (p.execute w report).run s =
      match ((perform w report p.actions).run s).1 with
      | .error e => (.error e, ((perform w report p.actions).run s).2)
      | .ok () => (p.outcome, ((perform w report p.actions).run s).2) :=
  run_guarded (perform w report p.actions) (pure p.outcome) s

/-- A plan that was carried out with a result has that result. -/
theorem Plan.execute_eq_ok {w : TileWriter (StateM S) σ} {report : α → StateM S Unit}
    {p : Plan α σ β} {s : S} {b : β} (h : ((p.execute w report).run s).1 = .ok b) :
    p.outcome = .ok b := by
  rw [run_execute] at h
  cases hperform : ((perform w report p.actions).run s).1 with
  | error e =>
    rw [hperform] at h
    cases h
  | ok u =>
    rw [hperform] at h
    exact h

/-- The writer takes whatever it is given. -/
structure TileWriter.Accepts (w : TileWriter (StateM S) σ) : Prop where
  tile (path : Path) (raster : Raster σ) (s : S) : ((w.writeTile path raster).run s).1 = .ok ()
  metadata (path : Path) (text : String) (s : S) : ((w.writeMetadata path text).run s).1 = .ok ()

private theorem perform_of_accepts {w : TileWriter (StateM S) σ} (hw : w.Accepts)
    (report : α → StateM S Unit) (actions : List (Action α σ)) (s : S) :
    ((Plan.perform w report actions).run s).1 = .ok () := by
  induction actions generalizing s with
  | nil => rfl
  | cons a rest ih =>
    cases a with
    | report f => exact ih _
    | tile path raster =>
      have hstep := run_guarded (w.writeTile path raster) (Plan.perform w report rest) s
      refine (congrArg Prod.fst hstep).trans ?_
      rw [hw.tile]
      exact ih _
    | metadata path text =>
      have hstep := run_guarded (w.writeMetadata path text) (Plan.perform w report rest) s
      refine (congrArg Prod.fst hstep).trans ?_
      rw [hw.metadata]
      exact ih _

theorem Plan.execute_of_accepts {w : TileWriter (StateM S) σ} (hw : w.Accepts)
    (report : α → StateM S Unit) (p : Plan α σ β) (s : S) :
    ((p.execute w report).run s).1 = p.outcome := by
  rw [run_execute, perform_of_accepts hw]

/-- A writer that keeps the tiles it is given. -/
def TileWriter.recorder : TileWriter (StateM (List (Path × Raster σ))) σ where
  writeTile path raster log := (.ok (), log ++ [(path, raster)])
  writeMetadata _ _ log := (.ok (), log)

theorem TileWriter.recorder_accepts : (recorder (σ := σ)).Accepts where
  tile _ _ _ := rfl
  metadata _ _ _ := rfl

theorem Plan.recorded_execute (p : Plan α σ β) (log : List (Path × Raster σ)) :
    ((p.execute TileWriter.recorder fun _ => pure ()).run log).2 = log ++ p.tiles := by
  have hperform (actions : List (Action α σ)) (log : List (Path × Raster σ)) :
      (perform TileWriter.recorder (fun _ => pure ()) actions).run log =
        (.ok (), log ++ actions.filterMap Action.tile?) := by
    induction actions generalizing log with
    | nil => simp only [List.filterMap_nil, List.append_nil]; rfl
    | cons a rest ih =>
      cases a with
      | report f => exact ih log
      | tile path raster =>
        refine (ih (log ++ [(path, raster)])).trans ?_
        rw [List.append_assoc]
        rfl
      | metadata path text => exact ih log
  rw [execute, StateT.run_bind, hperform]
  rfl

end runs

theorem Tile.root_eq_ofCell (tileSize maxLevel : Nat) :
    Tile.root (tileSize <<< maxLevel : Nat) = .ofCell tileSize maxLevel 0 0 0 := by
  simp only [root, ofCell, PixelBox.square, Nat.shiftLeft_eq, Nat.sub_zero, Nat.zero_mul]
  rfl

namespace Generator

variable {α σ : Type}

/-- The pixels of the image that a generator keeps: those in its crop box, if it has one. -/
def window (g : Generator α) (source : TileSource σ) : PixelBox :=
  g.crop.elim (.ofImage source.cols source.rows) fun c =>
    c.crop (.ofImage source.cols source.rows)

/-- The measures of the pyramid that a generator makes of an image. -/
def infoOf (g : Generator α) (source : TileSource σ) (tileSize : Nat) (fileType : String) :
    PyramidInfo where
  name := g.name
  fileType := fileType
  tileSize := tileSize
  maxLevel := maxLevelFor (max source.cols source.rows) tileSize
  cols := source.cols
  rows := source.rows

theorem mem_window {g : Generator α} {source : TileSource σ} {px py : Int} :
    (g.window source).Mem px py ↔
      (∀ c, g.crop = some c → c.Mem px py) ∧
        (PixelBox.ofImage source.cols source.rows).Mem px py := by
  cases hc : g.crop with
  | none =>
    simp only [window, hc, Option.elim_none, reduceCtorEq, false_imp_iff, implies_true, true_and]
  | some c =>
    simp only [window, hc, Option.elim_some, PixelBox.mem_crop, Option.some.injEq, forall_eq']

section
variable [Arith α]

theorem tiles_tileActions (info : PyramidInfo) (mode : OutputMode) (total done : Int)
    (nodes : List (Tree (RenderedTile σ))) :
    (Plan.act (tileActions (α := α) info mode total done nodes)).tiles =
      nodes.map fun n => (info.tilePath mode n.value.tile, n.value.raster) := by
  induction nodes generalizing done with
  | nil => rfl
  | cons node rest ih =>
    simp only [Plan.tiles, Plan.act] at ih
    simp only [Plan.tiles, Plan.act, tileActions]
    split <;> simp only [List.filterMap_cons, Action.tile?, List.map_cons, ih]

theorem files_tileActions (info : PyramidInfo) (mode : OutputMode) (total done : Int)
    (nodes : List (Tree (RenderedTile σ))) :
    (Plan.act (tileActions (α := α) info mode total done nodes)).files = [] := by
  induction nodes generalizing done with
  | nil => rfl
  | cons node rest ih =>
    simp only [Plan.files, Plan.act] at ih
    simp only [Plan.files, Plan.act, tileActions]
    split <;> simp only [List.filterMap_cons, Action.file?, ih]

variable [NumberText α] [Arith σ]

/-- A plan that succeeds has rendered the whole tree, and writes every tile of it after the tiles
below. -/
theorem cut_outcome_eq_ok {info : PyramidInfo} {format : Format α} {crop : PixelBox}
    {source : TileSource σ} {root : TileTree}
    (h : (cut info format crop source).outcome = .ok root) :
    ∃ rendered,
      source.render info.tileSize crop info.maxLevel
        (.root (info.tileSize <<< info.maxLevel : Nat)) = some rendered ∧
      root = rendered.map RenderedTile.tile ∧
      (cut info format crop source).tiles = rendered.postorder.map fun n =>
        (info.tilePath format.mode n.value.tile, n.value.raster) := by
  rw [cut, Plan.tiles_within]
  simp only [cut, Plan.within] at h
  cases hr : source.render info.tileSize crop info.maxLevel
      (.root (info.tileSize <<< info.maxLevel : Nat)) with
  | none =>
    rw [hr] at h
    cases h
  | some rendered =>
    rw [hr] at h
    obtain ⟨_, -, h, hwritten⟩ := Plan.bind_outcome_eq_ok h
    obtain ⟨files, -, h, hfiles⟩ := Plan.bind_outcome_eq_ok h
    obtain ⟨_, -, h, hmetadata⟩ := Plan.bind_outcome_eq_ok h
    obtain ⟨_, -, h, hreport⟩ := Plan.bind_outcome_eq_ok h
    obtain rfl := Except.ok.inj h
    refine ⟨rendered, rfl, rfl, hwritten.trans ?_⟩
    rw [tiles_tileActions, hfiles, hmetadata, hreport, Plan.tiles_metadata]
    exact List.append_nil _

theorem cut_files_eq_ok {info : PyramidInfo} {format : Format α} {crop : PixelBox}
    {source : TileSource σ} {root : TileTree}
    (h : (cut info format crop source).outcome = .ok root) :
    format.metadata info root = .ok (cut info format crop source).files := by
  rw [cut, Plan.files_within]
  simp only [cut, Plan.within] at h
  cases hr : source.render info.tileSize crop info.maxLevel
      (.root (info.tileSize <<< info.maxLevel : Nat)) with
  | none =>
    rw [hr] at h
    cases h
  | some rendered =>
    rw [hr] at h
    obtain ⟨_, -, h, -⟩ := Plan.bind_actions_eq_ok h
    obtain ⟨files, hfiles, hnext, h⟩ := Plan.ofExcept_bind_eq_ok h
    obtain ⟨_, -, h, -⟩ := Plan.bind_actions_eq_ok h
    obtain rfl := Except.ok.inj h
    have hmetadata : format.metadata info (rendered.map RenderedTile.tile) = .ok files := by
      generalize format.metadata info (rendered.map RenderedTile.tile) = result at hfiles
      cases result with
      | error fault => cases hfiles
      | ok found => exact congrArg Except.ok (Except.ok.inj hfiles)
    dsimp only
    rw [Plan.files_act_bind, hnext, Plan.files_act_bind, files_tileActions, Plan.files_metadata,
      hmetadata]
    exact congrArg Except.ok (List.append_nil files).symm

theorem plan_outcome_eq_ok {g : Generator α} {source : TileSource σ} {root : TileTree}
    {tileSize : Nat} (ht : g.tileSize = some tileSize) (h : (g.plan source).outcome = .ok root) :
    g.state = .configured ∧ ∃ fileType format,
      g.fileType = some fileType ∧ g.format = some format ∧
        g.plan source =
          cut (g.infoOf source tileSize fileType) format (g.window source) source := by
  by_cases hstate : g.state = .configured
  · refine ⟨hstate, ?_⟩
    rw [plan, if_neg (not_not_intro hstate), ht] at h ⊢
    cases hf : g.fileType with
    | none =>
      rw [hf] at h
      cases h
    | some fileType =>
      cases hm : g.format with
      | none =>
        rw [hf, hm] at h
        cases h
      | some format =>
        rw [hf, hm] at h
        change Plan.outcome (if _ then _ else _) = _ at h
        split at h
        · cases h
        · next hwindow => exact ⟨fileType, format, rfl, rfl, if_neg hwindow⟩
  · rw [plan, if_pos hstate] at h
    cases h

theorem plan_outcome_of_generate {S : Type} {g : Generator α} {source : TileSource σ}
    {w : TileWriter (StateM S) σ} {report : α → StateM S Unit} {s : S} {root : TileTree}
    (h : ((g.generate source w report).run s).1.1 = .ok root) :
    (g.plan source).outcome = .ok root := by
  rw [generate] at h
  split at h
  · cases h
  · exact Plan.execute_eq_ok (s := s) h

theorem generate_of_accepts {S : Type} {g : Generator α} {source : TileSource σ}
    {w : TileWriter (StateM S) σ} (hw : w.Accepts) (hg : g.state = .configured)
    (report : α → StateM S Unit) (s : S) :
    ((g.generate source w report).run s).1.1 = (g.plan source).outcome := by
  rw [generate, if_neg (not_not_intro hg)]
  exact Plan.execute_of_accepts hw report _ s

theorem generate_recorder {g : Generator α} {source : TileSource σ} {root : TileTree}
    (hg : g.state = .configured) (h : (g.plan source).outcome = .ok root) :
    ((g.generate source TileWriter.recorder fun _ => pure ()).run []).1.1 = .ok root :=
  (generate_of_accepts TileWriter.recorder_accepts hg _ []).trans h

theorem recorded_generate {g : Generator α} (source : TileSource σ) (hg : g.state = .configured)
    (log : List (Path × Raster σ)) :
    ((g.generate source TileWriter.recorder fun _ => pure ()).run log).2 =
      log ++ (g.plan source).tiles := by
  rw [generate, if_neg (not_not_intro hg)]
  exact Plan.recorded_execute _ log

theorem exists_render_of_plan {g : Generator α} {source : TileSource σ} {root : TileTree}
    {tileSize : Nat} (ht : g.tileSize = some tileSize) (h : (g.plan source).outcome = .ok root) :
    ∃ rendered fileType format, g.fileType = some fileType ∧ g.format = some format ∧
      source.render tileSize (g.window source) (maxLevelFor (max source.cols source.rows) tileSize)
        (.ofCell tileSize (maxLevelFor (max source.cols source.rows) tileSize) 0 0 0) =
          some rendered ∧
      root = rendered.map RenderedTile.tile ∧
      (g.plan source).tiles = rendered.postorder.map fun n =>
        ((g.infoOf source tileSize fileType).tilePath format.mode n.value.tile,
          n.value.raster) := by
  obtain ⟨-, fileType, format, hfileType, hformat, hcut⟩ := plan_outcome_eq_ok ht h
  rw [hcut] at h ⊢
  obtain ⟨rendered, hr, hroot, htiles⟩ := cut_outcome_eq_ok h
  rw [Tile.root_eq_ofCell] at hr
  exact ⟨rendered, fileType, format, hfileType, hformat, hr, hroot, htiles⟩

/-- The tree of a plan that succeeds is made of the cells that meet what the generator keeps. -/
theorem plan_isCellTree {g : Generator α} {source : TileSource σ} {root : TileTree}
    {tileSize : Nat} (ht : g.tileSize = some tileSize) (hpos : 0 < tileSize)
    (h : (g.plan source).outcome = .ok root) :
    IsCellTree tileSize (maxLevelFor (max source.cols source.rows) tileSize)
      (g.window source).Mem root := by
  obtain ⟨rendered, -, -, -, -, hr, rfl, -⟩ := exists_render_of_plan ht h
  exact source.isCellTree_render hpos hr

theorem exists_render_of_generate {S : Type} {g : Generator α} {source : TileSource σ}
    {w : TileWriter (StateM S) σ} {report : α → StateM S Unit} {s : S} {root : TileTree}
    {tileSize : Nat} (ht : g.tileSize = some tileSize)
    (h : ((g.generate source w report).run s).1.1 = .ok root) :
    ∃ rendered fileType format, g.fileType = some fileType ∧ g.format = some format ∧
      source.render tileSize (g.window source) (maxLevelFor (max source.cols source.rows) tileSize)
        (.ofCell tileSize (maxLevelFor (max source.cols source.rows) tileSize) 0 0 0) =
          some rendered ∧
      root = rendered.map RenderedTile.tile ∧
      (g.plan source).tiles = rendered.postorder.map fun n =>
        ((g.infoOf source tileSize fileType).tilePath format.mode n.value.tile,
          n.value.raster) :=
  exists_render_of_plan ht (plan_outcome_of_generate h)

end

/-- A generation that ends well returns the quad-tree of the cells that hold a pixel of the image
inside the crop box. -/
theorem generate_isCellTree {S : Type} [Arith α] [NumberText α] [Arith σ] {g : Generator α}
    {source : TileSource σ} {w : TileWriter (StateM S) σ} {report : α → StateM S Unit} {s : S}
    {root : TileTree} {tileSize : Nat} (ht : g.tileSize = some tileSize) (hpos : 0 < tileSize)
    (h : ((g.generate source w report).run s).1.1 = .ok root) :
    IsCellTree tileSize (maxLevelFor (max source.cols source.rows) tileSize)
      (fun px py => (∀ c, g.crop = some c → c.Mem px py) ∧
        (PixelBox.ofImage source.cols source.rows).Mem px py) root := by
  obtain ⟨rendered, -, -, -, -, hr, rfl, -⟩ := exists_render_of_generate ht h
  have hkept : (fun px py => (∀ c, g.crop = some c → c.Mem px py) ∧
      (PixelBox.ofImage source.cols source.rows).Mem px py) = (g.window source).Mem := by
    funext px py
    exact propext mem_window.symm
  rw [hkept]
  exact source.isCellTree_render hpos hr

/-- Cuts the part of an image inside the crop box into tiles of the given size. -/
def ofCrop (tileSize : Nat) (crop : PixelBox) : Generator Float :=
  new ⟨"map"⟩ |>.setTileSize tileSize |>.setFileType "png" |>.setFormat (.ofMode .plain)
    |>.setCrop crop

theorem generate_isCellTree_corner :
    ∃ root, (((ofCrop 1 ⟨1, 1, 5, 5⟩).generate
        (Raster.blank 2 2 1 .u8 : Raster Float32).tileSource TileWriter.recorder
          fun _ => pure ()).run []).1.1 = .ok root ∧
      (ofCrop 1 ⟨1, 1, 5, 5⟩).tileSize = some 1 ∧ 0 < 1 ∧
      IsCellTree 1 (maxLevelFor 2 1)
        (fun px py => (∀ c, (ofCrop 1 ⟨1, 1, 5, 5⟩).crop = some c → c.Mem px py) ∧
          (PixelBox.ofImage 2 2).Mem px py) root := by
  have hplan : ((ofCrop 1 ⟨1, 1, 5, 5⟩).plan
      (Raster.blank 2 2 1 .u8 : Raster Float32).tileSource).outcome =
        .ok (.node (.ofCell 1 1 0 0 0) [.node (.ofCell 1 1 1 1 1) []]) := rfl
  have h := generate_recorder (by decide) hplan
  exact ⟨_, h, rfl, Nat.one_pos, generate_isCellTree rfl Nat.one_pos h⟩

end Generator
end TilePyramid
