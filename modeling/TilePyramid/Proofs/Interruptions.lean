import TilePyramid.Proofs.Depth
import TilePyramid.Proofs.WriterCalls

/-!
# Generations that a writer cuts short

Whatever a writer does, a generation asks for the beginning of one sequence: every tile of the tree
after the tiles below it, and then the metadata of the tree. It ends with the error of the first
call that fails, and can be started again then. A format that lacks what its metadata is made of has
no metadata, and is found out behind the last tile.
-/
namespace TilePyramid

variable {α σ : Type}

/-- The calls for the tiles of a rendering, each after the tiles below it. -/
def PyramidInfo.tileCalls (info : PyramidInfo) (mode : OutputMode)
    (rendered : Tree (RenderedTile σ)) : List (WriterCall σ) :=
  rendered.postorder.map fun n => .tile (info.tilePath mode n.value.tile) n.value.raster

theorem PyramidInfo.not_mem_tileCalls (info : PyramidInfo) (mode : OutputMode)
    (rendered : Tree (RenderedTile σ)) (path : Path) (text : String) :
    .metadata path text ∉ info.tileCalls mode rendered := by
  intro h
  obtain ⟨n, -, hn⟩ := List.mem_map.mp h
  cases hn

theorem Format.metadata_kml [Arith α] [NumberText α] {format : Format α} (hmode : format.mode = .kml)
    {extent : DegreeBox α} (hextent : format.extent = some extent) (info : PyramidInfo)
    (root : TileTree) :
    format.metadata info root = .ok
      ((root.preorder.map fun n => (info.below [Kml.documentName n.value],
        (Kml.document info extent (format.maxLodPixels.getD (-1)) format.drawOrderOffset n).text)) ++
        [(info.beside (info.stem ++ ".kml"), (Kml.entry info extent root).text)]) := by
  rw [metadata, hmode]
  simp only [requireExtent, hextent, Except.map, Kml.files, Tree.walk_eq_preorder]

/-- A writer that counts its calls and fails the one with the given number. -/
def TileWriter.failing (number : Nat) : TileWriter (StateM Nat) σ where
  writeTile _ _ count := (if count = number then .error (.io "disk full") else .ok (), count + 1)
  writeMetadata _ _ count := (if count = number then .error (.io "disk full") else .ok (), count + 1)

private theorem map_eq_error {ε β γ : Type} {x : Except ε β} {f : β → γ} {e : ε}
    (h : x.map f = .error e) : x = .error e := by
  cases x with
  | error e' => exact congrArg Except.error (Except.error.inj h)
  | ok b => cases h

theorem Format.requireModule_eq_error {format : Format α} {fault : ConfigFault}
    (h : format.requireModule = .error fault) : fault = .moduleNeeded format.mode := by
  rw [requireModule] at h
  split at h
  · cases h
  · exact (Except.error.inj h).symm

theorem Format.requireExtent_eq_error {format : Format α} {fault : ConfigFault}
    (h : format.requireExtent = .error fault) : fault = .extentNeeded format.mode := by
  rw [requireExtent] at h
  split at h
  · cases h
  · exact (Except.error.inj h).symm

theorem Format.metadata_eq_error [Arith α] [NumberText α] {format : Format α}
    {info : PyramidInfo} {root : TileTree} {fault : ConfigFault}
    (h : format.metadata info root = .error fault) :
    fault = .moduleNeeded format.mode ∨ fault = .extentNeeded format.mode := by
  rw [metadata] at h
  split at h
  · cases h
  · cases h
  · exact .inr (requireExtent_eq_error (map_eq_error h))
  · cases h
  · exact .inl (requireModule_eq_error (map_eq_error h))
  · exact .inl (requireModule_eq_error (map_eq_error h))
  · exact .inr (requireExtent_eq_error (map_eq_error h))

namespace Generator

theorem finish_error {g : Generator α} (hstate : g.state = .configured) (e : Error) :
    g.start.finish (.error e) = g := by
  cases g
  subst hstate
  rfl

/-- A generator that can be started, with its settings. -/
structure IsConfigured (g : Generator α) (tileSize : Nat) (fileType : String) (format : Format α) :
    Prop where
  state_eq : g.state = .configured
  tileSize_eq : g.tileSize = some tileSize
  tileSize_pos : 0 < tileSize
  fileType_eq : g.fileType = some fileType
  format_eq : g.format = some format

/-- What becomes of calls that are due. The log holds the calls up to the first one that fails, and
its error is the result. If none fails, the outcome that was planned is the result. -/
structure Ends (g : Generator α) (due : List (WriterCall σ)) (planned : Except Error TileTree)
    (log : List (AnsweredCall σ)) (result : Except Error TileTree × Generator α) : Prop where
  isPrefix : log.map AnsweredCall.call <+: due
  failed : ∀ c e, ⟨c, .error e⟩ ∈ log →
    (∃ done : List (WriterCall σ), log = (done.map fun d => ⟨d, .ok ()⟩) ++ [⟨c, .error e⟩]) ∧
      result = (.error e, { g with state := .configured })
  whole : (∀ a ∈ log, a.answer = .ok ()) → log.map AnsweredCall.call = due ∧
    result = (planned, { g with state := if planned.isOk then .complete else .configured })

theorem ends_of_answers {g : Generator α} {due : List (WriterCall σ)}
    {planned : Except Error TileTree} {log : List (AnsweredCall σ)} {r : Except Error Unit}
    (h : Answers due log r) :
    g.Ends due planned log (r >>= fun _ => planned, g.start.finish (r >>= fun _ => planned)) where
  isPrefix := h.isPrefix
  failed c e hc := by
    obtain ⟨rfl, hlog⟩ := h.stops hc
    exact ⟨hlog, rfl⟩
  whole hall := by
    cases r with
    | error e =>
      obtain ⟨c, hc⟩ := h.exists_failed rfl
      cases hall _ hc
    | ok _ =>
      have hlog := h.log_eq_of_ok rfl
      refine ⟨?_, rfl⟩
      rw [hlog, List.map_map]
      exact List.map_id' due

theorem exists_render_of_window [Arith σ] {g : Generator α} {source : TileSource σ}
    {tileSize : Nat} {fileType : String} {format : Format α}
    (h : g.IsConfigured tileSize fileType format)
    (hwindow : (g.window source).isEmpty = false) :
    ∃ rendered, source.render tileSize (g.window source)
      (maxLevelFor (max source.cols source.rows) tileSize)
      (.root (tileSize <<< maxLevelFor (max source.cols source.rows) tileSize : Nat)) =
        some rendered := by
  obtain ⟨hw, hh⟩ := PixelBox.isEmpty_eq_false_iff.mp hwindow
  have hcorner : (g.window source).Mem (g.window source).minX (g.window source).minY :=
    ⟨le_rfl, hw, le_rfl, hh⟩
  have himage := (mem_window.mp hcorner).2
  exact Option.ne_none_iff_exists'.mp (render_root_ne_none h.tileSize_pos hcorner himage)

section
variable [Arith α]

theorem calls_tileActions (info : PyramidInfo) (mode : OutputMode) (total done : Int)
    (nodes : List (Tree (RenderedTile σ))) :
    (Plan.act (tileActions (α := α) info mode total done nodes)).calls =
      nodes.map fun n => .tile (info.tilePath mode n.value.tile) n.value.raster := by
  induction nodes generalizing done with
  | nil => rfl
  | cons node rest ih =>
    simp only [Plan.calls, Plan.act] at ih
    simp only [Plan.calls, Plan.act, tileActions]
    split <;> simp only [List.filterMap_cons, Action.call?, List.map_cons, ih]

variable [NumberText α] [Arith σ]

theorem cut_of_render (info : PyramidInfo) (format : Format α) {crop : PixelBox}
    {source : TileSource σ} {rendered : Tree (RenderedTile σ)}
    (h : source.render info.tileSize crop info.maxLevel
      (.root (info.tileSize <<< info.maxLevel : Nat)) = some rendered) :
    (∀ files, format.metadata info (rendered.map RenderedTile.tile) = .ok files →
      (cut info format crop source).calls =
        info.tileCalls format.mode rendered ++ fileCalls files ∧
      (cut info format crop source).outcome = .ok (rendered.map RenderedTile.tile)) ∧
    ∀ fault, format.metadata info (rendered.map RenderedTile.tile) = .error fault →
      (cut info format crop source).calls = info.tileCalls format.mode rendered ∧
      (cut info format crop source).outcome = .error (.configuration fault) := by
  have hcut : cut info format crop source = Plan.within (ofInt 0) (ofInt 1) (do
      Plan.act (tileActions info format.mode (leavesWithin crop info.tileSize) 0 rendered.postorder)
      let files ← Plan.ofExcept
        ((format.metadata info (rendered.map RenderedTile.tile)).mapError Error.configuration)
      Plan.act (files.map fun f => Action.metadata f.1 f.2)
      Plan.report (ofInt 1)
      return rendered.map RenderedTile.tile) := by
    rw [cut, h]
  rw [hcut, Plan.calls_within, Plan.outcome_within]
  constructor
  · intro files hfiles
    rw [hfiles]
    refine ⟨?_, rfl⟩
    rw [Plan.calls_bind_of_ok rfl, calls_tileActions, Plan.calls_bind_of_ok rfl,
      Plan.calls_bind_of_ok rfl, Plan.calls_metadata, Plan.calls_bind_of_ok rfl]
    simp [PyramidInfo.tileCalls]
  · intro fault hfault
    rw [hfault]
    refine ⟨?_, rfl⟩
    rw [Plan.calls_bind_of_ok rfl, calls_tileActions, Plan.calls_bind_of_error rfl]
    simp [PyramidInfo.tileCalls]

theorem tileCalls_isPrefix_cut (info : PyramidInfo) (format : Format α) {crop : PixelBox}
    {source : TileSource σ} {rendered : Tree (RenderedTile σ)}
    (h : source.render info.tileSize crop info.maxLevel
      (.root (info.tileSize <<< info.maxLevel : Nat)) = some rendered) :
    info.tileCalls format.mode rendered <+: (cut info format crop source).calls := by
  obtain ⟨hwhole, hlacking⟩ := cut_of_render info format h
  cases hmetadata : format.metadata info (rendered.map RenderedTile.tile) with
  | error fault =>
    have hcalls := (hlacking fault hmetadata).1
    exact hcalls ▸ List.prefix_rfl
  | ok files =>
    rw [(hwhole files hmetadata).1]
    exact List.prefix_append _ _

section
variable {g : Generator α} {source : TileSource σ} {tileSize : Nat} {fileType : String}
  {format : Format α}

private theorem plan_of_isConfigured (h : g.IsConfigured tileSize fileType format) :
    g.plan source =
      if (PixelBox.ofImage source.cols source.rows).isEmpty || (g.window source).isEmpty then
        .fail .emptyOutput
      else cut (g.infoOf source tileSize fileType) format (g.window source) source := by
  rw [plan, if_neg (not_not_intro h.state_eq), h.tileSize_eq, h.fileType_eq, h.format_eq]
  rfl

theorem plan_of_isEmpty_window (h : g.IsConfigured tileSize fileType format)
    (hwindow : (g.window source).isEmpty = true) : g.plan source = .fail .emptyOutput := by
  rw [plan_of_isConfigured h, hwindow, Bool.or_true, if_pos rfl]

theorem plan_of_window (h : g.IsConfigured tileSize fileType format)
    (hwindow : (g.window source).isEmpty = false) :
    g.plan source = cut (g.infoOf source tileSize fileType) format (g.window source) source := by
  have himage := isEmpty_ofImage_of_window hwindow
  rw [plan_of_isConfigured h, himage, hwindow]
  rfl

end

theorem run_generate {S : Type} {g : Generator α} (hstate : g.state = .configured)
    (source : TileSource σ) (w : TileWriter (StateM S) σ) (report : α → StateM S Unit) (s : S) :
    (g.generate source w report).run s =
      (((((g.plan source).execute w report).run s).1,
        g.start.finish (((g.plan source).execute w report).run s).1),
        (((g.plan source).execute w report).run s).2) := by
  rw [generate, if_neg (not_not_intro hstate)]
  rfl

/-- A generation carries out its plan, and a log beside it holds the calls of the plan. -/
theorem run_generate_logged {S : Type} {g : Generator α} (hstate : g.state = .configured)
    (source : TileSource σ) (w : TileWriter (StateM S) σ) (report : α → StateM S Unit) (s : S) :
    ∃ log r, (g.generate source w.logged (besideLog report)).run (s, []) =
        (((g.generate source w report).run s).1, ((g.generate source w report).run s).2, log) ∧
      Answers (g.plan source).calls log r ∧
        ((g.generate source w report).run s).1 =
          (r >>= fun _ => (g.plan source).outcome,
            g.start.finish (r >>= fun _ => (g.plan source).outcome)) := by
  obtain ⟨log, r, hlogged, hanswers, hresult⟩ := Plan.run_execute_logged w report (g.plan source) s
  refine ⟨log, r, ?_, hanswers, ?_⟩
  · rw [run_generate hstate, run_generate hstate, hlogged]
  · rw [run_generate hstate, hresult]

/-- A generation asks a writer for the beginning of what is due: the tiles of its tree in
post-order, and behind them the metadata of the tree. The first call that fails is the last one,
its error is returned, and the generator is configured again. A generator that is not configured is
left alone, and one that keeps no pixel of the image has nothing to write. -/
theorem generate_calls {S : Type} (g : Generator α) (source : TileSource σ)
    (w : TileWriter (StateM S) σ) (report : α → StateM S Unit) (s : S) :
    ∃ log : List (AnsweredCall σ),
      (g.generate source w.logged (besideLog report)).run (s, []) =
        (((g.generate source w report).run s).1, ((g.generate source w report).run s).2, log) ∧
      let result := ((g.generate source w report).run s).1
      (g.state ≠ .configured →
        log = [] ∧ result = (.error (.configuration (.generatorBusy g.state)), g)) ∧
      ∀ tileSize fileType format, g.IsConfigured tileSize fileType format →
        ((g.window source).isEmpty = true → log = [] ∧ result = (.error .emptyOutput, g)) ∧
        ((g.window source).isEmpty = false →
          let info := g.infoOf source tileSize fileType
          ∃ rendered, source.render tileSize (g.window source) info.maxLevel
              (.ofCell tileSize info.maxLevel 0 0 0) = some rendered ∧
            let root := rendered.map RenderedTile.tile
            IsCellTree tileSize info.maxLevel (g.window source).Mem root ∧
            (∀ files, format.metadata info root = .ok files →
              g.Ends (info.tileCalls format.mode rendered ++ fileCalls files) (.ok root) log
                result) ∧
            (∀ fault, format.metadata info root = .error fault →
              g.Ends (info.tileCalls format.mode rendered) (.error (.configuration fault)) log
                result) ∧
            (∀ a ∈ log, ∀ path text, a.call = .metadata path text →
              ∀ c ∈ info.tileCalls format.mode rendered, ⟨c, .ok ()⟩ ∈ log) ∧
            (format.mode = .kml → ∀ extent, format.extent = some extent →
              format.metadata info root = .ok
                ((root.preorder.map fun n => (info.below [Kml.documentName n.value],
                  (Kml.document info extent (format.maxLodPixels.getD (-1))
                    format.drawOrderOffset n).text)) ++
                  [(info.beside (info.stem ++ ".kml"), (Kml.entry info extent root).text)]))) := by
  by_cases hstate : g.state = .configured
  · obtain ⟨log, r, hrun, hanswers, hresult⟩ := run_generate_logged hstate source w report s
    refine ⟨log, hrun, fun h => absurd hstate h, fun tileSize fileType format h => ⟨?_, ?_⟩⟩
    · intro hwindow
      rw [plan_of_isEmpty_window h hwindow] at hanswers hresult
      cases hanswers
      exact ⟨rfl, hresult.trans (congrArg _ (finish_error h.state_eq _))⟩
    · intro hwindow info
      obtain ⟨rendered, hrender⟩ := exists_render_of_window h hwindow
      obtain ⟨hwhole, hlacking⟩ := cut_of_render info format hrender
      rw [plan_of_window h hwindow] at hanswers hresult
      have hends {due : List (WriterCall σ)} {planned : Except Error TileTree}
          (hcalls : (cut info format (g.window source) source).calls = due)
          (houtcome : (cut info format (g.window source) source).outcome = planned) :
          g.Ends due planned log ((g.generate source w report).run s).1 := by
        rw [hresult, houtcome]
        exact ends_of_answers (hcalls ▸ hanswers)
      have hroot := hrender
      rw [Tile.root_eq_ofCell] at hrender
      refine ⟨rendered, hrender, source.isCellTree_render h.tileSize_pos hrender, ?_, ?_, ?_, ?_⟩
      · intro files hfiles
        obtain ⟨hcalls, houtcome⟩ := hwhole files hfiles
        exact hends hcalls houtcome
      · intro fault hfault
        obtain ⟨hcalls, houtcome⟩ := hlacking fault hfault
        exact hends hcalls houtcome
      · intro a ha path text hcall
        have hlater : a.call ∉ info.tileCalls format.mode rendered := by
          rw [hcall]
          exact info.not_mem_tileCalls format.mode rendered path text
        obtain ⟨back, hback⟩ := tileCalls_isPrefix_cut info format hroot
        rw [← hback] at hanswers
        exact hanswers.mem_of_later ha hlater
      · intro hmode extent hextent
        exact Format.metadata_kml hmode hextent info _
  · refine ⟨[], ?_, ?_, ?_⟩
    · rw [generate, generate, if_pos hstate, if_pos hstate]
      rfl
    · intro _
      rw [generate, if_pos hstate]
      exact ⟨rfl, rfl⟩
    · intro tileSize fileType format h
      exact absurd h.state_eq hstate

end

/-- An image of four pixels. -/
def fourPixels : TileSource Float32 := (Raster.blank 2 2 1 .u8 : Raster Float32).tileSource

/-- Four tiles below one, and a writer that fails the third of them: the fourth and the one above
are not asked for. -/
theorem generate_calls_third :
    let g := ofCrop 1 ⟨0, 0, 2, 2⟩
    g.IsConfigured 1 "png" (.ofMode .plain) ∧ (g.window fourPixels).isEmpty = false ∧
      ∃ (log : List (AnsweredCall Float32)) (rendered : Tree (RenderedTile Float32)),
        log.map (fun a => a.answer.isOk) = [true, true, false] ∧
        ((g.infoOf fourPixels 1 "png").tileCalls .plain rendered).length = 5 ∧
        g.Ends ((g.infoOf fourPixels 1 "png").tileCalls .plain rendered ++ fileCalls [])
          (.ok (rendered.map RenderedTile.tile)) log
          ((g.generate fourPixels (TileWriter.failing 2) fun _ => pure ()).run 0).1 := by
  intro g
  have hconfigured : g.IsConfigured 1 "png" (.ofMode .plain) := ⟨rfl, rfl, Nat.one_pos, rfl, rfl⟩
  have hwindow : (g.window fourPixels).isEmpty = false := rfl
  obtain ⟨log, hrun, -, hready⟩ :=
    generate_calls g fourPixels (TileWriter.failing 2) (fun _ => pure ()) 0
  obtain ⟨-, hcalls⟩ := hready 1 "png" _ hconfigured
  obtain ⟨rendered, hrender, -, hends, -⟩ := hcalls hwindow
  refine ⟨hconfigured, hwindow, log, rendered, ?_, ?_, hends [] rfl⟩
  · have hlog : ((g.generate fourPixels (TileWriter.failing 2).logged
        (besideLog fun _ => pure ())).run (0, [])).2.2.map (fun a => a.answer.isOk) =
          [true, true, false] := by decide +kernel
    rw [hrun] at hlog
    exact hlog
  · have hcount : (fourPixels.render 1 (g.window fourPixels) (maxLevelFor 2 1)
        (.ofCell 1 (maxLevelFor 2 1) 0 0 0)).map (fun t => t.postorder.length) = some 5 := by
      decide +kernel
    have hsome := congrArg (Option.map fun t => t.postorder.length) hrender
    rw [PyramidInfo.tileCalls, List.length_map]
    exact Option.some.inj (hsome.symm.trans hcount)

/-- A generator for a globe viewer, with an image of one pixel and a format without degrees. -/
def withoutExtent : Generator Float := (ofCrop 1 ⟨0, 0, 1, 1⟩).setFormat (.ofMode .kml)

/-- No call fails, and the pyramid is not complete: its documents are made of degrees. -/
theorem generate_not_complete :
    let run := (withoutExtent.generate (Raster.blank 1 1 1 .u8 : Raster Float32).tileSource
      TileWriter.recorder.logged (besideLog fun _ => pure ())).run ([], [])
    withoutExtent.state = .configured ∧
      ¬((∀ a ∈ run.2.2, a.answer = .ok ()) → run.1.2.state = .complete) := by
  intro run
  have hlog : run.2.2.map AnsweredCall.answer = [.ok ()] := rfl
  have hstate : run.1.2.state = .configured := rfl
  refine ⟨rfl, fun h => ?_⟩
  have hall : ∀ a ∈ run.2.2, a.answer = .ok () := by
    intro a ha
    have hmem := List.mem_map_of_mem (f := AnsweredCall.answer) ha
    rw [hlog] at hmem
    exact List.mem_singleton.mp hmem
  have hcomplete := h hall
  rw [hstate] at hcomplete
  cases hcomplete

end Generator
end TilePyramid
