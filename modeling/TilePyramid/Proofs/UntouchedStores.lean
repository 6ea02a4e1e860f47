import TilePyramid.Mosaic.Run
import TilePyramid.Proofs.ExactPlacement
import TilePyramid.Proofs.Interruptions
import TilePyramid.Store.FileTree
import TilePyramid.Store.Memory

/-!
# Runs that leave a store untouched

A run can fail by itself, or a store can fail it. By itself it fails before it has written anything:
what could still be missing behind the tiles is the metadata, and the settings of a viewer always
bring what theirs is made of. A store fails a run with an error of storage.
-/
namespace TilePyramid

/-- The errors that a store can answer with. -/
def Error.isStorage : Error → Bool
  | io _ | codec _ => true
  | _ => false

section
variable {α σ β γ S : Type}

namespace Plan

/-- A plan that is going to fail has nothing to write. -/
def FailsEarly (p : Plan α σ β) : Prop := ∀ e, p.outcome = .error e → p.calls = []

theorem FailsEarly.of_calls {p : Plan α σ β} (h : p.calls = []) : p.FailsEarly := fun _ _ => h

theorem FailsEarly.of_outcome {p : Plan α σ β} {b : β} (h : p.outcome = .ok b) :
    p.FailsEarly := by
  intro e herror
  rw [h] at herror
  cases herror

theorem FailsEarly.within [Arith α] {p : Plan α σ β} (h : p.FailsEarly) (start stop : α) :
    (p.within start stop).FailsEarly := by
  intro e herror
  rw [calls_within]
  exact h e herror

theorem FailsEarly.bind_of_calls {p : Plan α σ β} {next : β → Plan α σ γ} (hp : p.calls = [])
    (hnext : ∀ b, (next b).FailsEarly) : (p >>= next).FailsEarly := by
  intro e herror
  cases houtcome : p.outcome with
  | error e' => rw [calls_bind_of_error houtcome, hp]
  | ok b =>
    have hlast : (p >>= next).outcome = (next b).outcome := by
      change (p.andThen next).outcome = _
      simp only [andThen, houtcome]
    rw [calls_bind_of_ok houtcome, hp, List.nil_append]
    exact hnext b e (hlast.symm.trans herror)

theorem FailsEarly.bind_pure {p : Plan α σ β} (hp : p.FailsEarly) (f : β → γ) :
    (p >>= fun b => pure (f b)).FailsEarly := by
  intro e herror
  cases houtcome : p.outcome with
  | error e' =>
    rw [calls_bind_of_error houtcome]
    exact hp e' houtcome
  | ok b =>
    change (p.andThen _).outcome = _ at herror
    simp only [andThen, houtcome] at herror
    cases herror

end Plan

/-- A writer that can only fail for want of storage. -/
def TileWriter.FailsInStorage (w : TileWriter (StateM S) σ) : Prop :=
  ∀ c s e, ((w.answer c).run s).1 = .error e → e.isStorage = true

namespace Plan

variable {w : TileWriter (StateM S) σ}

theorem perform_error {report : α → StateM S Unit} (hw : w.FailsInStorage)
    (actions : List (Action α σ)) (s : S) {e : Error}
    (h : ((perform w report actions).run s).1 = .error e) : e.isStorage = true := by
  induction actions generalizing s with
  | nil => cases h
  | cons a rest ih =>
    cases hcall : a.call? with
    | none =>
      cases a with
      | report f => exact ih _ h
      | tile path raster => cases hcall
      | metadata path text => cases hcall
    | some c =>
      rw [run_perform_call hcall] at h
      cases hanswer : ((w.answer c).run s).1 with
      | error e' =>
        rw [hanswer] at h
        obtain rfl := Except.error.inj h
        exact hw c s e' hanswer
      | ok _ =>
        rw [hanswer] at h
        exact ih _ h

theorem run_perform_of_calls {actions : List (Action α σ)}
    (h : actions.filterMap Action.call? = []) (s : S) :
    (perform w (fun _ => pure ()) actions).run s = (.ok (), s) := by
  induction actions with
  | nil => rfl
  | cons a rest ih =>
    cases a with
    | report f => exact ih h
    | tile path raster => cases h
    | metadata path text => cases h

/-- A run that ends with an error of another kind than that of storage has not asked the writer for
anything, and the store is as it was. -/
def LeavesUntouched (p : Plan α σ β) (w : TileWriter (StateM S) σ) : Prop :=
  ∀ (report : α → StateM S Unit) (store : S) (e : Error),
    ((p.execute w report).run store).1 = .error e → e.isStorage = false →
      ((p.execute w.logged (besideLog report)).run (store, [])).2.2 = [] ∧
        (p.execute w fun _ => pure ()).run store = (.error e, store)

theorem outcome_of_execute_error {p : Plan α σ β} (hw : w.FailsInStorage)
    {report : α → StateM S Unit} {store : S} {e : Error}
    (h : ((p.execute w report).run store).1 = .error e) (hother : e.isStorage = false) :
    p.outcome = .error e := by
  rw [run_execute] at h
  cases hperformed : ((perform w report p.actions).run store).1 with
  | ok _ =>
    rw [hperformed] at h
    exact h
  | error e' =>
    rw [hperformed] at h
    obtain rfl := Except.error.inj h
    have hstorage := perform_error hw _ _ hperformed
    rw [hother] at hstorage
    cases hstorage

theorem FailsEarly.execute_eq_error_iff {p : Plan α σ β} (hp : p.FailsEarly)
    (hw : w.FailsInStorage) (report : α → StateM S Unit) (store : S) {e : Error}
    (hother : e.isStorage = false) :
    ((p.execute w report).run store).1 = .error e ↔ p.outcome = .error e := by
  refine ⟨fun h => outcome_of_execute_error hw h hother, fun houtcome => ?_⟩
  obtain ⟨log, r, -, hanswers, hresult⟩ := run_execute_logged w report p store
  rw [hp e houtcome] at hanswers
  cases hanswers
  exact hresult.trans houtcome

theorem FailsEarly.leavesUntouched {p : Plan α σ β} (hp : p.FailsEarly) (hw : w.FailsInStorage) :
    p.LeavesUntouched w := by
  intro report store e herror hother
  obtain ⟨log, r, hlogged, hanswers, -⟩ := run_execute_logged w report p store
  have houtcome := outcome_of_execute_error hw herror hother
  have hcalls := hp e houtcome
  rw [hcalls] at hanswers
  cases hanswers
  refine ⟨congrArg (fun run => run.2.2) hlogged, ?_⟩
  rw [run_execute, run_perform_of_calls hcalls, houtcome]

end Plan

end

section
variable {σ : Type}

theorem isStorage_tileExtension {path : Path} {e : Error} (h : tileExtension path = .error e) :
    e.isStorage = true := by
  rw [tileExtension] at h
  split at h
  · cases h
  · obtain rfl := Except.error.inj h
    rfl

theorem MemoryStore.failsInStorage_writer : (writer (σ := σ)).FailsInStorage := by
  intro c s e h
  cases c with
  | metadata path text => cases h
  | tile path raster =>
    simp only [TileWriter.answer, writer] at h
    cases hextension : tileExtension path with
    | ok ext =>
      rw [hextension] at h
      cases h
    | error e' =>
      rw [hextension] at h
      obtain rfl := Except.error.inj h
      exact isStorage_tileExtension hextension

theorem Raster.isStorage_encode [Arith σ] {r : Raster σ} {fileType : String}
    {settings : EncodeSettings} {e : Error} (h : r.encode fileType settings = .error e) :
    e.isStorage = true := by
  rw [encode] at h
  split at h
  · obtain rfl := Except.error.inj h
    rfl
  · split at h
    · obtain rfl := Except.error.inj h
      rfl
    · split at h
      · obtain rfl := Except.error.inj h
        rfl
      · cases h
      · cases h

namespace FileTree

theorem isStorage_makeDirectories {t : FileTree σ} {place : List String} {cs : List Component}
    {e : Error} (h : t.makeDirectories place cs = .error e) : e.isStorage = true := by
  induction cs generalizing t place with
  | nil => cases h
  | cons c cs ih =>
    simp only [makeDirectories] at h
    split at h
    · obtain rfl := Except.error.inj h
      rfl
    · split at h
      · exact ih h
      · exact ih h

theorem isStorage_write {t : FileTree σ} {path : Path} {content : FileContent σ} {e : Error}
    (h : t.write path content = .error e) : e.isStorage = true := by
  simp only [write] at h
  cases hmade : t.makeDirectories [] ((path.parent?.map Path.components).getD []) with
  | error e' =>
    rw [hmade] at h
    obtain rfl := Except.error.inj h
    exact isStorage_makeDirectories hmade
  | ok made =>
    rw [hmade] at h
    change (if _ then _ else _) = _ at h
    split at h
    · obtain rfl := Except.error.inj h
      rfl
    · cases h

theorem commit_eq_error {change : FileTree σ → Except Error (FileTree σ)} {t : FileTree σ}
    {e : Error} (h : ((commit change).run t).1 = .error e) : change t = .error e := by
  cases hchange : change t with
  | ok next =>
    simp only [StateT.run, commit, hchange] at h
    cases h
  | error e' =>
    simp only [StateT.run, commit, hchange] at h
    exact congrArg Except.error (Except.error.inj h)

theorem failsInStorage_writer [Arith σ] (settings : EncodeSettings) :
    (writer (σ := σ) settings).FailsInStorage := by
  intro c t e h
  cases c with
  | metadata path text => exact isStorage_write (commit_eq_error h)
  | tile path raster =>
    have hchange := commit_eq_error h
    cases hextension : tileExtension path with
    | error e' =>
      rw [hextension] at hchange
      obtain rfl := Except.error.inj hchange
      exact isStorage_tileExtension hextension
    | ok ext =>
      rw [hextension] at hchange
      change raster.encode ext settings >>= (fun encoded => t.write path (.image encoded)) = _
        at hchange
      cases hencoded : raster.encode ext settings with
      | error e' =>
        rw [hencoded] at hchange
        obtain rfl := Except.error.inj hchange
        exact Raster.isStorage_encode hencoded
      | ok encoded =>
        rw [hencoded] at hchange
        exact isStorage_write hchange

end FileTree
end

theorem ViewerSettings.exists_metadata {α : Type} [Arith α] [NumberText α] (v : ViewerSettings α)
    (info : PyramidInfo) (root : TileTree) :
    ∃ files, v.format.metadata info root = .ok files := by
  cases v <;> exact ⟨_, rfl⟩

namespace Generator

variable {α σ : Type} [Arith α] [NumberText α] [Arith σ]

theorem failsEarly_cut {info : PyramidInfo} {format : Format α} {crop : PixelBox}
    {source : TileSource σ} (h : ∀ root, ∃ files, format.metadata info root = .ok files) :
    (cut info format crop source).FailsEarly := by
  cases hrender : source.render info.tileSize crop info.maxLevel
      (.root (info.tileSize <<< info.maxLevel : Nat)) with
  | none =>
    have hcut : cut info format crop source =
        Plan.within (ofInt 0) (ofInt 1) (.fail .emptyOutput) := by
      rw [cut, hrender]
    rw [hcut]
    exact .of_calls rfl
  | some rendered =>
    obtain ⟨files, hfiles⟩ := h (rendered.map RenderedTile.tile)
    exact .of_outcome ((cut_of_render info format hrender).1 files hfiles).2

/-- A generator whose format brings all that its metadata is made of fails before it writes. -/
theorem failsEarly_plan {g : Generator α} {source : TileSource σ}
    (h : ∀ format, g.format = some format → ∀ info root, ∃ files,
      format.metadata info root = .ok files) : (g.plan source).FailsEarly := by
  rw [plan]
  split
  · exact .of_calls rfl
  · split
    · next tileSize fileType format _ _ hformat =>
      dsimp only
      split
      · exact .of_calls rfl
      · exact failsEarly_cut (h format hformat _)
    · exact .of_calls rfl

end Generator

namespace Mosaic

variable {α σ : Type} [Cartography α] [Arith σ]

theorem failsEarly_treePlan (o : Options α σ) (image : TileSource σ) (settings : ViewerSettings α)
    (crop : PixelBox) : (treePlan o image settings crop).FailsEarly := by
  refine Generator.failsEarly_plan fun format hformat info root => ?_
  obtain rfl := Option.some.inj hformat
  exact settings.exists_metadata info root

theorem failsEarly_plainPlan (o : Options α σ) (s : Source α σ) (range : Option (ValueRange σ)) :
    (plainPlan o s range).FailsEarly := by
  rw [plainPlan]
  refine .bind_of_calls rfl fun _ => ?_
  refine .bind_of_calls rfl fun settings => ?_
  exact (failsEarly_treePlan o _ settings _).bind_pure _

variable [Narrow α σ]

theorem failsEarly_mosaicPlan (o : Options α σ) (sources : List (Source α σ))
    (range : Option (ValueRange σ)) : (mosaicPlan o sources range).FailsEarly := by
  rw [mosaicPlan]
  refine .bind_of_calls rfl fun r => ?_
  refine .bind_of_calls rfl fun placed => ?_
  refine .bind_of_calls rfl fun aligned => ?_
  refine .bind_of_calls rfl fun view => ?_
  refine .bind_of_calls (Plan.calls_within _ _ _) fun _ => ?_
  split
  · exact .of_calls rfl
  · refine .bind_of_calls rfl fun settings => ?_
    exact ((failsEarly_treePlan o _ settings _).within _ _).bind_pure _

theorem failsEarly_plan (o : Options α σ) (sources : List (Source α σ))
    (range : Option (ValueRange σ)) : (plan o sources range).FailsEarly := by
  rw [plan]
  refine .bind_of_calls rfl fun checked => ?_
  refine .bind_of_calls rfl fun _ => ?_
  split
  · exact failsEarly_plainPlan _ _ _
  · exact failsEarly_mosaicPlan _ _ _

/-- A run that ends with an error that is not one of storage has written no tile and no metadata,
into a memory store or into a file tree, whatever they held before. -/
theorem plan_leavesUntouched (o : Options α σ) (sources : List (Source α σ))
    (range : Option (ValueRange σ)) (settings : EncodeSettings) :
    (plan o sources range).LeavesUntouched MemoryStore.writer ∧
      (plan o sources range).LeavesUntouched (FileTree.writer settings) := by
  have hearly := failsEarly_plan o sources range
  exact ⟨hearly.leavesUntouched MemoryStore.failsInStorage_writer,
    hearly.leavesUntouched (FileTree.failsInStorage_writer settings)⟩

/-- A dome viewer without a module name is told so before anything is written. -/
theorem plan_leavesUntouched_noModule :
    let p := plan { Options.globeRun 1 8 with mode := .uniview } [.clearSquare 2 45 90 90] none
    let run := (p.execute MemoryStore.writer fun _ => pure ()).run .empty
    run.1 = .error (.configuration .noModuleName) ∧
      (Error.configuration .noModuleName).isStorage = false ∧
      ((p.execute MemoryStore.writer.logged (besideLog fun _ => pure ())).run
        (.empty, [])).2.2 = [] ∧ run.2 = .empty := by
  intro p run
  have herror : run.1 = .error (.configuration .noModuleName) := rfl
  obtain ⟨hmemory, -⟩ := plan_leavesUntouched { Options.globeRun 1 8 with mode := .uniview }
    [.clearSquare 2 45 90 90] none .standard
  obtain ⟨hasked, hstore⟩ := hmemory (fun _ => pure ()) .empty _ herror rfl
  exact ⟨herror, rfl, hasked, congrArg Prod.snd hstore⟩

end Mosaic
end TilePyramid
