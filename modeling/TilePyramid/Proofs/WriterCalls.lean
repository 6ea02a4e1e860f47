import TilePyramid.Proofs.Generation

/-!
# Calls of a writer

A writer may fail any of its calls, and what it is asked for then is the beginning of what is due:
the calls up to the first one that fails, and all of them if none does. A log beside the state of a
writer keeps every call with its answer, and nothing else of a run depends on the log.
-/
namespace TilePyramid

/-- What a writer is asked to keep. -/
inductive WriterCall (σ : Type) where
  | tile (path : Path) (raster : Raster σ)
  | metadata (path : Path) (text : String)

structure AnsweredCall (σ : Type) where
  call : WriterCall σ
  answer : Except Error Unit

/-- How calls that are due are answered: one after the other, until one fails. -/
inductive Answers {σ : Type} : List (WriterCall σ) → List (AnsweredCall σ) → Except Error Unit → Prop
  | done : Answers [] [] (.ok ())
  | next (c : WriterCall σ) {due : List (WriterCall σ)} {log : List (AnsweredCall σ)}
      {r : Except Error Unit} (h : Answers due log r) : Answers (c :: due) (⟨c, .ok ()⟩ :: log) r
  | failed (c : WriterCall σ) (due : List (WriterCall σ)) (e : Error) :
      Answers (c :: due) [⟨c, .error e⟩] (.error e)

namespace Answers

variable {σ : Type} {due : List (WriterCall σ)} {log : List (AnsweredCall σ)}
  {r : Except Error Unit}

theorem isPrefix (h : Answers due log r) : log.map AnsweredCall.call <+: due := by
  induction h with
  | done => exact List.nil_prefix
  | next c _ ih => exact (List.prefix_cons_inj c).mpr ih
  | failed c due e => exact ⟨due, rfl⟩

theorem log_eq_of_ok (h : Answers due log r) (hr : r = .ok ()) :
    log = due.map fun c => ⟨c, .ok ()⟩ := by
  induction h with
  | done => rfl
  | next c _ ih => rw [List.map_cons, ih hr]
  | failed c due e => cases hr

theorem exists_failed {e : Error} (h : Answers due log r) (hr : r = .error e) :
    ∃ c, ⟨c, .error e⟩ ∈ log := by
  induction h with
  | done => cases hr
  | next d _ ih =>
    obtain ⟨c, hc⟩ := ih hr
    exact ⟨c, List.mem_cons_of_mem _ hc⟩
  | failed c due e' =>
    obtain rfl := Except.error.inj hr
    exact ⟨c, List.mem_singleton_self _⟩

/-- A call that fails is the last one, and its error is the result. -/
theorem stops {c : WriterCall σ} {e : Error} (h : Answers due log r) (hc : ⟨c, .error e⟩ ∈ log) :
    r = .error e ∧ ∃ done : List (WriterCall σ),
      log = (done.map fun d => ⟨d, .ok ()⟩) ++ [⟨c, .error e⟩] := by
  induction h with
  | done => cases hc
  | next d _ ih =>
    rcases List.mem_cons.mp hc with heq | hmem
    · cases (AnsweredCall.mk.inj heq).2
    · obtain ⟨hr, done, hlog⟩ := ih hmem
      exact ⟨hr, d :: done, by rw [hlog, List.map_cons, List.cons_append]⟩
  | failed d due e' =>
    obtain ⟨rfl, herror⟩ := AnsweredCall.mk.inj (List.mem_singleton.mp hc)
    obtain rfl := Except.error.inj herror
    exact ⟨rfl, [], rfl⟩

theorem mem_of_later {front back : List (WriterCall σ)} {a : AnsweredCall σ}
    (h : Answers (front ++ back) log r) (ha : a ∈ log) (hlater : a.call ∉ front) :
    ∀ c ∈ front, ⟨c, .ok ()⟩ ∈ log := by
  induction front generalizing log with
  | nil =>
    intro c hc
    cases hc
  | cons d front ih =>
    intro c hc
    rw [List.cons_append] at h
    cases h with
    | next _ h =>
      rcases List.mem_cons.mp ha with rfl | ha
      · exact absurd List.mem_cons_self hlater
      · rcases List.mem_cons.mp hc with rfl | hc
        · exact List.mem_cons_self
        · have hrest := ih h ha (List.not_mem_of_not_mem_cons hlater) c hc
          exact List.mem_cons_of_mem _ hrest
    | failed _ _ e =>
      obtain rfl := List.mem_singleton.mp ha
      exact absurd List.mem_cons_self hlater

end Answers

variable {α σ β S : Type}

def Action.call? : Action α σ → Option (WriterCall σ)
  | .report _ => none
  | .tile path raster => some (.tile path raster)
  | .metadata path text => some (.metadata path text)

/-- The calls that a plan makes if none of them fails. -/
def Plan.calls (p : Plan α σ β) : List (WriterCall σ) := p.actions.filterMap Action.call?

def WriterCall.file? : WriterCall σ → Option (Path × String)
  | tile .. => none
  | metadata path text => some (path, text)

def fileCalls (files : List (Path × String)) : List (WriterCall σ) :=
  files.map fun f => .metadata f.1 f.2

namespace Plan

variable {γ : Type}

@[simp]
theorem calls_fail (e : Error) : (fail e : Plan α σ β).calls = [] := rfl

@[simp]
theorem calls_ofExcept (r : Except Error β) : (ofExcept r : Plan α σ β).calls = [] := rfl

@[simp]
theorem calls_pure (b : β) : (pure b : Plan α σ β).calls = [] := rfl

@[simp]
theorem calls_report (fraction : α) : (report fraction : Plan α σ Unit).calls = [] := rfl

@[simp]
theorem calls_within [Arith α] (start stop : α) (p : Plan α σ β) :
    (p.within start stop).calls = p.calls :=
  filterMap_shareActions (fun _ => rfl) _ _

theorem calls_bind_of_error {p : Plan α σ β} {e : Error} (h : p.outcome = .error e)
    (next : β → Plan α σ γ) : (p >>= next).calls = p.calls := by
  change (p.andThen next).calls = p.calls
  simp only [calls, andThen, h]

theorem calls_bind_of_ok {p : Plan α σ β} {b : β} (h : p.outcome = .ok b)
    (next : β → Plan α σ γ) : (p >>= next).calls = p.calls ++ (next b).calls := by
  change (p.andThen next).calls = p.calls ++ (next b).calls
  simp only [calls, andThen, h, List.filterMap_append]

theorem filterMap_file?_calls (p : Plan α σ β) : p.calls.filterMap WriterCall.file? = p.files := by
  rw [calls, files, List.filterMap_filterMap]
  congr 1
  funext a
  cases a <;> rfl

theorem calls_metadata (files : List (Path × String)) :
    (act (α := α) (σ := σ) (files.map fun f => .metadata f.1 f.2)).calls = fileCalls files := by
  simp only [calls, act, List.filterMap_map]
  exact congrFun List.filterMap_eq_map files

end Plan

namespace TileWriter

def answer {m : Type → Type} (w : TileWriter m σ) : WriterCall σ → m (Except Error Unit)
  | .tile path raster => w.writeTile path raster
  | .metadata path text => w.writeMetadata path text

/-- Keeps a call and its answer behind those that are kept already. -/
def keep (c : WriterCall σ) (call : StateM S (Except Error Unit)) :
    StateM (S × List (AnsweredCall σ)) (Except Error Unit) := fun x =>
  let answered := call.run x.1
  (answered.1, answered.2, x.2 ++ [⟨c, answered.1⟩])

/-- A writer that also keeps what it is asked for and what it answers. -/
def logged (w : TileWriter (StateM S) σ) : TileWriter (StateM (S × List (AnsweredCall σ))) σ where
  writeTile path raster := keep (.tile path raster) (w.writeTile path raster)
  writeMetadata path text := keep (.metadata path text) (w.writeMetadata path text)

end TileWriter

/-- Reports that leave a log alone. -/
def besideLog (report : α → StateM S Unit) : α → StateM (S × List (AnsweredCall σ)) Unit :=
  fun f x => ((), ((report f).run x.1).2, x.2)

namespace Plan

variable {w : TileWriter (StateM S) σ} {report : α → StateM S Unit}

theorem run_perform_call {a : Action α σ} {c : WriterCall σ} (h : a.call? = some c)
    (rest : List (Action α σ)) (s : S) :
    (perform w report (a :: rest)).run s =
      match ((w.answer c).run s).1 with
      | .error e => (.error e, ((w.answer c).run s).2)
      | .ok () => (perform w report rest).run ((w.answer c).run s).2 := by
  cases a with
  | report f => cases h
  | tile path raster =>
    obtain rfl := Option.some.inj h
    exact run_guarded (w.writeTile path raster) (perform w report rest) s
  | metadata path text =>
    obtain rfl := Option.some.inj h
    exact run_guarded (w.writeMetadata path text) (perform w report rest) s

/-- A run with a log does what the run without it does, and the log grows by the calls that are
due, up to the first one that fails. -/
theorem run_perform_logged (w : TileWriter (StateM S) σ) (report : α → StateM S Unit)
    (actions : List (Action α σ)) (s : S) (log : List (AnsweredCall σ)) :
    ∃ answered,
      (perform w.logged (besideLog report) actions).run (s, log) =
        (((perform w report actions).run s).1, ((perform w report actions).run s).2,
          log ++ answered) ∧
        Answers (actions.filterMap Action.call?) answered ((perform w report actions).run s).1 := by
  -- By induction on the actions, from any log: only an action with a call makes it longer.
  induction actions generalizing s log with
  | nil => exact ⟨[], by rw [List.append_nil]; rfl, .done⟩
  | cons a rest ih =>
    cases hcall : a.call? with
    | none =>
      cases a with
      | report f => exact ih ((report f).run s).2 log
      | tile path raster => cases hcall
      | metadata path text => cases hcall
    | some c =>
      have hkeep : (w.logged.answer c).run (s, log) =
          (((w.answer c).run s).1, ((w.answer c).run s).2,
            log ++ [⟨c, ((w.answer c).run s).1⟩]) := by
        cases c <;> rfl
      rw [List.filterMap_cons, hcall, run_perform_call hcall, run_perform_call hcall, hkeep]
      cases hanswer : ((w.answer c).run s).1 with
      | error e => exact ⟨[⟨c, .error e⟩], rfl, .failed c _ e⟩
      | ok _ =>
        obtain ⟨answered, hrun, hanswers⟩ := ih ((w.answer c).run s).2 (log ++ [⟨c, .ok ()⟩])
        refine ⟨⟨c, .ok ()⟩ :: answered, ?_, .next c hanswers⟩
        rw [List.append_assoc, List.singleton_append] at hrun
        exact hrun

theorem run_execute_logged (w : TileWriter (StateM S) σ) (report : α → StateM S Unit)
    (p : Plan α σ β) (s : S) :
    ∃ answered r,
      (p.execute w.logged (besideLog report)).run (s, []) =
        (((p.execute w report).run s).1, ((p.execute w report).run s).2, answered) ∧
        Answers p.calls answered r ∧ ((p.execute w report).run s).1 = r >>= fun _ => p.outcome := by
  obtain ⟨answered, hrun, hanswers⟩ := run_perform_logged w report p.actions s []
  rw [List.nil_append] at hrun
  rw [run_execute, run_execute, hrun]
  cases hperformed : ((perform w report p.actions).run s).1 with
  | error e =>
    rw [hperformed] at hanswers
    exact ⟨answered, .error e, rfl, hanswers, rfl⟩
  | ok _ =>
    rw [hperformed] at hanswers
    exact ⟨answered, .ok (), rfl, hanswers, rfl⟩

theorem asked_of_execute_eq_ok {p : Plan α σ β} {s : S} {b : β}
    (h : ((p.execute w report).run s).1 = .ok b) :
    ((p.execute w.logged (besideLog report)).run (s, [])).2.2 =
      p.calls.map fun c => ⟨c, .ok ()⟩ := by
  obtain ⟨answered, r, hlogged, hanswers, hresult⟩ := run_execute_logged w report p s
  rw [hlogged]
  cases r with
  | ok _ => exact hanswers.log_eq_of_ok rfl
  | error e =>
    rw [hresult] at h
    cases h

end Plan
end TilePyramid
