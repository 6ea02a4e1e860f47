import TilePyramid.Proofs.PlannedReports
import TilePyramid.Proofs.WriterCalls

/-!
# The reports that a caller receives

A caller may keep the reports it receives beside the state of the writer, and nothing else of a run
depends on them. They are the beginning of the reports of the plan, and all of them if the run ends
well. Main statement: a run reports each leaf of the tree it returns as an equal part of the work,
and no run ever goes back.
-/
namespace TilePyramid

variable {α σ β S : Type}

/-- A writer that leaves alone what is kept beside its state. -/
def TileWriter.beside (T : Type) (w : TileWriter (StateM S) σ) :
    TileWriter (StateM (S × T)) σ where
  writeTile path raster x := (((w.writeTile path raster).run x.1).1,
    ((w.writeTile path raster).run x.1).2, x.2)
  writeMetadata path text x := (((w.writeMetadata path text).run x.1).1,
    ((w.writeMetadata path text).run x.1).2, x.2)

/-- Keeps every report behind those that are kept already. -/
def receiving (report : α → StateM S Unit) : α → StateM (S × List α) Unit :=
  fun f x => ((), ((report f).run x.1).2, x.2 ++ [f])

namespace Plan

/-- The fractions that a caller receives when the plan is carried out. -/
def received (w : TileWriter (StateM S) σ) (report : α → StateM S Unit) (p : Plan α σ β) (s : S) :
    List α :=
  ((p.execute (w.beside (List α)) (receiving report)).run (s, [])).2.2

/-- Keeping the reports changes nothing else. What is kept is the beginning of what is due, and all
of it if no call fails. -/
theorem run_perform_receiving (w : TileWriter (StateM S) σ) (report : α → StateM S Unit)
    (actions : List (Action α σ)) (s : S) (kept : List α) :
    ∃ fs, (perform (w.beside (List α)) (receiving report) actions).run (s, kept) =
        (((perform w report actions).run s).1, ((perform w report actions).run s).2, kept ++ fs) ∧
      fs <+: actions.filterMap Action.fraction? ∧
      (((perform w report actions).run s).1 = .ok () → fs = actions.filterMap Action.fraction?) := by
  -- From any state and any reports kept so far: only a report adds to them, and only a call can end
  -- the run.
  induction actions generalizing s kept with
  | nil => exact ⟨[], by rw [List.append_nil]; rfl, List.nil_prefix, fun _ => rfl⟩
  | cons a rest ih =>
    cases hcall : a.call? with
    | none =>
      cases a with
      | report f =>
        obtain ⟨fs, hrun, hbegins, hall⟩ := ih ((report f).run s).2 (kept ++ [f])
        rw [List.append_assoc, List.singleton_append] at hrun
        exact ⟨f :: fs, hrun, (List.prefix_cons_inj f).mpr hbegins, fun h =>
          congrArg (f :: ·) (hall h)⟩
      | tile path raster => cases hcall
      | metadata path text => cases hcall
    | some c =>
      have hcalled : ((w.beside (List α)).answer c).run (s, kept) =
          (((w.answer c).run s).1, ((w.answer c).run s).2, kept) := by
        cases c <;> rfl
      have hsilent : (a :: rest).filterMap Action.fraction? =
          rest.filterMap Action.fraction? := by
        cases a with
        | report f => cases hcall
        | tile path raster => rfl
        | metadata path text => rfl
      rw [hsilent, run_perform_call hcall, run_perform_call hcall, hcalled]
      cases hanswer : ((w.answer c).run s).1 with
      | error e => exact ⟨[], by rw [List.append_nil], List.nil_prefix, fun h => nomatch h⟩
      | ok _ => exact ih ((w.answer c).run s).2 kept

variable {w : TileWriter (StateM S) σ} {report : α → StateM S Unit} {p : Plan α σ β} {s : S}

private theorem received_eq : p.received w report s =
    ((perform (w.beside (List α)) (receiving report) p.actions).run (s, [])).2.2 := by
  rw [received, run_execute]
  cases ((perform (w.beside (List α)) (receiving report) p.actions).run (s, [])).1 <;> rfl

theorem run_execute_receiving : (p.execute (w.beside (List α)) (receiving report)).run (s, []) =
    (((p.execute w report).run s).1, ((p.execute w report).run s).2, p.received w report s) := by
  obtain ⟨fs, hrun, -, -⟩ := run_perform_receiving w report p.actions s []
  rw [received_eq, run_execute, run_execute, hrun]
  cases ((perform w report p.actions).run s).1 <;> rfl

theorem received_isPrefix : p.received w report s <+: p.reports := by
  obtain ⟨fs, hrun, hbegins, -⟩ := run_perform_receiving w report p.actions s []
  rw [received_eq, hrun]
  exact hbegins

theorem received_of_execute_eq_ok {b : β} (h : ((p.execute w report).run s).1 = .ok b) :
    p.received w report s = p.reports := by
  obtain ⟨fs, hrun, -, hall⟩ := run_perform_receiving w report p.actions s []
  rw [received_eq, hrun]
  rw [run_execute] at h
  cases hdone : ((perform w report p.actions).run s).1 with
  | error e =>
    rw [hdone] at h
    cases h
  | ok _ => exact hall hdone

end Plan

namespace Mosaic

open ExactFinite

variable [Cartography α] [ExactFinite α] [Arith σ] [Narrow α σ]

/-- The fractions that a caller receives. A run on a canvas that ends well reports its composite
first, and a run without one does not; then both report each leaf of the tree as an equal part of
what is left, and the whole at the end. Whether a run ends well or not, it never goes back; and
whatever is put into shares within shares, what leaves the outermost one never goes back, and stays
in its interval. -/
theorem received_reports {β : Type} [Arith β] [ExactFinite β] (o : Options α σ)
    (sources : List (Source α σ)) (source : Source α σ) (range : Option (ValueRange σ))
    (w : TileWriter (StateM S) σ) (report : α → StateM S Unit) (s : S) :
    (o.isPlain = false → ∀ summary,
      (((plan o sources range).execute w report).run s).1 = .ok summary →
        let P := value (prepareShare : α)
        let n := summary.root.leafCount
        ((plan o sources range).received w report s).map value =
          P :: (List.range n).map (fun (k : Nat) => P + (1 - P) * ((k + 1 : Nat) / n)) ++ [1]) ∧
      (∀ p, (o.isPlain = true ∧ p = plan o sources range) ∨ p = planPlain o source range →
        ∀ summary, ((p.execute w report).run s).1 = .ok summary →
          let n := summary.root.leafCount
          (p.received w report s).map value =
            (List.range n).map (fun (k : Nat) => ((k + 1 : Nat) / n : Rat)) ++ [1]) ∧
      (∀ p, p = plan o sources range ∨ p = planPlain o source range →
        IsSteady 0 1 (p.received w report s)) ∧
      ∀ (start stop : β) (inner : List (Share β)) (reports : List β),
        Arith.isFinite start = true → Arith.isFinite stop = true → value start ≤ value stop →
          IsSteady (value start) (value stop)
            (nestedReports (.between start stop :: inner) reports) := by
  refine ⟨fun hcanvas summary h => ?_, fun p hp summary h => ?_, fun p hp => ?_,
    fun start stop inner reports hstart hstop hle => ?_⟩
  · rw [Plan.received_of_execute_eq_ok h]
    exact map_value_reports_of_canvas hcanvas (Plan.execute_eq_ok h)
  · rw [Plan.received_of_execute_eq_ok h]
    rcases hp with ⟨hplain, rfl⟩ | rfl
    · exact map_value_reports_of_isPlain hplain (Plan.execute_eq_ok h)
    · exact map_value_reports_of_planPlain (Plan.execute_eq_ok h)
  · rcases hp with rfl | rfl
    · exact (isSteady_plan o sources range).of_isPrefix Plan.received_isPrefix
    · exact (isSteady_planPlain o source range).of_isPrefix Plan.received_isPrefix
  · exact Share.isSteady_between hstart hstop hle (nestedReports inner reports)

/-- Four leaves, with a canvas and without one, and shares that are given too much, too little and
what is not a number. -/
theorem received_reports_square :
    let square : Source Rat Float32 := .clearSquare 2 45 (-45) 45
    let plain : Options Rat Float32 := { Options.globeRun 1 8 with mode := .plain }
    (Options.globeRun 2 8).isPlain = false ∧
      (∃ summary, (((plan (.globeRun 2 8) [square] none).execute
          TileWriter.recorder fun _ => pure ()).run []).1 = .ok summary) ∧
      ((plan (.globeRun 2 8) [square] none).received TileWriter.recorder (fun _ => pure ())
        []).map value = [1 / 20, 23 / 80, 21 / 40, 61 / 80, 1, 1] ∧
      (∃ summary, (((planPlain plain square none).execute
          TileWriter.recorder fun _ => pure ()).run []).1 = .ok summary) ∧
      ((planPlain plain square none).received TileWriter.recorder (fun _ => pure ()) []).map value =
        [1 / 4, 1 / 2, 3 / 4, 1, 1] ∧
      (1 / 2 : Rat) ≤ 1 ∧
      let shares : List (Share Ratio) :=
        [.between (.number (1 / 2)) (.number 1), .between (.number 0) (.number (1 / 2))]
      let reports : List Ratio := [.number (3 / 5), .number (2 / 5), .nan, .number 2, .number (-1)]
      (nestedReports shares reports).map value = [13 / 20, 3 / 4] ∧
        IsSteady (1 / 2) 1 (nestedReports shares reports) := by
  intro square plain
  obtain ⟨canvasSummary, hcanvas, hleaves⟩ := exists_recorded_run (.globeRun 2 8) [square] none
    (fun summary => summary.root.leafCount) 4 (by decide +kernel)
  obtain ⟨plainSummary, hplain, hplainLeaves⟩ := Option.map_eq_some_iff.mp
    (show (planPlain plain square none).outcome.toOption.map
      (fun summary => summary.root.leafCount) = some 4 by decide +kernel)
  have hplainRun : (((planPlain plain square none).execute TileWriter.recorder
      fun _ => pure ()).run []).1 = .ok plainSummary := by
    rw [Plan.execute_of_accepts TileWriter.recorder_accepts, eq_ok_of_toOption hplain]
  have hfinite (q : Rat) : Arith.isFinite (Ratio.number q) = true := rfl
  have hhalf : (1 / 2 : Rat) ≤ 1 := by norm_num
  obtain ⟨hreceived, -, -, -⟩ := received_reports (β := Ratio) (.globeRun 2 8) [square] square none
    TileWriter.recorder (fun _ => pure ()) []
  obtain ⟨-, hreceivedPlain, -, hnested⟩ := received_reports (β := Ratio) plain [square] square none
    TileWriter.recorder (fun _ => pure ()) []
  refine ⟨rfl, ⟨_, hcanvas⟩, ?_, ⟨_, hplainRun⟩, ?_, hhalf, by decide +kernel, ?_⟩
  · have h := hreceived rfl canvasSummary hcanvas
    rw [hleaves] at h
    rw [h]
    decide +kernel
  · have h := hreceivedPlain _ (.inr rfl) plainSummary hplainRun
    rw [hplainLeaves] at h
    rw [h]
    decide +kernel
  · exact hnested _ _ _ _ (hfinite _) (hfinite _) hhalf

end Mosaic
end TilePyramid
