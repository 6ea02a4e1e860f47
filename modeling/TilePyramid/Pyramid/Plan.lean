import TilePyramid.Progress
import TilePyramid.Store.Writer

/-!
# Plans

What a run is going to do, as data: progress reports, tiles and metadata files in the order they
are due, and the result when every write succeeds. A plan is carried out by any writer, which
stops it at the first write that fails.
-/
namespace TilePyramid

inductive Action (α σ : Type) where
  | report (fraction : α)
  | tile (path : Path) (raster : Raster σ)
  | metadata (path : Path) (text : String)

structure Plan (α σ β : Type) where
  actions : List (Action α σ)
  outcome : Except Error β

namespace Plan

variable {α σ β γ : Type}

/-- Nothing to do but to fail. -/
def fail (e : Error) : Plan α σ β := ⟨[], .error e⟩

def ofExcept (r : Except Error β) : Plan α σ β := ⟨[], r⟩

/-- Does what is listed. -/
def act (actions : List (Action α σ)) : Plan α σ Unit := ⟨actions, .ok ()⟩

def report (fraction : α) : Plan α σ Unit := act [.report fraction]

/-- A second plan after the first, unless the first fails. -/
def andThen (p : Plan α σ β) (next : β → Plan α σ γ) : Plan α σ γ :=
  match p.outcome with
  | .error e => ⟨p.actions, .error e⟩
  | .ok b => ⟨p.actions ++ (next b).actions, (next b).outcome⟩

instance : Monad (Plan α σ) where
  pure b := ⟨[], .ok b⟩
  bind := andThen

section
variable [Arith α]

/-- Passes the reports of a list of actions through a share. -/
def shareActions (s : Share α) : List (Action α σ) → List (Action α σ)
  | [] => []
  | .report f :: rest =>
    let (s, sent) := s.report f
    (sent.toList.map Action.report) ++ shareActions s rest
  | a :: rest => a :: shareActions s rest

/-- The plan with its reports mapped onto an interval of the outer scale. -/
def within (start stop : α) (p : Plan α σ β) : Plan α σ β :=
  { p with actions := shareActions (.between start stop) p.actions }

end

section
variable {m : Type → Type} [Monad m]

/-- Carries out actions until a write fails. -/
def perform (w : TileWriter m σ) (report : α → m Unit) :
    List (Action α σ) → m (Except Error Unit)
  | [] => return .ok ()
  | .report f :: rest => do
    report f
    perform w report rest
  | .tile path raster :: rest => do
    match ← w.writeTile path raster with
    | .error e => return .error e
    | .ok () => perform w report rest
  | .metadata path text :: rest => do
    match ← w.writeMetadata path text with
    | .error e => return .error e
    | .ok () => perform w report rest

/-- Carries out a plan. The result is that of the plan unless a write failed before. -/
def execute (w : TileWriter m σ) (report : α → m Unit) (p : Plan α σ β) :
    m (Except Error β) := do
  match ← perform w report p.actions with
  | .error e => return .error e
  | .ok () => return p.outcome

end

/-- The fractions a plan reports. -/
def reports (p : Plan α σ β) : List α :=
  p.actions.filterMap fun
    | .report f => some f
    | _ => none

end Plan
end TilePyramid
