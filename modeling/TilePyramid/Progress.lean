import TilePyramid.Arith

/-!
# Progress

Completion is reported as a fraction from 0 to 1. A share maps the reports of one stage onto an
interval of an outer scale and never lets the reported value go back; a log line is due for
every further tenth.
-/
namespace TilePyramid

/-- One stage's interval of the outer scale, and the best fraction it has reported. -/
structure Share (α : Type) where
  start : α
  stop : α
  best : α

namespace Share

variable {α : Type} [Arith α]

def between (start stop : α) : Share α := ⟨start, stop, ofInt 0⟩

/-- Takes one report. What is not finite, or falls behind the best so far, is dropped; the rest
is cut to 0 to 1 and mapped onto the interval. -/
def report (s : Share α) (fraction : α) : Share α × Option α :=
  if Arith.isFinite fraction then
    let f := Arith.clamp (ofInt 0) (ofInt 1) fraction
    if f < s.best then (s, none)
    else ({ s with best := f }, some (s.start + (s.stop - s.start) * f))
  else (s, none)

/-- The reports that leave a share, one after the other. -/
def reportAll (s : Share α) : List α → List α
  | [] => []
  | f :: fs =>
    let (s, sent) := s.report f
    sent.toList ++ s.reportAll fs

end Share

/-- Reports passed through shares within shares, the outermost first. -/
def nestedReports {α : Type} [Arith α] (shares : List (Share α)) (reports : List α) : List α :=
  shares.foldr (fun s fs => s.reportAll fs) reports

/-- How many whole tenths of the work a report stands for. -/
def tenths {α : Type} [Arith α] (fraction : α) : Int :=
  Arith.toInt (Arith.floor (Arith.clamp (ofInt 0) (ofInt 1) fraction * ofInt 10))

/-- The tenths that are logged: each report that passes the last one. -/
def loggedTenths {α : Type} [Arith α] (last : Int) : List α → List Int
  | [] => []
  | f :: fs =>
    if last < tenths f then tenths f :: loggedTenths (tenths f) fs
    else loggedTenths last fs

/-- The log lines of a task. -/
def progressLog {α : Type} [Arith α] (task : String) (reports : List α) : List String :=
  (loggedTenths (-1) reports).map fun t => s!"Progress task={task} percent={t * 10}"

end TilePyramid
