import TilePyramid.Command.Run

/-!
# Reports

What a command tells its user: lines of a log, of which only the more pressing ones may be
wanted, an error with its cause, and the list of the flags.
-/
namespace TilePyramid.Command

/-- How much a line of the log matters, the most pressing first. `silent` is below all lines. -/
inductive LogLevel where
  | silent
  | error
  | warn
  | info
  | debug
  | trace
  deriving DecidableEq, Repr

namespace LogLevel

def name : LogLevel → String
  | silent => "off"
  | error => "error"
  | warn => "warn"
  | info => "info"
  | debug => "debug"
  | trace => "trace"

/-- The levels in the order of their numbers. -/
def all : List LogLevel := [silent, error, warn, info, debug, trace]

/-- The level of a name in any case or of a number; errors alone where there is no such level. -/
def ofText (text : String) : LogLevel :=
  let named := all.find? fun l => l.name == Text.lower text
  let numbered := (all.zipIdx.find? fun e => toString e.2 == text).map Prod.fst
  (named.or numbered).getD .error

/-- The place of a level among all. -/
def rank (l : LogLevel) : Nat := all.findIdx (· = l)

/-- A line of level `l` is wanted. -/
def admits (limit l : LogLevel) : Bool := l.rank ≤ limit.rank

end LogLevel

structure LogLine where
  level : LogLevel
  text : String

def LogLine.render (line : LogLine) : String :=
  s!"{line.level.name.map Char.toUpper} {line.text}"

/-- What is logged before a job is carried out. -/
def Job.openingLines (j : Job Float Float32) : List LogLine :=
  let text (v : Float32) : String := NumberText.plain v.toFloat
  let range := j.range.map fun r => s!"Normalization range lo={text r.lo} hi={text r.hi}"
  let scan := if j.options.normalize then "Scanning inputs for normalization range" :: range.toList
    else []
  scan.map (LogLine.mk .info) ++ (Mosaic.warnings j.options j.sources).map (LogLine.mk .warn)

/-- The name under which progress is logged. -/
def task : String := "Generating tiles"

/-- What is logged after a run. -/
def closingLine (s : Summary Float) : LogLine :=
  ⟨.info, s!"Done tiles={s.root.count} levels={s.root.maxLevel + 1}"⟩

/-- A flag as it is written. -/
def flagText (f : Flag Float Float32) : String :=
  let letter := (f.letter.map fun c => s!"-{c}, ").getD "    "
  let value :=
    match f.action with
    | .take _ => " <VALUE>"
    | _ => ""
  s!"  {letter}--{f.name}{value}"

/-- How a command line is made up. -/
def usageText : String := "Usage: [OPTIONS] [INPUT_FILES]..."

/-- What a command prints when it is asked for help. -/
def helpText : String :=
  "\n".intercalate
    ([UsageFault.help.message, "", usageText, "", "Options:"] ++ Flag.all.map flagText)

/-- What a command prints when it ends before its time. -/
def Failure.report (f : Failure) : String :=
  match f with
  | .usage .help => helpText
  | .usage fault => s!"error: {fault.message}\n\n{usageText}"
  | f =>
    match f.cause? with
    | none => s!"Error: {f.message}"
    | some cause => s!"Error: {f.message}\n\nCaused by:\n    {cause.message}"

end TilePyramid.Command
