import TilePyramid.Command.Reader
import TilePyramid.Mosaic.Run
import TilePyramid.Options.File
import TilePyramid.Source.ImageFile

/-!
# The command

What a command line does among files: options are read and merged, the images opened, and the
run carried out. Everything is read before anything is written.
-/
namespace TilePyramid.Command

/-- How a command can end before its time. -/
inductive Failure where
  | usage (fault : UsageFault)
  | optionsUnread (path : Path)
  | optionsInvalid (path : Path)
  | notOpened (path : Path) (cause : Error)
  | notBuilt (cause : Error)

def Failure.message : Failure → String
  | usage fault => fault.message
  | optionsUnread path => s!"Failed to read options file {path.text}"
  | optionsInvalid path => s!"Invalid options file {path.text}"
  | notOpened path _ => s!"Failed to open {path.text}"
  | notBuilt _ => "Failed to build quad-tree"

/-- The error below a message, if there is one. -/
def Failure.cause? : Failure → Option Error
  | notOpened _ cause | notBuilt cause => some cause
  | _ => none

/-- The status a command ends with. -/
def Failure.status : Failure → Nat
  | usage .help => 0
  | usage _ => 2
  | notOpened _ (.extensionEnds _) => 101
  | _ => 1

/-- The options and the sources of a run, and the range of their values where the run needs
it. -/
structure Job (α σ : Type) where
  options : Options α σ
  sources : List (Source α σ)
  range : Option (ValueRange σ)

/-- The options that the arguments are merged onto. -/
def baseOptions (t : FileTree Float32) (a : Arguments Float Float32) :
    Except Failure (Options Float Float32) :=
  match a.optionsFile with
  | none => .ok .initial
  | some path =>
    match ImageFile.readText t path with
    | .error _ => .error (.optionsUnread path)
    | .ok text =>
      match Options.File.readText text with
      | none => .error (.optionsInvalid path)
      | some o => .ok o

/-- The images that a command line names and the files beside them that may place them, as far
as the options can be read. -/
def inputPaths (t : FileTree Float32) (a : Arguments Float Float32) : List Path :=
  match baseOptions t a with
  | .error _ => []
  | .ok base =>
    (a.merge base).inputFiles.flatMap fun path =>
      path :: (ImageFile.worldPaths path).toOption.getD []

/-- Opens every input. -/
def openAll (t : FileTree Float32) (o : Options Float Float32) :
    Except Failure (List (Source Float Float32)) :=
  o.inputFiles.mapM fun path => (ImageFile.load t path).mapError (Failure.notOpened path)

/-- What a command line asks for. -/
def job (t : FileTree Float32) (a : Arguments Float Float32) :
    Except Failure (Job Float Float32) := do
  let options := a.merge (← baseOptions t a)
  let sources ← openAll t options
  let range := if options.normalize then Source.scan sources options.nodata else none
  return { options, sources, range }

/-- What a job does. -/
def Job.plan (j : Job Float Float32) : Plan Float Float32 (Summary Float) :=
  Mosaic.plan j.options j.sources j.range

/-- Carries out a command line in a file tree. -/
def run (words : List String) :
    StateM (FileTree Float32) (Except Failure (Summary Float)) := do
  match Arguments.read words with
  | .error fault => return .error (.usage fault)
  | .ok a =>
    match job (← get) a with
    | .error failure => return .error failure
    | .ok j =>
      let writer := FileTree.writer j.options.encodeSettings
      let outcome ← j.plan.execute writer fun _ => return ()
      return outcome.mapError .notBuilt

end TilePyramid.Command
