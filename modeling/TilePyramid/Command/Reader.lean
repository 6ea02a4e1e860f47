import TilePyramid.Command.Flag

/-!
# Reading a command line

The words of a command line are taken one by one. A flag waits for its value, and the value is
read only when the next flag or file shows that it is complete; a word that is no flag at all
ends the reading before that.
-/
namespace TilePyramid

open Decimal (OfLiteral)

/-- What has been taken up and is not read yet: files, or a flag that may still wait for its
value. -/
inductive Pending (α σ : Type) where
  | nothing
  | files (names : List String)
  | flag (f : Flag α σ) (value : Option String)

/-- The arguments so far and the flags among them. After a bare double hyphen every word is a
file. -/
structure Reading (α σ : Type) where
  arguments : Arguments α σ
  seen : List String
  pending : Pending α σ
  onlyFiles : Bool

namespace Reading

variable {α σ : Type}

def start : Reading α σ := ⟨.none, [], .nothing, false⟩

/-- Carries out a flag with its value. No flag may be given twice. -/
def applyFlag (r : Reading α σ) (f : Flag α σ) (value : Option String) :
    Except UsageFault (Reading α σ) :=
  let fault (e : ValueFault) : UsageFault := .value f.name e
  let given (a : Arguments α σ) : Reading α σ :=
    { r with arguments := a, seen := f.name :: r.seen, pending := .nothing }
  match f.action, value with
  | .help, _ => .error .help
  | .take _, none => .error (fault .refused)
  | .take read, some v =>
    if r.seen.contains f.name then .error (.repeated f.name)
    else ((read v r.arguments).mapError fault).map given
  | .switch turn, _ =>
    if r.seen.contains f.name then .error (.repeated f.name)
    else .ok (given (turn r.arguments))

/-- Adds files to the inputs. -/
def addFiles (r : Reading α σ) (names : List String) : Except UsageFault (Reading α σ) := do
  let paths ← (names.mapM Flag.path).mapError (UsageFault.value "input files")
  return {
    r with
    arguments := { r.arguments with inputFiles := r.arguments.inputFiles ++ paths }
    pending := .nothing }

/-- Reads what is pending. -/
def settle (r : Reading α σ) : Except UsageFault (Reading α σ) :=
  match r.pending with
  | .nothing => .ok r
  | .files names => r.addFiles names
  | .flag f value => r.applyFlag f value

/-- The flag that waits for its value. -/
def waiting? (r : Reading α σ) : Option (Flag α σ) :=
  match r.pending with
  | .flag f none => if r.onlyFiles then none else some f
  | _ => none

/-- Takes up a file. -/
def takeFile (r : Reading α σ) (name : String) : Except UsageFault (Reading α σ) :=
  match r.pending with
  | .files names => .ok { r with pending := .files (names ++ [name]) }
  | _ => r.settle.map fun r => { r with pending := .files [name] }

/-- Takes up a word that is no flag: the value of the flag that waits, or a file. -/
def takeValue (r : Reading α σ) (word : String) : Except UsageFault (Reading α σ) :=
  match r.waiting? with
  | some f => .ok { r with pending := .flag f (some word) }
  | none => r.takeFile word

/-- Takes up a flag, with the value attached to it if there is one. -/
def takeFlag (r : Reading α σ) (f : Flag α σ) (attached : Option String) :
    Except UsageFault (Reading α σ) :=
  match f.action, attached with
  | .take _, none => r.settle.map fun r => { r with pending := .flag f none }
  | .take _, some v => r.settle.bind fun r => r.applyFlag f (some v)
  | _, some _ => .error (.unexpectedValue f.name)
  | _, none => r.settle.bind fun r => r.applyFlag f none

/-- The parts of a text before and after its first equals sign. -/
def splitValue (cs : List Char) : String × Option String :=
  (String.ofList (cs.takeWhile (· ≠ '=')),
    match cs.dropWhile (· ≠ '=') with
    | [] => none
    | _ :: v => some (String.ofList v))

/-- The value attached to a letter: the rest of the word, an equals sign in front left out. -/
def letterValue : List Char → Option String
  | [] => none
  | '=' :: v => some (String.ofList v)
  | v => some (String.ofList v)

variable [OfLiteral α] [OfLiteral σ]

/-- Takes one word. A value for a flag that allows hyphens is taken whatever it looks like. -/
def step (r : Reading α σ) (word : String) : Except UsageFault (Reading α σ) :=
  if r.onlyFiles then r.takeFile word
  else if r.waiting?.any (·.hyphenValues) then r.takeValue word
  else
    match word.toList with
    | ['-', '-'] => .ok { r with onlyFiles := true }
    | '-' :: '-' :: cs =>
      let (name, attached) := splitValue cs
      match Flag.ofName? name with
      | none => .error (.unknown word)
      | some f => r.takeFlag f attached
    | '-' :: c :: cs =>
      match Flag.ofLetter? c with
      | none => .error (.unknown word)
      | some f =>
        match f.action with
        | .take _ => r.takeFlag f (letterValue cs)
        | _ => r.takeFlag f none
    | _ => r.takeValue word

end Reading

/-- Reads the words of a command line. -/
def Arguments.read {α σ : Type} [OfLiteral α] [OfLiteral σ] (words : List String) :
    Except UsageFault (Arguments α σ) := do
  let r ← words.foldlM Reading.step Reading.start
  return (← r.settle).arguments

end TilePyramid
