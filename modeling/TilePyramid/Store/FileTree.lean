import TilePyramid.Raster.Encoding
import TilePyramid.Store.Writer

/-!
# File trees

Directories and files as a value. A place is the list of names that leads to it; paths are
followed step by step, so every step but the last has to be a directory.
-/
namespace TilePyramid

/-- What a file holds. Bytes that are neither an image nor a text are unknown. -/
inductive FileContent (σ : Type) where
  | text (contents : String)
  | image (contents : EncodedImage σ)
  | unknown

structure FileTree (σ : Type) where
  directories : List (List String)
  files : List (List String × FileContent σ)

namespace FileTree

variable {σ : Type}

/-- A tree with nothing in it. -/
def empty : FileTree σ := ⟨[], []⟩

/-- The place a component leads to. -/
def step (place : List String) : Component → List String
  | .root => ["/"]
  | .here => place
  | .parent =>
    match place.getLast? with
    | none => [".."]
    | some ".." => place ++ [".."]
    | some "/" => place
    | some _ => place.dropLast
  | .name n => place ++ [n]

def place (path : Path) : List String := path.components.foldl step []

/-- The directory one is in, those above it and the root always exist. -/
def isDirectory (t : FileTree σ) (place : List String) : Bool :=
  place.all (fun n => n == ".." || n == "/") || t.directories.contains place

/-- The text of the path ends like that of a directory. -/
def namesDirectory (path : Path) : Bool :=
  path.text.endsWith "/" || path.text.endsWith "/."

def file? (t : FileTree σ) (place : List String) : Option (FileContent σ) :=
  t.files.lookup place

/-- Follows the components of a path; every place on the way has to be a directory. -/
def reach (t : FileTree σ) : List String → List Component → Option (List String)
  | place, [] => some place
  | place, c :: cs => if t.isDirectory place then t.reach (step place c) cs else none

/-- The contents of the file at a path. -/
def read (t : FileTree σ) (path : Path) : Except Error (FileContent σ) :=
  match t.reach [] path.components with
  | none => .error (.io "No such file or directory")
  | some place =>
    match t.file? place with
    | none => .error (.io (if t.isDirectory place then "Is a directory" else
        "No such file or directory"))
    | some c => if namesDirectory path then .error (.io "Not a directory") else .ok c

/-- There is a file at the path. -/
def isFile (t : FileTree σ) (path : Path) : Bool :=
  !namesDirectory path && ((t.reach [] path.components).bind t.file?).isSome

/-- Makes the directory of each step of a path, where there is none yet. A file in the way is an
error. -/
def makeDirectories (t : FileTree σ) (place : List String) :
    List Component → Except Error (FileTree σ)
  | [] => .ok t
  | c :: cs =>
    let next := step place c
    if (t.file? next).isSome then .error (.io "File exists")
    else if t.isDirectory next then makeDirectories t next cs
    else makeDirectories { t with directories := t.directories ++ [next] } next cs

/-- Puts a file at a place, over one that is there. -/
def put (t : FileTree σ) (place : List String) (content : FileContent σ) : FileTree σ :=
  { t with files := t.files.filter (fun f => f.1 != place) ++ [(place, content)] }

/-- Writes a file, making the directories above it. -/
def write (t : FileTree σ) (path : Path) (content : FileContent σ) :
    Except Error (FileTree σ) := do
  let above := ((path.parent?.map Path.components).getD [])
  let t ← t.makeDirectories [] above
  if namesDirectory path || t.isDirectory (place path) then .error (.io "Is a directory")
  else .ok (t.put (place path) content)

/-- Runs a write; after a failure the tree is as before. -/
def commit (change : FileTree σ → Except Error (FileTree σ)) :
    StateM (FileTree σ) (Except Error Unit) := fun t =>
  match change t with
  | .ok next => (.ok (), next)
  | .error e => (.error e, t)

/-- Stores encoded tiles and metadata in the tree. A tile is encoded before anything is
written. -/
def writer [Arith σ] (settings : EncodeSettings) : TileWriter (StateM (FileTree σ)) σ where
  writeTile path raster := commit fun t => do
    let encoded ← raster.encode (← tileExtension path) settings
    t.write path (.image encoded)
  writeMetadata path text := commit fun t => t.write path (.text text)

end FileTree
end TilePyramid
