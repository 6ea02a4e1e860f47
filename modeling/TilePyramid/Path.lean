/-!
# Paths

A path is a text of components between slashes. Repeated slashes, and dots after the first
component, do not count: two paths are the same when their components are.
-/
namespace TilePyramid

/-- One step of a path. -/
inductive Component where
  | root
  | here
  | parent
  | name (text : String)
  deriving DecidableEq, Repr

namespace Component

/-- Roots come first, names last. -/
def rank : Component → Nat
  | .root => 0
  | .here => 1
  | .parent => 2
  | .name _ => 3

def before : Component → Component → Bool
  | .name a, .name b => a < b
  | a, b => rank a < rank b

end Component

structure Path where
  text : String
  deriving Repr, Inhabited

namespace Path

/-- The components of `cs`, each with the number of characters up to its end. `start` counts the
characters before `cs`, and `word` holds, in reverse, the open component. -/
def componentsFrom (start : Nat) (word : List Char) : List Char → List (Component × Nat)
  | [] => close start word
  | c :: cs =>
    if c = '/' then
      let root := if start = 0 then [(Component.root, 1)] else []
      root ++ close start word ++ componentsFrom (start + 1) [] cs
    else componentsFrom (start + 1) (c :: word) cs
where
  /-- The component whose characters end at `stop`. A dot counts only at the very front. -/
  close (stop : Nat) (word : List Char) : List (Component × Nat) :=
    match word with
    | [] => []
    | ['.'] => if stop = 1 then [(.here, stop)] else []
    | ['.', '.'] => [(.parent, stop)]
    | w => [(.name (String.ofList w.reverse), stop)]

/-- The components, each with the number of characters up to its end. -/
def located (p : Path) : List (Component × Nat) :=
  componentsFrom 0 [] p.text.toList

def components (p : Path) : List Component :=
  p.located.map Prod.fst

def takeText (p : Path) (n : Nat) : String :=
  String.ofList (p.text.toList.take n)

/-- The path without its last component; none for the root and for the empty path. -/
def parent? (p : Path) : Option Path :=
  match p.located.reverse with
  | [] => none
  | (.root, _) :: _ => none
  | _ :: [] => some ⟨""⟩
  | _ :: (_, stop) :: _ => some ⟨p.takeText stop⟩

/-- The last component, when it is a name. -/
def fileName? (p : Path) : Option String :=
  match p.located.getLast? with
  | some (.name n, _) => some n
  | _ => none

/-- The part of a file name after its last dot and the part before. A dot at the very front does
not separate. -/
def splitExtension (fileName : String) : String × Option String :=
  let cs := fileName.toList.reverse
  let ext := cs.takeWhile (· ≠ '.')
  match cs.dropWhile (· ≠ '.') with
  | [] => (fileName, none)
  | [_] => (fileName, none)
  | _ :: stem => (String.ofList stem.reverse, some (String.ofList ext.reverse))

def extension? (p : Path) : Option String :=
  p.fileName?.bind fun n => (splitExtension n).2

/-- Replaces what follows the stem of the file name by a new extension; an empty one leaves the
stem alone. A path without a file name is kept. -/
def withExtension (p : Path) (ext : String) : Path :=
  match p.located.getLast? with
  | some (.name n, stop) =>
    let stem := (splitExtension n).1
    let kept := p.takeText (stop - (n.length - stem.length))
    ⟨if ext.isEmpty then kept else kept ++ "." ++ ext⟩
  | _ => p

/-- Appends a path; an absolute one replaces. -/
def join (p q : Path) : Path :=
  if q.text.startsWith "/" then q
  else if p.text.isEmpty || p.text.endsWith "/" then ⟨p.text ++ q.text⟩
  else ⟨p.text ++ "/" ++ q.text⟩

/-- The path with its file name, if it has one, replaced. -/
def withFileName (p : Path) (name : String) : Path :=
  let base := if p.fileName?.isSome then p.parent?.getD ⟨""⟩ else p
  base.join ⟨name⟩

/-- Two paths name the same place when their components agree. -/
def same (p q : Path) : Bool :=
  p.components == q.components

instance : BEq Path := ⟨same⟩

def componentsBefore : List Component → List Component → Bool
  | [], [] => false
  | [], _ :: _ => true
  | _ :: _, [] => false
  | a :: as, b :: bs => a.before b || (a == b && componentsBefore as bs)

/-- Paths are ordered component by component. -/
def before (p q : Path) : Bool :=
  componentsBefore p.components q.components

end Path
end TilePyramid
