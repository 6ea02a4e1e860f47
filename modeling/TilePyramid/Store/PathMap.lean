import TilePyramid.Path

/-!
# Maps from paths

Entries in the order of their paths, one for each place. A later entry for the same place
replaces the value and keeps the spelling of the path.
-/
namespace TilePyramid

structure PathMap (β : Type) where
  entries : List (Path × β)

namespace PathMap

variable {β : Type}

def empty : PathMap β := ⟨[]⟩

def insertInto (path : Path) (value : β) : List (Path × β) → List (Path × β)
  | [] => [(path, value)]
  | (p, v) :: rest =>
    if p.same path then (p, value) :: rest
    else if path.before p then (path, value) :: (p, v) :: rest
    else (p, v) :: insertInto path value rest

def insert (m : PathMap β) (path : Path) (value : β) : PathMap β :=
  ⟨insertInto path value m.entries⟩

def find? (m : PathMap β) (path : Path) : Option β :=
  (m.entries.find? fun e => e.1.same path).map Prod.snd

def size (m : PathMap β) : Nat := m.entries.length

theorem find?_insert_self (m : PathMap β) (path : Path) (value : β) :
    (m.insert path value).find? path = some value := by
  have same_self : path.same path = true := by simp [Path.same]
  simp only [insert, find?]
  induction m.entries with
  | nil => simp [insertInto, same_self]
  | cons e rest ih =>
    obtain ⟨p, v⟩ := e
    simp only [insertInto]
    split
    · next h => simp [h]
    · next h =>
      split
      · simp [same_self]
      · simpa [h] using ih

end PathMap
end TilePyramid
