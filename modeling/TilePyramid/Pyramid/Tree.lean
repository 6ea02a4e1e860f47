import TilePyramid.Box.Pixel

/-!
# Tile trees

A tree with any number of children per node, its orders of traversal, and the tiles at its
nodes. The traversal with an explicit stack and the recursive one list the same nodes.
-/
namespace TilePyramid

/-- A value with subtrees below it. -/
inductive Tree (β : Type) where
  | node (value : β) (children : List (Tree β))

namespace Tree

variable {β γ : Type}

def value : Tree β → β
  | node v _ => v

def children : Tree β → List (Tree β)
  | node _ cs => cs

def isLeaf (t : Tree β) : Bool := t.children.isEmpty

mutual

/-- The number of nodes. -/
def count : Tree β → Nat
  | node _ cs => 1 + countAll cs

def countAll : List (Tree β) → Nat
  | [] => 0
  | t :: ts => t.count + countAll ts

end

mutual

/-- The number of nodes without children. -/
def leafCount : Tree β → Nat
  | node _ [] => 1
  | node _ (t :: ts) => leafCountAll (t :: ts)

def leafCountAll : List (Tree β) → Nat
  | [] => 0
  | t :: ts => t.leafCount + leafCountAll ts

end

mutual

/-- Every node before its children. -/
def preorder : Tree β → List (Tree β)
  | node v cs => node v cs :: preorderAll cs

def preorderAll : List (Tree β) → List (Tree β)
  | [] => []
  | t :: ts => t.preorder ++ preorderAll ts

end

mutual

/-- Every node after its children. -/
def postorder : Tree β → List (Tree β)
  | node v cs => postorderAll cs ++ [node v cs]

def postorderAll : List (Tree β) → List (Tree β)
  | [] => []
  | t :: ts => t.postorder ++ postorderAll ts

end

mutual

/-- The same tree with other values. -/
def map (f : β → γ) : Tree β → Tree γ
  | node v cs => node (f v) (mapAll f cs)

def mapAll (f : β → γ) : List (Tree β) → List (Tree γ)
  | [] => []
  | t :: ts => t.map f :: mapAll f ts

end

theorem countAll_append (ts us : List (Tree β)) :
    countAll (ts ++ us) = countAll ts + countAll us := by
  induction ts with
  | nil => simp [countAll]
  | cons t ts ih => simp [countAll, ih]; omega

/-- Takes the nodes off a stack of trees, each before its children. -/
def walkStack : List (Tree β) → List (Tree β)
  | [] => []
  | node v cs :: stack => node v cs :: walkStack (cs ++ stack)
termination_by stack => countAll stack
decreasing_by
  simp only [countAll, count, countAll_append]
  omega

/-- Every node before its children, with the nodes still to come on a stack. -/
def walk (t : Tree β) : List (Tree β) := walkStack [t]

end Tree

/-- One tile of the tree: its place among the tiles of its level, the quadrant digits that lead to
it, and its box in image pixels, which may reach past the image. -/
structure Tile where
  level : Nat
  path : String
  x : Nat
  y : Nat
  box : PixelBox
  deriving DecidableEq, Repr, Inhabited

abbrev TileTree := Tree Tile

/-- The characters of `text` after `start`, if it starts so. -/
def textAfter? : List Char → List Char → Option (List Char)
  | [], text => some text
  | _ :: _, [] => none
  | s :: start, c :: text => if s = c then textAfter? start text else none

namespace TileTree

def path (t : TileTree) : String := t.value.path

mutual

/-- The deepest level at or below a node. -/
def maxLevel : TileTree → Nat
  | .node t cs => (maxLevelAll cs).getD t.level

def maxLevelAll : List TileTree → Option Nat
  | [] => none
  | t :: ts =>
    match maxLevelAll ts with
    | none => some (maxLevel t)
    | some m => some (max (maxLevel t) m)

end

mutual

/-- The node of a path, looked for digit by digit below nodes whose paths it extends. -/
def find? (path : String) : TileTree → Option TileTree
  | .node t cs =>
    match textAfter? t.path.toList path.toList with
    | none => none
    | some [] => some (.node t cs)
    | some (digit :: _) => findBelow? path (t.path.push digit) cs

/-- Looks below the first node that has the given path. -/
def findBelow? (path childPath : String) : List TileTree → Option TileTree
  | [] => none
  | t :: ts => if t.path = childPath then find? path t else findBelow? path childPath ts

end

end TileTree

/-- The digits of the quadrants: top left, top right, bottom left, bottom right. -/
def quadrantDigit (q : Fin 4) : Char := Char.ofNat ('0'.toNat + q.val)

/-- The place of a quadrant of the tile at `(x, y)`, on the next level. -/
def quadrantPlace (x y : Nat) (q : Fin 4) : Nat × Nat :=
  (2 * x + q.val % 2, 2 * y + q.val / 2)

/-- A quadrant of a box whose side is twice `half`. -/
def quadrantBox (b : PixelBox) (half : Int) (q : Fin 4) : PixelBox :=
  .ofSize (b.minX + (q.val % 2 : Nat) * half) (b.minY + (q.val / 2 : Nat) * half) half half

/-- A quadrant of a tile. -/
def Tile.quadrant (t : Tile) (q : Fin 4) : Tile where
  level := t.level + 1
  path := t.path.push (quadrantDigit q)
  x := (quadrantPlace t.x t.y q).1
  y := (quadrantPlace t.x t.y q).2
  box := quadrantBox t.box (t.box.width.tdiv 2) q

end TilePyramid
