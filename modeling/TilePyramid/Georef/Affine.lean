import TilePyramid.Arith
import TilePyramid.Decimal.Text

/-!
# Affine pixel transforms

The six numbers that take pixel coordinates to map coordinates:
`x = a * col + b * row + c` and `y = d * col + e * row + f`. Pixel coordinates count from the
corner of the image, so its corners are `(0, 0)` and `(cols, rows)`.
-/
namespace TilePyramid

structure Affine (α : Type) where
  a : α
  b : α
  c : α
  d : α
  e : α
  f : α
  deriving DecidableEq, Repr

namespace Affine

variable {α : Type}

section
variable [Arith α]

/-- Axis-aligned steps from an origin. -/
def steps (stepX stepY originX originY : α) : Affine α :=
  ⟨stepX, ofInt 0, originX, ofInt 0, stepY, originY⟩

def apply (t : Affine α) (p : α × α) : α × α :=
  (t.a * p.1 + t.b * p.2 + t.c, t.d * p.1 + t.e * p.2 + t.f)

def determinant (t : Affine α) : α := t.a * t.e - t.b * t.d

/-- The transform that undoes `t`; none when the determinant is zero or not finite. -/
def inverse? (t : Affine α) : Option (Affine α) :=
  let det := t.determinant
  if det == ofInt 0 || !Arith.isFinite det then none
  else
    let inv := ofInt 1 / det
    let a := t.e * inv
    let b := -t.b * inv
    let d := -t.d * inv
    let e := t.a * inv
    some ⟨a, b, -(a * t.c + b * t.f), d, e, -(d * t.c + e * t.f)⟩

/-- Rows or columns are not along the axes. -/
def isRotated (t : Affine α) : Bool :=
  t.b != ofInt 0 || t.d != ofInt 0

end

section
variable [NumberText α]

/-- A matrix in two rows. -/
def text (t : Affine α) : String :=
  let n : α → String := NumberText.plain
  s!"[{n t.a} {n t.b} {n t.c}; {n t.d} {n t.e} {n t.f}]"

/-- A description that names the six numbers. -/
def describe (t : Affine α) : String :=
  let n : α → String := NumberText.described
  "Affine \x7b a: " ++ n t.a ++ ", b: " ++ n t.b ++ ", c: " ++ n t.c ++ ", d: " ++ n t.d ++
    ", e: " ++ n t.e ++ ", f: " ++ n t.f ++ " \x7d"

end

end Affine
end TilePyramid
