import TilePyramid.Georef.Projection.Definition

/-!
# Cartographic arithmetic

What georeferences ask of coordinates beyond plain arithmetic: lengths, binary logarithms, the
circumference of the circle, number text, and the map projections.
-/
namespace TilePyramid

class Cartography (α : Type) extends Arith α, NumberText α where
  pi : α
  hypot : α → α → α
  log2 : α → α
  projector : String → Datum α → Except GeorefFault (Projector α)

/-- The largest number whose square is at most `n`; `bits` bounds its size. -/
def floorRoot (n : Nat) : Nat → Nat → Nat
  | 0, root => root
  | bits + 1, root =>
    let next := root + 1 <<< bits
    floorRoot n bits (if next * next ≤ n then next else root)

/-- The correctly rounded length of the hypotenuse: the exact sum of squares is scaled to 120
bits or more, its root taken, and a last bit records whether anything was cut off. -/
def exactHypot (x y : Float) : Float :=
  match Decimal.Binary.ofFloat x, Decimal.Binary.ofFloat y with
  | .infinite _, _ | _, .infinite _ => 1.0 / 0.0
  | .nan, _ | _, .nan => 0.0 / 0.0
  | .finite _ mx ex _, .finite _ my ey _ =>
    let e := min ex ey
    let a := mx <<< (ex - e).toNat
    let b := my <<< (ey - e).toNat
    let square := a * a + b * b
    if square = 0 then 0
    else
      let size : Int := square.log2
      let half := (120 - size) / 2
      let scaled := if 0 ≤ half then square <<< (2 * half).toNat else square >>> (-2 * half).toNat
      let root := floorRoot scaled 62 0
      let exact := root * root = scaled && (0 ≤ half || scaled <<< (-2 * half).toNat = square)
      (Float.ofNat (2 * root + if exact then 0 else 1)).scaleB (e - half - 1)

instance : Cartography Float where
  pi := Projection.pi
  hypot := exactHypot
  log2 := Float.log2
  projector := Projection.projector

end TilePyramid
