/-!
# Arithmetic

Placement, sampling and blending are written once, over any number type with the operations
of `Arith`. A run uses `Float` for coordinates and `Float32` for samples; an ordered field with
a floor function has the same operations without rounding.
-/
namespace TilePyramid

/-- The operations the imaging code needs of its numbers. Comparisons may fail on values that
are not numbers; `round` sends halves away from zero; `toInt` drops the fraction and saturates
at the range of a 64-bit index. -/
class Arith (α : Type) extends Add α, Sub α, Mul α, Div α, Neg α, LT α, LE α, BEq α where
  decLt : DecidableLT α
  decLe : DecidableLE α
  ofInt : Int → α
  floor : α → α
  ceil : α → α
  round : α → α
  toInt : α → Int
  isFinite : α → Bool

attribute [reducible, instance] Arith.decLt Arith.decLe

export Arith (ofInt)

/-- Carries a coordinate over to the type of the samples. -/
class Narrow (α σ : Type) where
  narrow : α → σ

export Narrow (narrow)

instance : Arith Float where
  decLt := Float.decLt
  decLe := Float.decLe
  ofInt := Float.ofInt
  floor := Float.floor
  ceil := Float.ceil
  round := Float.round
  toInt x := x.toInt64.toInt
  isFinite := Float.isFinite

namespace Single

open Float.Model.UnpackedFloat (Sign)

-- Both are read off the value of the bits: no proof can look into the operations of the machine.

/-- The nearest whole number; halves go away from zero. -/
def round (x : Float32) : Float32 :=
  match x.toModel.unpack with
  | .finite sign m e _ =>
    if 0 ≤ e then x
    else
      let bits := (-e).toNat
      let whole := Float32.ofNat ((m + 1 <<< (bits - 1)) >>> bits)
      match sign with
      | .positive => whole
      | .negative => -whole
  | _ => x

/-- Drops the fraction; what is beyond 64 bits becomes the end of their range. -/
def toInt (x : Float32) : Int :=
  match x.toModel.unpack with
  | .zero _ | .notANumber => 0
  | .infinity .positive => Int64.maxValue.toInt
  | .infinity .negative => Int64.minValue.toInt
  | .finite sign m e _ =>
    let whole := if 0 ≤ e then m <<< e.toNat else m >>> (-e).toNat
    max Int64.minValue.toInt (min Int64.maxValue.toInt (sign.apply whole))

end Single

instance : Arith Float32 where
  decLt := Float32.decLt
  decLe := Float32.decLe
  ofInt := Float32.ofInt
  floor := Float32.floor
  ceil := Float32.ceil
  round := Single.round
  toInt := Single.toInt
  isFinite := Float32.isFinite

instance : Narrow Float Float32 := ⟨Float.toFloat32⟩

namespace Arith

variable {α : Type} [Arith α]

/-- The smaller of two values; a value that is not a number gives way to the other one. -/
def lesser (a b : α) : α :=
  if a == a then if b < a then b else a else b

/-- The larger of two values; a value that is not a number gives way to the other one. -/
def greater (a b : α) : α :=
  if a == a then if a < b then b else a else b

/-- The point of `[lo, hi]` nearest to `v`. -/
def clamp (lo hi v : α) : α :=
  if v < lo then lo else if hi < v then hi else v

def magnitude (v : α) : α :=
  if v < ofInt 0 then -v else v

/-- Drops the fraction. -/
def trunc (v : α) : α :=
  if v < ofInt 0 then ceil v else floor v

end Arith

end TilePyramid
