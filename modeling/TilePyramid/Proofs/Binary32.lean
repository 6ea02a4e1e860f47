import TilePyramid.Arith
import Mathlib

/-!
# Single precision numbers

What sums and means need to know of single precision numbers. Zeros add up to zero, a sum of values
above zero is above zero, however it is rounded, and everything computed from a value that is not a
number is that value again.
-/
namespace TilePyramid

/-- Nothing added to nothing is nothing. -/
class ClearSum (σ : Type) [Arith σ] : Prop where
  zero_add_zero : (ofInt 0 : σ) + ofInt 0 = ofInt 0
  zero_le_zero : (ofInt 0 : σ) ≤ ofInt 0

instance : ClearSum Float32 where
  zero_add_zero := by decide
  zero_le_zero := by decide

namespace Binary32

open Float.Model (Format totalExponent)
open Float.Model.UnpackedFloat
open Float.Model (UnpackedFloat)

/-- Finite or infinite, and above zero. -/
def IsPositive : UnpackedFloat → Prop
  | .infinity .positive => True
  | .finite .positive .. => True
  | _ => False

/-- The mantissa fits, and the exponent is not below that of the smallest value. -/
def Fits (mantissa : Nat) (exponent : Int) : Prop :=
  0 < mantissa ∧ mantissa < 2 ^ 24 ∧ -149 ≤ exponent

section packing

private theorem sign_packComponents (spec : Format) (e : BitVec spec.exponentBits)
    (m : BitVec spec.mantissaBitsWithoutImplicit) :
    Sign.ofBitVec (unpackSign (packComponents spec .positive e m)) = .positive := by
  refine if_pos (BitVec.eq_of_getLsbD_eq fun i hi => ?_)
  obtain rfl : i = 0 := by omega
  simp [unpackSign, packComponents, Sign.toBitVec, BitVec.getLsbD_append, BitVec.getElem_append]

private theorem isPositive_unpack_packComponents {e : BitVec 8} {m : BitVec 23}
    (hnumber : e = -1#8 → m = 0#23) (hpos : e = 0#8 → m ≠ 0#23) :
    IsPositive (UnpackedFloat.unpack .binary32 (packComponents .binary32 .positive e m)) := by
  have hsign := sign_packComponents .binary32 e m
  rw [UnpackedFloat.unpack]
  simp only [unpackMantissa_packComponents, unpackExponent_packComponents, hsign]
  by_cases htop : e = -1#8
  · rw [if_pos htop, if_pos (hnumber htop)]
    trivial
  · rw [if_neg htop]
    by_cases hzero : e = 0#8
    · rw [if_pos hzero, dif_neg (hpos hzero)]
      trivial
    · rw [if_neg hzero]
      trivial

theorem isPositive_unpack_pack {m : Nat} {e : Int} (hm : 0 < m) (h : Fits m e) :
    IsPositive (UnpackedFloat.unpack .binary32 (pack .binary32 (.finite .positive m e hm))) := by
  obtain ⟨-, hlt, he⟩ := h
  let biased := (e + 127 + 23).toNat
  change IsPositive (UnpackedFloat.unpack .binary32 (if 2 ^ 8 ≤ biased + 1 then
    packedInfinity .binary32 .positive else if m.log2 + 1 = 24 then
      packComponents .binary32 .positive (BitVec.ofNat 8 biased) (BitVec.ofNat 23 m)
    else packComponents .binary32 .positive 0#8 (BitVec.ofNat 23 m)))
  have hbiased : 1 ≤ biased := by omega
  by_cases hlarge : 2 ^ 8 ≤ biased + 1
  · rw [if_pos hlarge]
    exact isPositive_unpack_packComponents (fun _ => rfl) (by decide)
  rw [if_neg hlarge]
  have hexponent : (BitVec.ofNat 8 biased).toNat = biased := by
    rw [BitVec.toNat_ofNat, Nat.mod_eq_of_lt (by omega)]
  by_cases hnormal : m.log2 + 1 = 24
  · rw [if_pos hnormal]
    refine isPositive_unpack_packComponents (fun h => ?_) (fun h => ?_)
    · rw [h] at hexponent
      have htop : (-1#8).toNat = 255 := rfl
      omega
    · rw [h] at hexponent
      have hzero : (0#8).toNat = 0 := rfl
      omega
  · rw [if_neg hnormal]
    have hsmall : m < 2 ^ 23 := by
      have hlog : m.log2 < 24 := (Nat.log2_lt hm.ne').mpr hlt
      exact (Nat.log2_lt hm.ne').mp (by omega)
    have hmantissa : (BitVec.ofNat 23 m).toNat = m := by
      rw [BitVec.toNat_ofNat, Nat.mod_eq_of_lt hsmall]
    refine isPositive_unpack_packComponents (fun h => absurd h (by decide)) (fun _ h => ?_)
    rw [h] at hmantissa
    have hzero : (0#23).toNat = 0 := rfl
    omega

theorem fits_of_unpack {b : BitVec 32} {m : Nat} {e : Int} {s : Sign} {hm : 0 < m}
    (h : UnpackedFloat.unpack .binary32 b = .finite s m e hm) : Fits m e := by
  rw [UnpackedFloat.unpack] at h
  have hbias : (Format.binary32.exponentBias : Int) = 127 := rfl
  by_cases htop : @unpackExponent .binary32 b = -1#8
  · rw [if_pos htop] at h
    split at h <;> cases h
  rw [if_neg htop] at h
  by_cases hzero : @unpackExponent .binary32 b = 0#8
  · rw [if_pos hzero] at h
    split at h
    · cases h
    · obtain ⟨-, rfl, rfl⟩ := UnpackedFloat.finite.inj h
      have hlt : (@unpackMantissa .binary32 b).toNat < 2 ^ 23 := BitVec.isLt _
      rw [hzero, hbias]
      exact ⟨hm, by omega, by decide⟩
  · rw [if_neg hzero] at h
    obtain ⟨-, rfl, rfl⟩ := UnpackedFloat.finite.inj h
    have hlt : (1#1 ++ @unpackMantissa .binary32 b).toNat < 2 ^ 24 := BitVec.isLt _
    have hpos : 0 < (@unpackExponent .binary32 b).toNat :=
      Nat.pos_of_ne_zero fun h0 => hzero (BitVec.eq_of_toNat_eq h0)
    rw [hbias]
    refine ⟨hm, hlt, ?_⟩
    change -149 ≤ ((@unpackExponent .binary32 b).toNat : Int) - (127 + 23)
    omega

end packing

section rounding

private theorem mantissa_shiftRight (em : ExtendedMantissa) (n : Nat) :
    (em >>> n).mantissa = em.mantissa / 2 ^ n := by
  change (n.repeat ExtendedMantissa.shiftRightOne em).mantissa = _
  induction n with
  | zero => rw [Nat.repeat, Nat.pow_zero, Nat.div_one]
  | succ n ih =>
    rw [Nat.repeat, ExtendedMantissa.shiftRightOne, ih, Nat.div_div_eq_div_mul, Nat.pow_succ]

private theorem roundedMantissa_bounds (em : ExtendedMantissa) :
    em.mantissa ≤ em.roundedMantissa ∧ em.roundedMantissa ≤ em.mantissa + 1 := by
  obtain ⟨mantissa, _ | _, _ | _⟩ := em <;>
    simp only [ExtendedMantissa.roundedMantissa, ExtendedMantissa.accuracy,
      Accuracy.roundToNearestEven] <;> omega

private theorem fits_shiftToTargetExponent {m : Nat} {e : Int} (hm : 0 < m) (he : -149 ≤ e)
    (accuracy : Accuracy) :
    Fits (shiftToTargetExponent .binary32 m e accuracy).1.mantissa
      (shiftToTargetExponent .binary32 m e accuracy).2 := by
  let n := m.log2 - 23
  have hshift : (Format.binary32.targetExponent (totalExponent m e) - e).toNat = n := by
    have htarget : Format.binary32.targetExponent (totalExponent m e) =
        max (m.log2 + 1 + e - 24) (-149) := rfl
    rw [htarget]
    omega
  have hmantissa : (shiftToTargetExponent .binary32 m e accuracy).1.mantissa = m / 2 ^ n := by
    have hexact (accuracy : Accuracy) :
        (ExtendedMantissa.ofMantissaAndAccuracy m accuracy).mantissa = m := by
      obtain _ | (_ | _ | _) := accuracy <;> rfl
    rw [shiftToTargetExponent, shiftToExponent, hshift, mantissa_shiftRight, hexact]
  have hexponent : (shiftToTargetExponent .binary32 m e accuracy).2 = e + n := by
    rw [shiftToTargetExponent, shiftToExponent, hshift]
  rw [hmantissa, hexponent]
  refine ⟨Nat.div_pos ?_ (Nat.two_pow_pos n), Nat.div_lt_of_lt_mul ?_, by omega⟩
  · calc
      2 ^ n ≤ 2 ^ m.log2 := Nat.pow_le_pow_right Nat.two_pos (Nat.sub_le ..)
      _ ≤ m := Nat.log2_self_le hm.ne'
  · calc
      m < 2 ^ (m.log2 + 1) := Nat.lt_log2_self
      _ ≤ 2 ^ (n + 24) := Nat.pow_le_pow_right Nat.two_pos (by omega)
      _ = 2 ^ n * 2 ^ 24 := Nat.pow_add ..

theorem fits_roundWithAccuracy {m : Nat} {e : Int} (hm : 0 < m) (he : -149 ≤ e) (sign : Sign)
    (accuracy : Accuracy) :
    ∃ m' e' hm', roundWithAccuracy .binary32 sign m e accuracy = .finite sign m' e' hm' ∧
      Fits m' e' := by
  -- Rounding up may make the mantissa one bit too long, which a second shift takes back.
  obtain ⟨hfirst, -, hexponent⟩ := fits_shiftToTargetExponent hm he accuracy
  have hrounded := (roundedMantissa_bounds (shiftToTargetExponent .binary32 m e accuracy).1).1
  have hlast := fits_shiftToTargetExponent (by omega) hexponent .exact
    (m := (shiftToTargetExponent .binary32 m e accuracy).1.roundedMantissa)
  exact ⟨_, _, hlast.1, dif_neg hlast.1.ne', hlast⟩

private theorem shiftLeft_pos {m : Nat} (hm : 0 < m) (n : Nat) : 0 < m <<< n := by
  rw [Nat.shiftLeft_eq]
  exact Nat.mul_pos hm (Nat.two_pow_pos n)

theorem fits_round {m : Nat} {e : Int} (hm : 0 < m) (he : -149 ≤ e) (sign : Sign) :
    ∃ m' e' hm', UnpackedFloat.round .binary32 sign m e = .finite sign m' e' hm' ∧ Fits m' e' := by
  let target := Format.binary32.targetExponent (totalExponent m e)
  have htarget : -149 ≤ target := Int.le_max_right ..
  exact fits_roundWithAccuracy (shiftLeft_pos hm (e - target).toNat) (by omega) sign .exact

end rounding

/-- The value that the bits of a number stand for. -/
def value (x : Float32) : UnpackedFloat := x.toModel.unpack

/-- The value that is not a number. -/
def nan : Float32 := .ofModel (.pack .notANumber)

private theorem value_zero : value (ofInt 0) = .zero .positive := rfl

theorem value_nan : value nan = .notANumber := rfl

theorem lt_iff_value_lt (x y : Float32) : x < y ↔ (value x).lt (value y) = true :=
  decide_eq_true_iff

private theorem le_iff_value_le (x y : Float32) : x ≤ y ↔ (value x).le (value y) = true :=
  decide_eq_true_iff

theorem zero_lt_iff (x : Float32) : ofInt 0 < x ↔ IsPositive (value x) := by
  rw [lt_iff_value_lt, value_zero]
  obtain (_ | _) | _ | (_ | _) | ⟨_ | _, _, _, _⟩ := value x <;>
    simp [UnpackedFloat.lt, UnpackedFloat.compare, IsPositive]

theorem not_le_zero_iff (x : Float32) :
    ¬ x ≤ ofInt 0 ↔ IsPositive (value x) ∨ value x = .notANumber := by
  rw [le_iff_value_le, value_zero]
  obtain (_ | _) | _ | (_ | _) | ⟨_ | _, _, _, _⟩ := value x <;>
    simp [UnpackedFloat.le, UnpackedFloat.compare, IsPositive, Ordering.isLE]

private theorem isPositive_iff {u : UnpackedFloat} :
    IsPositive u ↔ u = .infinity .positive ∨ ∃ m e hm, u = .finite .positive m e hm := by
  obtain (_ | _) | _ | (_ | _) | ⟨_ | _, _, _, hm⟩ := u <;> simp [IsPositive]
  exact hm

private theorem fits_of_value {x : Float32} {m : Nat} {e : Int} {s : Sign} {hm : 0 < m}
    (h : value x = .finite s m e hm) : Fits m e :=
  fits_of_unpack h

/-- A sum of values above zero is above zero. -/
theorem isPositive_value_add {x y : Float32} (hx : IsPositive (value x))
    (hy : IsPositive (value y)) : IsPositive (value (x + y)) := by
  change IsPositive (UnpackedFloat.unpack .binary32 (pack .binary32
    (UnpackedFloat.add .binary32 (value x) (value y))))
  have hinfinite : IsPositive (UnpackedFloat.unpack .binary32 (pack .binary32
    (.infinity .positive))) := trivial
  obtain hvx | ⟨m, e, hm, hvx⟩ := isPositive_iff.mp hx <;>
    obtain hvy | ⟨m', e', hm', hvy⟩ := isPositive_iff.mp hy <;> rw [hvx, hvy]
  · exact hinfinite
  · exact hinfinite
  · exact hinfinite
  · obtain ⟨-, -, he⟩ := fits_of_value hvx
    obtain ⟨-, -, he'⟩ := fits_of_value hvy
    -- Both mantissas are brought to the lower exponent, so that neither of them loses a bit.
    let sum := m <<< (e - min e e').toNat + m' <<< (e' - min e e').toNat
    have hsum : 0 < sum := Nat.add_pos_left (shiftLeft_pos hm _) _
    have hexponent : -149 ≤ min e e' := by omega
    have hadd : UnpackedFloat.add .binary32 (.finite .positive m e hm)
        (.finite .positive m' e' hm') = UnpackedFloat.round .binary32 .positive sum (min e e') := by
      change UnpackedFloat.normalize .binary32 (sum : Int) (min e e') .positive = _
      rw [UnpackedFloat.normalize, Int.compare_eq_gt.mpr (by omega)]
      rfl
    obtain ⟨m'', e'', hm'', hround, hfits⟩ := fits_round hsum hexponent .positive
    rw [hadd, hround]
    exact isPositive_unpack_pack hm'' hfits

theorem isPositive_value_zero_add {x : Float32} (hx : IsPositive (value x)) :
    IsPositive (value (ofInt 0 + x)) := by
  change IsPositive (UnpackedFloat.unpack .binary32 (pack .binary32
    (UnpackedFloat.add .binary32 (value (ofInt 0)) (value x))))
  rw [value_zero]
  obtain hvx | ⟨m, e, hm, hvx⟩ := isPositive_iff.mp hx <;> rw [hvx]
  · trivial
  · exact isPositive_unpack_pack hm (fits_of_value hvx)

section nan
variable {x : Float32} (y : Float32)

theorem add_of_nan_left (hx : value x = .notANumber) : x + y = nan := by
  change Float32.ofModel (.pack (UnpackedFloat.add .binary32 (value x) (value y))) = nan
  rw [hx]
  rfl

theorem add_of_nan_right (hx : value x = .notANumber) : y + x = nan := by
  change Float32.ofModel (.pack (UnpackedFloat.add .binary32 (value y) (value x))) = nan
  rw [hx]
  cases value y <;> rfl

theorem mul_of_nan_right (hx : value x = .notANumber) : y * x = nan := by
  change Float32.ofModel (.pack (UnpackedFloat.mul .binary32 (value y) (value x))) = nan
  rw [hx]
  cases value y <;> rfl

theorem div_of_nan_left (hx : value x = .notANumber) : x / y = nan := by
  change Float32.ofModel (.pack (UnpackedFloat.div .binary32 (value x) (value y))) = nan
  rw [hx]
  rfl

end nan

end Binary32
end TilePyramid
