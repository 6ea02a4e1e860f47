import TilePyramid.Proofs.Binary32
import TilePyramid.Proofs.WholeNumbers

/-!
# Whole numbers in single precision

A whole number of 24 bits is a value of single precision, and packing it loses nothing. From this
form follow the few operations on whole numbers that images ask for.
-/
namespace TilePyramid.Binary32

open Float.Model (Format totalExponent UnpackedFloat)
open Float.Model.UnpackedFloat

section normal
variable {m : Nat} {e : Int}

private theorem toNat_implicit_append (h : 2 ^ 23 ≤ m) (hlt : m < 2 ^ 24) :
    (1#1 ++ BitVec.ofNat 23 m).toNat = m := by
  rw [BitVec.toNat_append, ← Nat.shiftLeft_add_eq_or_of_lt (BitVec.isLt _), BitVec.toNat_ofNat]
  change 2 ^ 23 + m % 2 ^ 23 = m
  omega

theorem unpack_pack (hm : 2 ^ 23 ≤ m) (hlt : m < 2 ^ 24) (hlo : -149 ≤ e) (hhi : e ≤ 104)
    (hpos : 0 < m) :
    UnpackedFloat.unpack .binary32 (pack .binary32 (.finite .positive m e hpos)) =
      .finite .positive m e hpos := by
  let biased := (e + 127 + 23).toNat
  have hbiased : ¬ 2 ^ 8 ≤ biased + 1 := by omega
  have hlog : m.log2 + 1 = 24 := by
    rw [(Nat.log2_eq_iff hpos.ne').mpr ⟨hm, hlt⟩]
  have hexponent : (BitVec.ofNat 8 biased).toNat = biased := by
    rw [BitVec.toNat_ofNat, Nat.mod_eq_of_lt (by omega)]
  have htop : BitVec.ofNat 8 biased ≠ -1#8 := by
    intro h
    rw [h] at hexponent
    have htop : (-1#8).toNat = 255 := rfl
    omega
  have hzero : BitVec.ofNat 8 biased ≠ 0#8 := by
    intro h
    rw [h] at hexponent
    have hzero : (0#8).toNat = 0 := rfl
    omega
  change UnpackedFloat.unpack .binary32 (if 2 ^ 8 ≤ biased + 1 then
    packedInfinity .binary32 .positive else if m.log2 + 1 = 24 then
      packComponents .binary32 .positive (BitVec.ofNat 8 biased) (BitVec.ofNat 23 m)
    else packComponents .binary32 .positive 0#8 (BitVec.ofNat 23 m)) = _
  rw [if_neg hbiased, if_pos hlog, UnpackedFloat.unpack]
  simp only [unpackMantissa_packComponents, unpackExponent_packComponents,
    unpackSign_packComponents]
  rw [if_neg htop, if_neg hzero, UnpackedFloat.finite.injEq]
  refine ⟨rfl, toNat_implicit_append hm hlt, ?_⟩
  rw [hexponent]
  change (biased : Int) - (127 + 23) = e
  omega

private theorem repeat_shiftRightOne (m n : Nat) :
    n.repeat ExtendedMantissa.shiftRightOne ⟨m * 2 ^ n, false, false⟩ = ⟨m, false, false⟩ := by
  induction n generalizing m with
  | zero => rw [Nat.pow_zero, Nat.mul_one, Nat.repeat]
  | succ n ih =>
    have hshift : m * 2 ^ (n + 1) = (m * 2) * 2 ^ n := by rw [Nat.pow_succ', Nat.mul_assoc]
    rw [Nat.repeat, hshift, ih, ExtendedMantissa.shiftRightOne]
    simp

private theorem log2_mul_two_pow (hpos : 0 < m) (n : Nat) : (m * 2 ^ n).log2 = m.log2 + n := by
  have hne : m * 2 ^ n ≠ 0 := (Nat.mul_pos hpos (Nat.two_pow_pos n)).ne'
  rw [Nat.log2_eq_iff hne, Nat.pow_add, Nat.add_right_comm, Nat.pow_add]
  constructor
  · exact Nat.mul_le_mul_right _ (Nat.log2_self_le hpos.ne')
  · exact Nat.mul_lt_mul_of_pos_right Nat.lt_log2_self (Nat.two_pow_pos n)

private theorem shiftToTargetExponent_mul_two_pow {e' : Int} (n : Nat) (hm : 2 ^ 23 ≤ m)
    (hlt : m < 2 ^ 24) (he : e + n = e') (hlo : -149 ≤ e') :
    shiftToTargetExponent .binary32 (m * 2 ^ n) e .exact = (⟨m, false, false⟩, e') := by
  have hpos : 0 < m := by omega
  have hlog : (m * 2 ^ n).log2 = 23 + n := by
    rw [log2_mul_two_pow hpos, (Nat.log2_eq_iff hpos.ne').mpr ⟨hm, hlt⟩]
  have htarget : Format.binary32.targetExponent (totalExponent (m * 2 ^ n) e) = e' := by
    change max (((m * 2 ^ n).log2 : Int) + 1 + e - 24) (-149) = e'
    rw [hlog]
    omega
  have hamount : (e' - e).toNat = n := by omega
  rw [shiftToTargetExponent, htarget, shiftToExponent, hamount, ← he]
  exact congrArg (·, e + n) (repeat_shiftRightOne m n)

theorem roundWithAccuracy_mul_two_pow {e' : Int} (n : Nat) (hm : 2 ^ 23 ≤ m) (hlt : m < 2 ^ 24)
    (he : e + n = e') (hlo : -149 ≤ e') (s : Sign) (hpos : 0 < m) :
    roundWithAccuracy .binary32 s (m * 2 ^ n) e .exact = .finite s m e' hpos := by
  have hfirst := shiftToTargetExponent_mul_two_pow n hm hlt he hlo
  have hrounded : (⟨m, false, false⟩ : ExtendedMantissa).roundedMantissa = m := rfl
  have hagain := shiftToTargetExponent_mul_two_pow 0 hm hlt (Int.add_zero e') hlo
  rw [Nat.pow_zero, Nat.mul_one] at hagain
  rw [roundWithAccuracy]
  simp only [hfirst, hrounded, hagain]
  rw [dif_neg hpos.ne']

end normal

section whole

/-- The zeros that fill up a mantissa of 24 bits. -/
def room (n : Nat) : Nat := 23 - n.log2

/-- The value of a whole number. -/
def whole (n : Nat) : UnpackedFloat :=
  if h : 0 < n then
    .finite .positive (n * 2 ^ room n) (-room n) (Nat.mul_pos h (Nat.two_pow_pos _))
  else .zero .positive

variable {n : Nat}

theorem whole_of_pos (h : 0 < n) :
    whole n = .finite .positive (n * 2 ^ room n) (-room n) (Nat.mul_pos h (Nat.two_pow_pos _)) :=
  dif_pos h

theorem mantissa_bounds (h : 0 < n) (hlt : n < 2 ^ 24) :
    2 ^ 23 ≤ n * 2 ^ room n ∧ n * 2 ^ room n < 2 ^ 24 := by
  have hlog : n.log2 ≤ 23 := Nat.le_of_lt_succ ((Nat.log2_lt h.ne').mpr hlt)
  have hroom : n.log2 + room n = 23 := Nat.add_sub_of_le hlog
  constructor
  · calc
      2 ^ 23 = 2 ^ n.log2 * 2 ^ room n := by rw [← Nat.pow_add, hroom]
      _ ≤ n * 2 ^ room n := Nat.mul_le_mul_right _ (Nat.log2_self_le h.ne')
  · calc
      n * 2 ^ room n < 2 ^ (n.log2 + 1) * 2 ^ room n :=
        Nat.mul_lt_mul_of_pos_right Nat.lt_log2_self (Nat.two_pow_pos _)
      _ = 2 ^ 24 := by rw [← Nat.pow_add, Nat.add_right_comm, hroom]

theorem unpack_pack_whole (hlt : n < 2 ^ 24) :
    UnpackedFloat.unpack .binary32 (pack .binary32 (whole n)) = whole n := by
  obtain rfl | h := n.eq_zero_or_pos
  · rfl
  · obtain ⟨hm, hm'⟩ := mantissa_bounds h hlt
    have hroom : room n ≤ 23 := Nat.sub_le ..
    rw [whole_of_pos h]
    exact unpack_pack hm hm' (by omega) (by omega) _

theorem ofNat_eq_whole (hlt : n < 2 ^ 24) : UnpackedFloat.ofNat .binary32 n = whole n := by
  obtain rfl | h := n.eq_zero_or_pos
  · rfl
  · obtain ⟨hm, hm'⟩ := mantissa_bounds h hlt
    have hlog : n.log2 ≤ 23 := Nat.le_of_lt_succ ((Nat.log2_lt h.ne').mpr hlt)
    have hroom : (room n : Int) = 23 - n.log2 := by
      rw [room]
      omega
    have htarget : Format.binary32.targetExponent (totalExponent n 0) = -room n := by
      change max ((n.log2 : Int) + 1 + 0 - 24) (-149) = -room n
      omega
    have hround : UnpackedFloat.round .binary32 .positive n 0 = whole n := by
      have hamount : (0 - -(room n : Int)).toNat = room n := by omega
      have hmantissa : n <<< room n = n * 2 ^ room n * 2 ^ 0 := by
        rw [Nat.shiftLeft_eq, Nat.pow_zero, Nat.mul_one]
      rw [UnpackedFloat.round]
      simp only [htarget, decreaseExponent, hamount]
      rw [hmantissa, whole_of_pos h]
      exact roundWithAccuracy_mul_two_pow 0 hm hm' (by omega) (by omega) _ _
    rw [UnpackedFloat.ofNat, UnpackedFloat.ofInt, UnpackedFloat.normalize,
      Int.compare_eq_gt.mpr (by omega)]
    exact hround

theorem mul_whole_one (hlt : n < 2 ^ 24) :
    UnpackedFloat.mul .binary32 (whole n) (whole 1) = whole n := by
  obtain rfl | h := n.eq_zero_or_pos
  · rfl
  · obtain ⟨hm, hm'⟩ := mantissa_bounds h hlt
    have hroom : room n ≤ 23 := Nat.sub_le ..
    have hexponent : -(room n : Int) + -(room 1 : Int) + 23 = -room n := by
      have hone : room 1 = 23 := rfl
      omega
    rw [whole_of_pos h]
    exact roundWithAccuracy_mul_two_pow 23 hm hm' hexponent (by omega) _ _

/-- A whole number is stored as its value. -/
theorem ofInt_eq (hlt : n < 2 ^ 23) : (ofInt n : Float32) = .ofModel (.pack (whole n)) := by
  have hwide : n < 2 ^ 24 := by omega
  have hbits : n.toUInt64.toNat = n := by
    rw [Nat.toUInt64, UInt64.toNat_ofNat', Nat.mod_eq_of_lt (by omega)]
  have hsplit : (ofInt n : Float32) = n.toUInt64.toFloat32 * Float32.ofBits 1065353216 := by
    change Float32.ofScientific n false 0 = _
    rw [Float32.ofScientific, dif_pos ⟨hlt, by decide⟩]
    rfl
  have hone : value (Float32.ofBits 1065353216) = whole 1 := rfl
  have hvalue : value n.toUInt64.toFloat32 = whole n := by
    change UnpackedFloat.unpack .binary32 (pack .binary32 (UnpackedFloat.ofNat .binary32
      n.toUInt64.toNat)) = whole n
    rw [hbits, ofNat_eq_whole hwide, unpack_pack_whole hwide]
  rw [hsplit]
  change Float32.ofModel (.pack (UnpackedFloat.mul .binary32 (value n.toUInt64.toFloat32)
    (value (Float32.ofBits 1065353216)))) = _
  rw [hvalue, hone, mul_whole_one hwide]

theorem value_ofInt (hlt : n < 2 ^ 23) : value (ofInt n) = whole n := by
  rw [ofInt_eq hlt]
  exact unpack_pack_whole (by omega)

theorem whole_not_lt {m : Nat} (hle : m ≤ n) : (whole n).lt (whole m) = false := by
  obtain rfl | hm := m.eq_zero_or_pos
  · obtain rfl | hn := n.eq_zero_or_pos
    · rfl
    · rw [whole_of_pos hn]
      rfl
  · have hn : 0 < n := hm.trans_le hle
    have hlog : m.log2 ≤ n.log2 := by
      rw [Nat.log2_eq_log_two, Nat.log2_eq_log_two]
      exact Nat.log_mono_right hle
    have hroom : room n ≤ room m := Nat.sub_le_sub_left hlog 23
    rw [whole_of_pos hn, whole_of_pos hm]
    change (some ((compare (-(room n : Int)) (-(room m : Int))).then
      (compare (n * 2 ^ room n) (m * 2 ^ room m))) == some Ordering.lt) = false
    obtain heq | hlt := hroom.eq_or_lt
    · have hmantissa : m * 2 ^ room m ≤ n * 2 ^ room m := Nat.mul_le_mul_right _ hle
      rw [heq, Int.compare_eq_eq.mpr rfl]
      apply beq_eq_false_iff_ne.mpr
      intro h
      exact hmantissa.not_gt (Nat.compare_eq_lt.mp (Option.some.inj h))
    · rw [Int.compare_eq_gt.mpr (by omega)]
      rfl

private theorem room_pos (hpos : 0 < n) (hlt : n < 2 ^ 23) : 0 < room n := by
  have hlog : n.log2 < 23 := (Nat.log2_lt hpos.ne').mpr hlt
  exact Nat.sub_pos_of_lt hlog

theorem round_ofInt (hlt : n < 2 ^ 23) : Single.round (ofInt n) = ofInt n := by
  have hvalue : (ofInt n : Float32).toModel.unpack = whole n := value_ofInt hlt
  rw [Single.round, hvalue]
  obtain rfl | h := n.eq_zero_or_pos
  · rfl
  · have hroom := room_pos h hlt
    have hfraction : ¬ 0 ≤ -(room n : Int) := by omega
    have hbits : (- -(room n : Int)).toNat = room n := by omega
    have hwhole : (n * 2 ^ room n + 1 <<< (room n - 1)) >>> room n = n := by
      have hhalf : 1 <<< (room n - 1) < 2 ^ room n := by
        rw [Nat.shiftLeft_eq, Nat.one_mul]
        exact Nat.pow_lt_pow_right Nat.one_lt_two (Nat.sub_lt hroom Nat.one_pos)
      rw [Nat.shiftRight_eq_div_pow, Nat.mul_comm, Nat.mul_add_div (Nat.two_pow_pos _),
        Nat.div_eq_of_lt hhalf, Nat.add_zero]
    rw [whole_of_pos h]
    simp only [if_neg hfraction, hbits, hwhole]
    rfl

theorem toInt_ofInt (hlt : n < 2 ^ 23) : Single.toInt (ofInt n) = n := by
  have hvalue : (ofInt n : Float32).toModel.unpack = whole n := value_ofInt hlt
  rw [Single.toInt, hvalue]
  obtain rfl | h := n.eq_zero_or_pos
  · rfl
  · have hroom := room_pos h hlt
    have hfraction : ¬ 0 ≤ -(room n : Int) := by omega
    have hbits : (- -(room n : Int)).toNat = room n := by omega
    have hwhole : (n * 2 ^ room n) >>> room n = n := by
      rw [Nat.shiftRight_eq_div_pow, Nat.mul_div_cancel _ (Nat.two_pow_pos _)]
    rw [whole_of_pos h]
    simp only [if_neg hfraction, hbits, hwhole]
    change max (-2 ^ 63) (min (2 ^ 63 - 1) (n : Int)) = n
    omega

instance : WholeNumbers Float32 where
  div_self := by
    rintro top (rfl | rfl)
    · decide
    · decide
  mul_one {n} hlo hhi := by
    obtain ⟨n, rfl⟩ := Int.eq_ofNat_of_zero_le hlo
    change Float32.ofModel (.pack (UnpackedFloat.mul .binary32 (value (ofInt n))
      (value (ofInt (1 : Nat))))) = ofInt n
    rw [value_ofInt (by omega), value_ofInt (by omega), mul_whole_one (by omega),
      ofInt_eq (by omega)]
  add_neg_zero {n} hlo hhi := by
    obtain ⟨n, rfl⟩ := Int.eq_ofNat_of_zero_le hlo
    have hadd : UnpackedFloat.add .binary32 (whole n) (.zero .negative) = whole n := by
      obtain rfl | h := n.eq_zero_or_pos
      · rfl
      · rw [whole_of_pos h]
        rfl
    change Float32.ofModel (.pack (UnpackedFloat.add .binary32 (value (ofInt n))
      (.zero .negative))) = ofInt n
    rw [value_ofInt (by omega), hadd, ofInt_eq (by omega)]
  not_lt {m n} hlo hle hhi := by
    obtain ⟨m, rfl⟩ := Int.eq_ofNat_of_zero_le hlo
    obtain ⟨n, rfl⟩ := Int.eq_ofNat_of_zero_le (hlo.trans hle)
    rw [lt_iff_value_lt, value_ofInt (by omega), value_ofInt (by omega),
      whole_not_lt (by omega)]
    exact Bool.false_ne_true
  round_ofInt {n} hlo hhi := by
    obtain ⟨n, rfl⟩ := Int.eq_ofNat_of_zero_le hlo
    exact Binary32.round_ofInt (by omega)
  toInt_ofInt {n} hlo hhi := by
    obtain ⟨n, rfl⟩ := Int.eq_ofNat_of_zero_le hlo
    exact Binary32.toInt_ofInt (by omega)

end whole

end TilePyramid.Binary32
