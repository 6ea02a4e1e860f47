import TilePyramid.Proofs.ExactArithmetic
import TilePyramid.Raster.Image

/-!
# Samples that are whole numbers

The samples of an image of 8 or 16 bits are whole numbers, and few operations are done with them on
the way into a file. Arithmetic with fractions does these without rounding, and so does single
precision, which holds every whole number of 16 bits.
-/
namespace TilePyramid

/-- The arithmetic is exact on whole numbers of 16 bits, as far as images ask for it. -/
class WholeNumbers (σ : Type) [Arith σ] : Prop where
  div_self {top : Int} (htop : top = 255 ∨ top = 65535) : (ofInt top / ofInt top : σ) = ofInt 1
  mul_one {n : Int} (hlo : 0 ≤ n) (hhi : n ≤ 65535) : (ofInt n * ofInt 1 : σ) = ofInt n
  add_neg_zero {n : Int} (hlo : 0 ≤ n) (hhi : n ≤ 65535) : (ofInt n + -ofInt 0 : σ) = ofInt n
  not_lt {m n : Int} (hlo : 0 ≤ m) (hle : m ≤ n) (hhi : n ≤ 65535) : ¬ (ofInt n : σ) < ofInt m
  round_ofInt {n : Int} (hlo : 0 ≤ n) (hhi : n ≤ 65535) : Arith.round (ofInt n : σ) = ofInt n
  toInt_ofInt {n : Int} (hlo : 0 ≤ n) (hhi : n ≤ 65535) : Arith.toInt (ofInt n : σ) = n

section exact
variable {σ : Type} [Arith σ] [ExactRounding σ]

open ExactArith

instance : WholeNumbers σ where
  div_self := by
    rintro top (rfl | rfl) <;>
      exact value_injective (by simp)
  mul_one _ _ := value_injective (by simp)
  add_neg_zero _ _ := value_injective (by simp)
  not_lt _ hle _ := by
    rw [lt_iff, value_ofInt, value_ofInt]
    exact_mod_cast not_lt.mpr hle
  round_ofInt _ _ := value_injective (by simp [nearest_intCast])
  toInt_ofInt hlo hhi := ExactRounding.toInt_ofInt _ (by omega) (by omega)

end exact

section quantizing
variable {σ : Type} [Arith σ] [WholeNumbers σ]

/-- One of the whole numbers from 0 to `top`. -/
def IsWhole (top : Int) (v : σ) : Prop := ∃ n : Int, 0 ≤ n ∧ n ≤ top ∧ v = ofInt n

omit [WholeNumbers σ] in
theorem isWhole_top {top : Int} (h : 0 ≤ top) : IsWhole top (ofInt top : σ) := ⟨top, h, le_rfl, rfl⟩

omit [WholeNumbers σ] in
theorem Channel.isWhole_opaqueAlpha (c : Channel) : IsWhole c.bounds.2 (c.opaqueAlpha : σ) :=
  isWhole_top (by cases c <;> decide)

theorem quantize_of_isWhole {top : Int} (htop : top ≤ 65535) {v : σ} (hv : IsWhole top v) :
    quantize top v = v := by
  obtain ⟨n, hlo, hhi, rfl⟩ := hv
  have hrange : n ≤ 65535 := hhi.trans htop
  have hclamp : Arith.clamp (ofInt 0) (ofInt top) (ofInt n : σ) = ofInt n := by
    rw [Arith.clamp, if_neg (WholeNumbers.not_lt le_rfl hlo hrange),
      if_neg (WholeNumbers.not_lt hlo hhi htop)]
  rw [quantize, hclamp, WholeNumbers.round_ofInt hlo hrange, WholeNumbers.toInt_ofInt hlo hrange]

private theorem scale_of_isWhole {top : Int} (htop : top = 255 ∨ top = 65535) {v : σ}
    (hv : IsWhole top v) : v * (ofInt top / ofInt top) = v := by
  obtain ⟨n, hlo, hhi, rfl⟩ := hv
  rw [WholeNumbers.div_self htop, WholeNumbers.mul_one hlo (by omega)]

theorem Channel.quantize_of_isWhole {c : Channel} (hc : c = .u8 ∨ c = .u16) {v : σ}
    (hv : IsWhole c.bounds.2 v) : c.quantizeColour v = v ∧ c.quantizeAlpha v = v := by
  rcases hc with rfl | rfl
  · have hscaled : quantize 255 (v * (ofInt 255 / ofInt 255)) = v := by
      rw [scale_of_isWhole (.inl rfl) hv]
      exact TilePyramid.quantize_of_isWhole (by decide) hv
    exact ⟨hscaled, hscaled⟩
  · have hkept : quantize 65535 v = v := TilePyramid.quantize_of_isWhole le_rfl hv
    constructor
    · obtain ⟨n, hlo, hhi, rfl⟩ := hv
      change quantize 65535 (ofInt n + -ofInt 0) = ofInt n
      rw [WholeNumbers.add_neg_zero hlo hhi, hkept]
    · change quantize 65535 (v * (ofInt 65535 / ofInt 65535)) = v
      rw [scale_of_isWhole (.inr rfl) hv, hkept]

end quantizing
end TilePyramid
