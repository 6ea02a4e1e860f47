import TilePyramid.Proofs.ExactPlacement
import Mathlib.Data.Rat.Floor
import Mathlib.Tactic.Linarith

/-!
# Arithmetic without rounding

Arithmetic is exact when numbers are told apart by the rational numbers they stand for. Comparisons,
ranges, cuts and roundings to whole numbers are then those of the rational numbers, and a channel is
a monotone map onto its values.
-/
namespace TilePyramid

/-- Arithmetic without rounding. Every number stands for a rational number, and the operations are
those of the rational numbers. -/
class ExactArith (α : Type) [Arith α] where
  value : α → Rat
  value_injective : Function.Injective value
  value_ofInt (n : Int) : value (ofInt n) = n
  value_add (a b : α) : value (a + b) = value a + value b
  value_sub (a b : α) : value (a - b) = value a - value b
  value_mul (a b : α) : value (a * b) = value a * value b
  value_div (a b : α) : value (a / b) = value a / value b
  lt_iff (a b : α) : a < b ↔ value a < value b
  le_iff (a b : α) : a ≤ b ↔ value a ≤ value b
  beq_iff (a b : α) : (a == b) = true ↔ a = b
  isFinite (a : α) : Arith.isFinite a = true

attribute [simp] ExactArith.value_ofInt ExactArith.value_add ExactArith.value_sub
  ExactArith.value_mul ExactArith.value_div

instance : ExactArith Rat where
  value := id
  value_injective := Function.injective_id
  value_ofInt _ := rfl
  value_add _ _ := rfl
  value_sub _ _ := rfl
  value_mul _ _ := rfl
  value_div _ _ := rfl
  lt_iff _ _ := Iff.rfl
  le_iff _ _ := Iff.rfl
  beq_iff _ _ := beq_iff_eq
  isFinite _ := rfl

/-- The nearest whole number; a half goes away from zero. -/
def nearest (q : Rat) : Int := if q < 0 then ⌈q - 1 / 2⌉ else ⌊q + 1 / 2⌋

/-- Exact arithmetic in which whole numbers are found as well. A whole number is its own index as
long as it has 64 bits. -/
class ExactRounding (α : Type) [Arith α] extends ExactArith α where
  value_neg (a : α) : value (-a) = -value a
  value_floor (a : α) : value (Arith.floor a) = ⌊value a⌋
  value_ceil (a : α) : value (Arith.ceil a) = ⌈value a⌉
  value_round (a : α) : value (Arith.round a) = nearest (value a)
  toInt_ofInt (n : Int) (hlo : -2 ^ 63 ≤ n) (hhi : n < 2 ^ 63) : Arith.toInt (ofInt n : α) = n

attribute [simp] ExactRounding.value_neg ExactRounding.value_floor ExactRounding.value_ceil
  ExactRounding.value_round

private theorem ratCeil_eq (q : Rat) : q.ceil = ⌈q⌉ := Rat.ceil_eq_neg_floor_neg q

private theorem truncated_intCast {n : Int} (hlo : -2 ^ 63 ≤ n) (hhi : n < 2 ^ 63) :
    truncated n = n := by
  rw [truncated, Rat.ceil_intCast, Rat.floor_intCast, ite_self]
  omega

instance : ExactRounding Rat where
  value_neg _ := rfl
  value_floor _ := rfl
  value_ceil q := congrArg Int.cast (ratCeil_eq q)
  value_round q := by
    change (if q < 0 then ((q - 1 / 2).ceil : Rat) else ((q + 1 / 2).floor : Rat)) = nearest q
    rw [nearest, ratCeil_eq, apply_ite (Int.cast (R := Rat))]
    rfl
  toInt_ofInt _ hlo hhi := truncated_intCast hlo hhi

/-- Coordinates become samples without rounding. -/
class ExactNarrow (α σ : Type) [Arith α] [Arith σ] [ExactArith α] [ExactArith σ] [Narrow α σ] :
    Prop where
  value_narrow (a : α) : ExactArith.value (narrow a : σ) = ExactArith.value a

instance : Narrow Rat Rat := ⟨id⟩

instance : ExactNarrow Rat Rat := ⟨fun _ => rfl⟩

theorem nearest_intCast (n : Int) : nearest n = n := by
  rw [nearest]
  split
  · rw [Int.ceil_eq_iff]
    constructor <;> linarith
  · rw [Int.floor_eq_iff]
    constructor <;> linarith

theorem nearest_mono {p q : Rat} (h : p ≤ q) : nearest p ≤ nearest q := by
  rw [nearest, nearest]
  split <;> split
  · exact Int.ceil_mono (by linarith)
  · next hp hq =>
    have hup : ⌈p - 1 / 2⌉ ≤ 0 := Int.ceil_le.mpr (by push_cast; linarith)
    have hdown : 0 ≤ ⌊q + 1 / 2⌋ := Int.le_floor.mpr (by push_cast; linarith)
    exact hup.trans hdown
  · linarith
  · exact Int.floor_mono (by linarith)

section comparisons
variable {α : Type} [Arith α] [ExactArith α]

open ExactArith

theorem zero_lt_iff_value (v : α) : ofInt 0 < v ↔ 0 < value v := by
  rw [lt_iff, value_ofInt, Int.cast_zero]

theorem zero_le_iff_value (v : α) : ofInt 0 ≤ v ↔ 0 ≤ value v := by
  rw [le_iff, value_ofInt, Int.cast_zero]

theorem value_lesser (a b : α) : value (Arith.lesser a b) = min (value a) (value b) := by
  rw [Arith.lesser, if_pos ((beq_iff a a).mpr rfl)]
  by_cases h : value b < value a
  · rw [if_pos ((lt_iff b a).mpr h), min_eq_right h.le]
  · rw [if_neg (mt (lt_iff b a).mp h), min_eq_left (not_lt.mp h)]

theorem value_greater (a b : α) : value (Arith.greater a b) = max (value a) (value b) := by
  rw [Arith.greater, if_pos ((beq_iff a a).mpr rfl)]
  by_cases h : value a < value b
  · rw [if_pos ((lt_iff a b).mpr h), max_eq_right h.le]
  · rw [if_neg (mt (lt_iff a b).mp h), max_eq_left (not_lt.mp h)]

theorem value_clamp {lo hi : α} (hle : value lo ≤ value hi) (v : α) :
    value (Arith.clamp lo hi v) = max (value lo) (min (value hi) (value v)) := by
  rw [Arith.clamp]
  by_cases hlo : value v < value lo
  · rw [if_pos ((lt_iff v lo).mpr hlo), max_eq_left ((min_le_right _ _).trans hlo.le)]
  · rw [if_neg (mt (lt_iff v lo).mp hlo)]
    by_cases hhi : value hi < value v
    · rw [if_pos ((lt_iff hi v).mpr hhi), min_eq_left hhi.le, max_eq_right hle]
    · rw [if_neg (mt (lt_iff hi v).mp hhi), min_eq_right (not_lt.mp hhi),
        max_eq_right (not_lt.mp hlo)]

end comparisons

namespace Channel

/-- The value of the channel nearest to a rational number. -/
def cut (c : Channel) (q : Rat) : Rat :=
  let within := max (c.bounds.1 : Rat) (min c.bounds.2 q)
  if c = .f32 then within else nearest within

theorem bounds_lt (c : Channel) : c.bounds.1 < c.bounds.2 := by cases c <;> decide

theorem cut_mono (c : Channel) {p q : Rat} (h : p ≤ q) : c.cut p ≤ c.cut q := by
  have hwithin := max_le_max_left (c.bounds.1 : Rat) (min_le_min_left (c.bounds.2 : Rat) h)
  rw [cut, cut]
  split
  · exact hwithin
  · exact_mod_cast nearest_mono hwithin

theorem cut_intCast (c : Channel) {n : Int} (hlo : c.bounds.1 ≤ n) (hhi : n ≤ c.bounds.2) :
    c.cut n = n := by
  have hlo : (c.bounds.1 : Rat) ≤ n := by exact_mod_cast hlo
  have hhi : (n : Rat) ≤ c.bounds.2 := by exact_mod_cast hhi
  rw [cut, min_eq_right hhi, max_eq_right hlo, nearest_intCast, ite_self]

variable {σ : Type} [Arith σ] [ExactRounding σ]

open ExactArith

theorem value_clamp (c : Channel) (v : σ) : value (c.clamp v) = c.cut (value v) := by
  have hle : value (c.least : σ) ≤ value (c.greatest : σ) := by
    rw [least, greatest, value_ofInt, value_ofInt]
    exact_mod_cast c.bounds_lt.le
  have hcut := TilePyramid.value_clamp hle v
  rw [least, greatest, value_ofInt, value_ofInt] at hcut
  cases c with
  | f32 => exact hcut
  | u8 | u16 | i16 =>
    rw [cut, ← hcut]
    exact ExactRounding.value_round _

theorem clamp_mono (c : Channel) {v w : σ} (h : v ≤ w) : c.clamp v ≤ c.clamp w := by
  rw [le_iff, value_clamp, value_clamp]
  exact c.cut_mono ((le_iff v w).mp h)

theorem clamp_least (c : Channel) : c.clamp (c.least : σ) = c.least := by
  apply value_injective (α := σ)
  rw [value_clamp, least, value_ofInt, c.cut_intCast le_rfl c.bounds_lt.le]

theorem clamp_greatest (c : Channel) : c.clamp (c.greatest : σ) = c.greatest := by
  apply value_injective (α := σ)
  rw [value_clamp, greatest, value_ofInt, c.cut_intCast c.bounds_lt.le le_rfl]

theorem rescale_mono (source work : Channel) {v w : σ} (h : v ≤ w) :
    source.rescale work v ≤ source.rescale work w := by
  have hsource : (0 : Rat) < source.bounds.2 - source.bounds.1 :=
    sub_pos.mpr (by exact_mod_cast source.bounds_lt)
  have hwork : (0 : Rat) < work.bounds.2 - work.bounds.1 :=
    sub_pos.mpr (by exact_mod_cast work.bounds_lt)
  rw [rescale, rescale]
  split
  · exact h
  · apply clamp_mono
    rw [le_iff] at h ⊢
    simp only [least, greatest, value_add, value_sub, value_mul, value_div, value_ofInt]
    gcongr

end Channel

namespace ValueRange
variable {σ : Type} [Arith σ]

open ExactArith

/-- The range of a list of values: its ends are among them, and they all lie in it. There is none
if there are no values. -/
def IsRangeOf (range : Option (ValueRange σ)) (vs : List σ) : Prop :=
  match range with
  | none => vs = []
  | some r => r.lo ∈ vs ∧ r.hi ∈ vs ∧ ∀ v ∈ vs, r.lo ≤ v ∧ v ≤ r.hi

theorem isRangeOf_nil : IsRangeOf (none : Option (ValueRange σ)) [] := rfl

theorem IsRangeOf.congr {r : ValueRange σ} {vs ws : List σ} (h : IsRangeOf (some r) vs)
    (hsame : ∀ v, v ∈ ws ↔ v ∈ vs) : IsRangeOf (some r) ws := by
  simpa only [IsRangeOf, hsame] using h

theorem IsRangeOf.map {τ : Type} [Arith τ] {r : ValueRange σ} {vs : List σ}
    (h : IsRangeOf (some r) vs) {f : σ → τ} (hf : ∀ v w, v ≤ w → f v ≤ f w) :
    IsRangeOf (some ⟨f r.lo, f r.hi⟩) (vs.map f) := by
  obtain ⟨hlo, hhi, hin⟩ := h
  refine ⟨List.mem_map_of_mem hlo, List.mem_map_of_mem hhi, fun w hw => ?_⟩
  obtain ⟨v, hv, rfl⟩ := List.mem_map.mp hw
  exact ⟨hf _ _ (hin v hv).1, hf _ _ (hin v hv).2⟩

variable [ExactArith σ]

theorem isRangeOf_singleton (v : σ) : IsRangeOf (some ⟨v, v⟩) [v] := by
  have hself : v ≤ v := (le_iff v v).mpr le_rfl
  simp [IsRangeOf, hself]

theorem IsRangeOf.unique {range : Option (ValueRange σ)} {r : ValueRange σ} {vs : List σ}
    (hrange : IsRangeOf range vs) (hr : IsRangeOf (some r) vs) : range = some r := by
  obtain ⟨hlo, hhi, hin⟩ := hr
  have antisymm {v w : σ} (h : v ≤ w) (h' : w ≤ v) : v = w :=
    value_injective (le_antisymm ((le_iff v w).mp h) ((le_iff w v).mp h'))
  cases range with
  | none =>
    obtain rfl : vs = [] := hrange
    exact absurd hlo List.not_mem_nil
  | some s =>
    obtain ⟨hslo, hshi, hsin⟩ := hrange
    have hfirst := antisymm (hsin _ hlo).1 (hin _ hslo).1
    have hlast := antisymm (hin _ hshi).2 (hsin _ hhi).2
    exact congrArg some ((mk.injEq ..).mpr ⟨hfirst, hlast⟩)

theorem isRangeOf_union {r s : ValueRange σ} {vs ws : List σ} (hr : IsRangeOf (some r) vs)
    (hs : IsRangeOf (some s) ws) : IsRangeOf (some (r.union s)) (vs ++ ws) := by
  obtain ⟨hrlo, hrhi, hrin⟩ := hr
  obtain ⟨hslo, hshi, hsin⟩ := hs
  have hlo : value (r.union s).lo = min (value r.lo) (value s.lo) := value_lesser ..
  have hhi : value (r.union s).hi = max (value r.hi) (value s.hi) := value_greater ..
  refine ⟨?_, ?_, ?_⟩
  · rcases min_choice (value r.lo) (value s.lo) with h | h
    · rw [value_injective (hlo.trans h)]
      exact List.mem_append_left _ hrlo
    · rw [value_injective (hlo.trans h)]
      exact List.mem_append_right _ hslo
  · rcases max_choice (value r.hi) (value s.hi) with h | h
    · rw [value_injective (hhi.trans h)]
      exact List.mem_append_left _ hrhi
    · rw [value_injective (hhi.trans h)]
      exact List.mem_append_right _ hshi
  · intro v hv
    rw [le_iff _ v, le_iff v, hlo, hhi]
    rcases List.mem_append.mp hv with hv | hv
    · obtain ⟨h, h'⟩ := hrin v hv
      exact ⟨(min_le_left _ _).trans ((le_iff _ _).mp h),
        ((le_iff _ _).mp h').trans (le_max_left _ _)⟩
    · obtain ⟨h, h'⟩ := hsin v hv
      exact ⟨(min_le_right _ _).trans ((le_iff _ _).mp h),
        ((le_iff _ _).mp h').trans (le_max_right _ _)⟩

omit [ExactArith σ] in
/-- A fold whose steps take in the values of an element takes in those of all elements. -/
theorem isRangeOf_foldl {β : Type} {step : Option (ValueRange σ) → β → Option (ValueRange σ)}
    {values : β → List σ}
    (hstep : ∀ range b vs, IsRangeOf range vs → IsRangeOf (step range b) (vs ++ values b))
    (bs : List β) {range : Option (ValueRange σ)} {vs : List σ} (h : IsRangeOf range vs) :
    IsRangeOf (bs.foldl step range) (vs ++ bs.flatMap values) := by
  induction bs generalizing range vs with
  | nil => rwa [List.flatMap_nil, List.append_nil]
  | cons b bs ih =>
    rw [List.foldl_cons, List.flatMap_cons, ← List.append_assoc]
    exact ih (hstep range b vs h)

theorem isRangeOf_foldl_insert (vs : List σ) : IsRangeOf (vs.foldl insert none) vs := by
  have hstep (range : Option (ValueRange σ)) (v : σ) (ws : List σ) (h : IsRangeOf range ws) :
      IsRangeOf (insert range v) (ws ++ [v]) := by
    cases range with
    | none =>
      obtain rfl : ws = [] := h
      exact isRangeOf_singleton v
    | some r => exact isRangeOf_union h (isRangeOf_singleton v)
  have hrun := isRangeOf_foldl hstep vs isRangeOf_nil
  rwa [List.nil_append, List.flatMap_singleton'] at hrun

end ValueRange
end TilePyramid
