import TilePyramid.Progress
import TilePyramid.Proofs.ExactArithmetic

/-!
# Reports that never go back

A share drops what is not a number or falls behind, cuts the rest to its range, and keeps the best
fraction so far. So whatever it is given, what leaves it never goes back and stays in its interval,
and a list that needs no correction is only moved onto the interval. Of shares within shares it is
the outermost one that matters for what is received.
-/
namespace TilePyramid

/-- Arithmetic that is exact on finite numbers. There may be numbers that are not finite. -/
class ExactFinite (α : Type) [Arith α] where
  value : α → Rat
  isFinite_ofInt (n : Int) : Arith.isFinite (ofInt n : α) = true
  value_ofInt (n : Int) : value (ofInt n : α) = n
  add_of_finite {a b : α} (ha : Arith.isFinite a = true) (hb : Arith.isFinite b = true) :
    Arith.isFinite (a + b) = true ∧ value (a + b) = value a + value b
  sub_of_finite {a b : α} (ha : Arith.isFinite a = true) (hb : Arith.isFinite b = true) :
    Arith.isFinite (a - b) = true ∧ value (a - b) = value a - value b
  mul_of_finite {a b : α} (ha : Arith.isFinite a = true) (hb : Arith.isFinite b = true) :
    Arith.isFinite (a * b) = true ∧ value (a * b) = value a * value b
  div_of_finite {a b : α} (ha : Arith.isFinite a = true) (hb : Arith.isFinite b = true)
    (h : value b ≠ 0) : Arith.isFinite (a / b) = true ∧ value (a / b) = value a / value b
  lt_iff_of_finite {a b : α} (ha : Arith.isFinite a = true) (hb : Arith.isFinite b = true) :
    a < b ↔ value a < value b

instance {α : Type} [Arith α] [ExactArith α] : ExactFinite α where
  value := ExactArith.value
  isFinite_ofInt _ := ExactArith.isFinite _
  value_ofInt := ExactArith.value_ofInt
  add_of_finite _ _ := ⟨ExactArith.isFinite _, ExactArith.value_add _ _⟩
  sub_of_finite _ _ := ⟨ExactArith.isFinite _, ExactArith.value_sub _ _⟩
  mul_of_finite _ _ := ⟨ExactArith.isFinite _, ExactArith.value_mul _ _⟩
  div_of_finite _ _ _ := ⟨ExactArith.isFinite _, ExactArith.value_div _ _⟩
  lt_iff_of_finite _ _ := ExactArith.lt_iff _ _

/-- What a division of rational numbers gives: a number, or none for a division by zero. -/
inductive Ratio where
  | number (q : Rat)
  | nan

namespace Ratio

def map (f : Rat → Rat) : Ratio → Ratio
  | number q => number (f q)
  | nan => nan

def map₂ (f : Rat → Rat → Rat) : Ratio → Ratio → Ratio
  | number p, number q => number (f p q)
  | _, _ => nan

/-- A comparison, which fails for what is not a number. -/
def compare (r : Rat → Rat → Bool) : Ratio → Ratio → Bool
  | number p, number q => r p q
  | _, _ => false

instance : Arith Ratio where
  add := map₂ (· + ·)
  sub := map₂ (· - ·)
  mul := map₂ (· * ·)
  div
    | number p, number q => if q = 0 then nan else number (p / q)
    | _, _ => nan
  neg := map (- ·)
  lt a b := compare (· < ·) a b = true
  le a b := compare (· ≤ ·) a b = true
  beq := compare (· == ·)
  decLt _ _ := inferInstanceAs (Decidable (_ = true))
  decLe _ _ := inferInstanceAs (Decidable (_ = true))
  ofInt n := number n
  floor := map Arith.floor
  ceil := map Arith.ceil
  round := map Arith.round
  toInt
    | number q => Arith.toInt q
    | nan => 0
  isFinite
    | number _ => true
    | nan => false

theorem exists_number_of_isFinite {a : Ratio} (h : Arith.isFinite a = true) :
    ∃ q, a = number q := by
  cases a with
  | number q => exact ⟨q, rfl⟩
  | nan => cases h

instance : ExactFinite Ratio where
  value
    | number q => q
    | nan => 0
  isFinite_ofInt _ := rfl
  value_ofInt _ := rfl
  add_of_finite ha hb := by
    obtain ⟨p, rfl⟩ := exists_number_of_isFinite ha
    obtain ⟨q, rfl⟩ := exists_number_of_isFinite hb
    exact ⟨rfl, rfl⟩
  sub_of_finite ha hb := by
    obtain ⟨p, rfl⟩ := exists_number_of_isFinite ha
    obtain ⟨q, rfl⟩ := exists_number_of_isFinite hb
    exact ⟨rfl, rfl⟩
  mul_of_finite ha hb := by
    obtain ⟨p, rfl⟩ := exists_number_of_isFinite ha
    obtain ⟨q, rfl⟩ := exists_number_of_isFinite hb
    exact ⟨rfl, rfl⟩
  div_of_finite ha hb h := by
    obtain ⟨p, rfl⟩ := exists_number_of_isFinite ha
    obtain ⟨q, rfl⟩ := exists_number_of_isFinite hb
    have hquotient : number p / number q = number (p / q) := if_neg h
    rw [hquotient]
    exact ⟨rfl, rfl⟩
  lt_iff_of_finite ha hb := by
    obtain ⟨p, rfl⟩ := exists_number_of_isFinite ha
    obtain ⟨q, rfl⟩ := exists_number_of_isFinite hb
    exact decide_eq_true_iff

end Ratio

namespace ExactFinite

variable {α : Type} [Arith α] [ExactFinite α]

theorem value_zero : value (ofInt 0 : α) = 0 := (value_ofInt 0).trans Int.cast_zero

theorem value_one : value (ofInt 1 : α) = 1 := (value_ofInt 1).trans Int.cast_one

theorem value_zero_le_one : value (ofInt 0 : α) ≤ value (ofInt 1 : α) := by
  rw [value_zero, value_one]
  exact zero_le_one

end ExactFinite

open ExactFinite

variable {α : Type} [Arith α] [ExactFinite α]

/-- The reports are finite, lie between two bounds, and none is less than one before it. -/
structure IsSteady (lo hi : Rat) (reports : List α) : Prop where
  finite : ∀ f ∈ reports, Arith.isFinite f = true
  within : ∀ f ∈ reports, lo ≤ value f ∧ value f ≤ hi
  sorted : reports.Pairwise fun f g => value f ≤ value g

namespace IsSteady

variable {lo mid hi : Rat} {f : α} {fs gs : List α}

theorem nil : IsSteady lo hi ([] : List α) where
  finite := List.forall_mem_nil _
  within := List.forall_mem_nil _
  sorted := .nil

theorem cons (hf : Arith.isFinite f = true) (hlo : lo ≤ value f) (hhi : value f ≤ hi)
    (h : IsSteady (value f) hi fs) : IsSteady lo hi (f :: fs) where
  finite := List.forall_mem_cons.mpr ⟨hf, h.finite⟩
  within := List.forall_mem_cons.mpr
    ⟨⟨hlo, hhi⟩, fun g hg => ⟨hlo.trans (h.within g hg).1, (h.within g hg).2⟩⟩
  sorted := List.pairwise_cons.mpr ⟨fun g hg => (h.within g hg).1, h.sorted⟩

theorem tail (h : IsSteady lo hi (f :: fs)) : IsSteady (value f) hi fs where
  finite g hg := h.finite g (List.mem_cons_of_mem _ hg)
  within g hg := ⟨List.rel_of_pairwise_cons h.sorted hg, (h.within g (List.mem_cons_of_mem _ hg)).2⟩
  sorted := h.sorted.of_cons

theorem append (h : IsSteady lo mid fs) (h' : IsSteady mid hi gs) (hlo : lo ≤ mid) (hhi : mid ≤ hi) :
    IsSteady lo hi (fs ++ gs) where
  finite g hg := (List.mem_append.mp hg).elim (h.finite g) (h'.finite g)
  within g hg := by
    rcases List.mem_append.mp hg with hg | hg
    · exact ⟨(h.within g hg).1, (h.within g hg).2.trans hhi⟩
    · exact ⟨hlo.trans (h'.within g hg).1, (h'.within g hg).2⟩
  sorted := List.pairwise_append.mpr ⟨h.sorted, h'.sorted, fun f hf g hg =>
    (h.within f hf).2.trans (h'.within g hg).1⟩

theorem of_isPrefix (h : IsSteady lo hi gs) (hbegins : fs <+: gs) : IsSteady lo hi fs where
  finite f hf := h.finite f (hbegins.subset hf)
  within f hf := h.within f (hbegins.subset hf)
  sorted := h.sorted.sublist hbegins.sublist

end IsSteady

namespace Share

/-- The interval of the share is not turned around, and its best fraction is one. -/
structure IsReady (s : Share α) : Prop where
  start : Arith.isFinite s.start = true
  stop : Arith.isFinite s.stop = true
  best : Arith.isFinite s.best = true
  le : value s.start ≤ value s.stop
  best_nonneg : 0 ≤ value s.best
  best_le : value s.best ≤ 1

/-- Where the best fraction lies on the outer scale. -/
def position (s : Share α) : Rat := value s.start + (value s.stop - value s.start) * value s.best

theorem isReady_between {start stop : α} (hstart : Arith.isFinite start = true)
    (hstop : Arith.isFinite stop = true) (hle : value start ≤ value stop) :
    (between start stop).IsReady where
  start := hstart
  stop := hstop
  best := isFinite_ofInt 0
  le := hle
  best_nonneg := value_zero.ge
  best_le := value_zero.trans_le zero_le_one

theorem position_between (start stop : α) : (between start stop).position = value start := by
  simp [position, between, value_zero]

theorem IsReady.position_le {s : Share α} (hs : s.IsReady) : s.position ≤ value s.stop := by
  have h := mul_le_mul_of_nonneg_left hs.best_le (sub_nonneg.mpr hs.le)
  rw [position]
  linarith

private theorem clamp_of_finite {f : α} (hf : Arith.isFinite f = true) :
    let c := Arith.clamp (ofInt 0) (ofInt 1) f
    Arith.isFinite c = true ∧ value c = max 0 (min 1 (value f)) := by
  have hlow := lt_iff_of_finite hf (isFinite_ofInt (α := α) 0)
  have hhigh := lt_iff_of_finite (isFinite_ofInt (α := α) 1) hf
  rw [value_zero] at hlow
  rw [value_one] at hhigh
  simp only [Arith.clamp]
  split
  · next h =>
    refine ⟨isFinite_ofInt 0, ?_⟩
    rw [value_zero, max_eq_left ((min_le_right _ _).trans (hlow.mp h).le)]
  · next h =>
    have hnonneg := not_lt.mp (mt hlow.mpr h)
    split
    · next h' =>
      refine ⟨isFinite_ofInt 1, ?_⟩
      rw [value_one, min_eq_left (hhigh.mp h').le, max_eq_right zero_le_one]
    · next h' =>
      refine ⟨hf, ?_⟩
      rw [min_eq_right (not_lt.mp (mt hhigh.mpr h')), max_eq_right hnonneg]

/-- What becomes of a report: it is dropped, since it is not finite or falls behind, or the share
moves on to it and sends where it lies. -/
theorem IsReady.report {s : Share α} (hs : s.IsReady) (f : α) :
    (s.report f = (s, none) ∧
      (Arith.isFinite f = false ∨ max 0 (min 1 (value f)) < value s.best)) ∨
    ∃ (s' : Share α) (sent : α), s.report f = (s', some sent) ∧ s'.IsReady ∧
      s'.start = s.start ∧ s'.stop = s.stop ∧ value s.best ≤ value s'.best ∧
      value s'.best = max 0 (min 1 (value f)) ∧
      Arith.isFinite sent = true ∧ value sent = s'.position := by
  simp only [Share.report]
  split
  · next hf =>
    obtain ⟨hfinite, hvalue⟩ := clamp_of_finite hf
    have hbehind := lt_iff_of_finite hfinite hs.best
    rw [hvalue] at hbehind
    split
    · next h => exact .inl ⟨rfl, .inr (hbehind.mp h)⟩
    · next h =>
      have hready : IsReady { s with best := Arith.clamp (ofInt 0) (ofInt 1) f } :=
        { hs with
          best := hfinite
          best_nonneg := hvalue ▸ le_max_left _ _
          best_le := hvalue ▸ max_le zero_le_one (min_le_left _ _) }
      obtain ⟨hwidth, hvalueWidth⟩ := sub_of_finite hs.stop hs.start
      obtain ⟨hpart, hvaluePart⟩ := mul_of_finite hwidth hfinite
      obtain ⟨hsent, hvalueSent⟩ := add_of_finite hs.start hpart
      refine .inr ⟨_, _, rfl, hready, rfl, rfl, ?_, hvalue, hsent, ?_⟩
      · exact (not_lt.mp (mt hbehind.mpr h)).trans_eq hvalue.symm
      · rw [hvalueSent, hvaluePart, hvalueWidth, position]
  · next hf => exact .inl ⟨rfl, .inl (Bool.eq_false_of_not_eq_true hf)⟩

/-- Whatever is put into a share, what leaves it is steady from its position on. -/
theorem IsReady.isSteady_reportAll {s : Share α} (hs : s.IsReady) (fs : List α) :
    IsSteady s.position (value s.stop) (s.reportAll fs) := by
  -- From any share that is ready: a report that is sent is where the share lies after it.
  induction fs generalizing s with
  | nil => exact .nil
  | cons f fs ih =>
    rw [reportAll]
    obtain ⟨h, -⟩ | ⟨s', sent, h, hs', hstart, hstop, hbetter, -, hsent, hvalue⟩ := hs.report f
    · rw [h]
      exact ih hs
    · have hmove : s.position ≤ s'.position := by
        rw [position, position, hstart, hstop]
        exact add_le_add_right
          (mul_le_mul_of_nonneg_left hbetter (sub_nonneg.mpr hs.le)) _
      have hrest := ih hs'
      rw [hstop, ← hvalue] at hrest
      rw [h]
      refine .cons hsent (hvalue ▸ hmove) ?_ hrest
      rw [hvalue, ← hstop]
      exact hs'.position_le

theorem IsReady.map_value_reportAll {s : Share α} (hs : s.IsReady) {fs : List α}
    (hfs : IsSteady (value s.best) 1 fs) :
    (s.reportAll fs).map value =
      fs.map fun f => value s.start + (value s.stop - value s.start) * value f := by
  induction fs generalizing s with
  | nil => rfl
  | cons f fs ih =>
    have hf := hfs.finite f List.mem_cons_self
    obtain ⟨hlo, hhi⟩ := hfs.within f List.mem_cons_self
    have hcut : max 0 (min 1 (value f)) = value f := by
      rw [min_eq_right hhi, max_eq_right (hs.best_nonneg.trans hlo)]
    rw [reportAll]
    obtain ⟨-, hdropped⟩ | ⟨s', sent, h, hs', hstart, hstop, -, hbest, -, hvalue⟩ := hs.report f
    · rw [hf, hcut] at hdropped
      exact absurd hlo (not_le.mpr (hdropped.resolve_left Bool.noConfusion))
    · rw [hcut] at hbest
      have hrest := ih hs' (hbest ▸ hfs.tail)
      rw [hstart, hstop] at hrest
      rw [position, hstart, hstop, hbest] at hvalue
      rw [h, List.map_cons, ← hrest, ← hvalue]
      rfl

theorem isSteady_between {start stop : α} (hstart : Arith.isFinite start = true)
    (hstop : Arith.isFinite stop = true) (hle : value start ≤ value stop) (fs : List α) :
    IsSteady (value start) (value stop) ((between start stop).reportAll fs) := by
  have h := (isReady_between hstart hstop hle).isSteady_reportAll fs
  rwa [position_between] at h

theorem map_value_between {start stop : α} (hstart : Arith.isFinite start = true)
    (hstop : Arith.isFinite stop = true) (hle : value start ≤ value stop) {fs : List α}
    (hfs : IsSteady 0 1 fs) :
    ((between start stop).reportAll fs).map value =
      fs.map fun f => value start + (value stop - value start) * value f := by
  have hbest : value (between start stop).best = 0 := value_zero
  exact (isReady_between hstart hstop hle).map_value_reportAll (hbest ▸ hfs)

end Share

/-- One report through shares within shares, the outermost first: the shares behind it, and what
leaves the outermost one. -/
def passOn : List (Share α) → α → List (Share α) × Option α
  | [], f => ([], some f)
  | s :: inner, f =>
    match passOn inner f with
    | (inner, none) => (s :: inner, none)
    | (inner, some g) => ((s.report g).1 :: inner, (s.report g).2)

omit [ExactFinite α] in
theorem nestedReports_cons (shares : List (Share α)) (f : α) (fs : List α) :
    nestedReports shares (f :: fs) =
      (passOn shares f).2.toList ++ nestedReports (passOn shares f).1 fs := by
  induction shares with
  | nil => rfl
  | cons s inner ih =>
    change s.reportAll (nestedReports inner (f :: fs)) = _
    rw [ih, passOn]
    rcases passOn inner f with ⟨inner', _ | g⟩ <;> rfl

end TilePyramid
