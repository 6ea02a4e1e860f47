import TilePyramid.Mosaic.Run
import TilePyramid.Proofs.Depth
import Mathlib.Algebra.Order.Ring.Int

/-!
# Resolved canvases

Whatever the inputs measure, a turn has a power of two of pixels: the default is one, every input
asks for one, and options that pass their check force none but one. The canvas has at least one
column and at most as many as it has rows.
-/
namespace TilePyramid

theorem isPowerOfTwo_iff {n : Nat} : isPowerOfTwo n = true ↔ ∃ k, n = 2 ^ k := by
  constructor
  · intro h
    obtain ⟨-, hlog⟩ := Bool.and_eq_true_iff.mp h
    refine ⟨n.log2, ?_⟩
    rw [← Nat.one_mul (2 ^ n.log2), ← Nat.shiftLeft_eq]
    exact (beq_iff_eq.mp hlog).symm
  · rintro ⟨k, rfl⟩
    refine Bool.and_eq_true_iff.mpr ⟨?_, ?_⟩
    · exact bne_iff_ne.mpr (Nat.two_pow_pos k).ne'
    · rw [Nat.log2_two_pow, Nat.shiftLeft_eq, Nat.one_mul]
      exact beq_self_eq_true _

theorem nonneg_of_tdiv_pos {n : Int} {k : Nat} (h : 0 < n.tdiv k) : 0 ≤ n := by
  by_contra hneg
  have hnonneg : 0 ≤ (-n).tdiv k := Int.tdiv_nonneg (by omega) (Int.natCast_nonneg k)
  rw [Int.neg_tdiv] at hnonneg
  omega

theorem bind_eq_ok {ε β γ : Type} {x : Except ε β} {next : β → Except ε γ} {c : γ}
    (h : (x >>= next) = .ok c) : ∃ b, x = .ok b ∧ next b = .ok c := by
  cases x with
  | error e => cases h
  | ok b => exact ⟨b, rfl, h⟩

theorem eq_ok_of_toOption {ε β : Type} {x : Except ε β} {b : β} (h : x.toOption = some b) :
    x = .ok b := by
  cases x with
  | error e => cases h
  | ok b' => exact congrArg Except.ok (Option.some.inj h)

theorem exists_eq_ok_of_mem_mapM {ε β γ : Type} {f : β → Except ε γ} {xs : List β} {ys : List γ}
    (h : xs.mapM f = .ok ys) {y : γ} (hy : y ∈ ys) : ∃ x ∈ xs, f x = .ok y := by
  induction xs generalizing ys with
  | nil =>
    obtain rfl := Except.ok.inj h
    cases hy
  | cons x xs ih =>
    rw [List.mapM_cons] at h
    obtain ⟨first, hfirst, h⟩ := bind_eq_ok h
    obtain ⟨rest, hrest, h⟩ := bind_eq_ok h
    obtain rfl := Except.ok.inj h
    cases hy with
    | head => exact ⟨x, List.mem_cons_self, hfirst⟩
    | tail _ hy =>
      obtain ⟨x', hx', hy⟩ := ih hrest hy
      exact ⟨x', List.mem_cons_of_mem x hx', hy⟩

theorem mapM_ne_error {ε β γ : Type} {e : ε} {f : β → Except ε γ} {xs : List β}
    (h : ∀ x ∈ xs, f x ≠ .error e) : xs.mapM f ≠ .error e := by
  induction xs with
  | nil => simp
  | cons x xs ih =>
    rw [List.mapM_cons]
    refine bind_ne_error (h x List.mem_cons_self) fun _ _ => ?_
    exact bind_ne_error (ih fun y hy => h y (List.mem_cons_of_mem _ hy)) fun _ _ => by simp

namespace GeoReference

variable {α : Type} [Cartography α]

theorem make_ne_emptyOutput (definition : String) (datum : Datum α) (transform : Affine α) :
    make definition datum transform ≠ .error .emptyOutput := by
  simp only [make]
  cases transform.inverse? with
  | none => simp
  | some inverse =>
    dsimp only
    split
    · simp
    · cases Cartography.projector (Text.trim definition) datum <;> simp

theorem ofBounds_ne_emptyOutput (cols rows : Nat) (bounds : DegreeBox α) (datum : Datum α) :
    ofBounds cols rows bounds datum ≠ .error .emptyOutput := by
  rw [ofBounds]
  split
  · simp
  · exact make_ne_emptyOutput _ _ _

end GeoReference

theorem OutputMode.canvas_ne_emptyOutput {α : Type} [Cartography α] (m : OutputMode)
    (cols rows : Int) : (m.canvas cols rows : Except Error (GeoReference α)) ≠
      .error .emptyOutput := by
  simp only [canvas]
  split
  · simp
  · cases m <;> exact GeoReference.make_ne_emptyOutput _ _ _

namespace Resolution

section measuring
variable {α σ : Type} [Cartography α]

theorem exists_ofImage_eq_two_pow {g : GeoReference α} {cols rows : Nat} {n : Int}
    (h : ofImage g cols rows = some n) : ∃ k ≤ 30, n = 2 ^ k := by
  obtain ⟨d, -, rfl⟩ := Option.map_eq_some_iff.mp h
  let exponent : Int := Arith.toInt (Arith.ceil (Cartography.log2 (ofInt 360 / d)))
  refine ⟨(max 0 (min exponent largestExponent)).toNat, ?_, ?_⟩
  · simp only [largestExponent]
    omega
  · change ((1 <<< (max 0 (min exponent largestExponent)).toNat : Nat) : Int) = _
    rw [Nat.shiftLeft_eq, Nat.one_mul, Nat.cast_pow, Nat.cast_ofNat]

private theorem widen_step {k : Nat} (hk : k ≤ 30) (input : Source α σ × GeoReference α) :
    ∃ j ≤ 30, widen (2 ^ k) input = 2 ^ j := by
  rw [widen]
  split
  · next n hn =>
    obtain ⟨j, hj, rfl⟩ := exists_ofImage_eq_two_pow hn
    rcases max_choice ((2 : Int) ^ k) (2 ^ j) with hmax | hmax
    · exact ⟨k, hk, hmax⟩
    · exact ⟨j, hj, hmax⟩
  · exact ⟨k, hk, rfl⟩

theorem exists_measured_eq_two_pow (inputs : List (Source α σ × GeoReference α)) :
    ∃ k ≤ 30, inputs.foldl widen leastTotal = 2 ^ k := by
  have run (inputs : List (Source α σ × GeoReference α)) (k : Nat) (hk : k ≤ 30) :
      ∃ j ≤ 30, inputs.foldl widen (2 ^ k) = 2 ^ j := by
    induction inputs generalizing k with
    | nil => exact ⟨k, hk, rfl⟩
    | cons input inputs ih =>
      obtain ⟨j, hj, hstep⟩ := widen_step hk input
      rw [List.foldl_cons, hstep]
      exact ih j hj
  exact run inputs 10 (by decide)

end measuring

section resolving
variable {α σ : Type} [Cartography α] {o : Options α σ} {sources : List (Source α σ)}

/-- What a resolution holds: the total is the forced one or the one that was measured, and the
canvas has a turn divided by the aspect ratio as columns. -/
theorem resolve_eq_ok {r : Resolution α} (h : resolve o sources = .ok r) :
    (∃ inputs : List (Source α σ × GeoReference α),
      r.total = (o.globalResolution.map Int.ofNat).getD (inputs.foldl widen leastTotal)) ∧
      r.rows = r.total ∧ r.cols = r.total.tdiv (max o.aspectRatio 1 : Nat) ∧ 0 < r.cols ∧
      o.mode.canvas r.cols r.rows = .ok r.canvas := by
  obtain ⟨found, -, h⟩ := bind_eq_ok h
  change (if _ then _ else _) = _ at h
  split at h
  · cases h
  · obtain ⟨inputs, -, h⟩ := bind_eq_ok h
    change (if _ then _ else _) = _ at h
    split at h
    · cases h
    · next hcols =>
      obtain ⟨canvas, hcanvas, h⟩ := bind_eq_ok h
      obtain rfl := Except.ok.inj h
      exact ⟨⟨sources.zip inputs, rfl⟩, rfl, rfl, Int.not_le.mp hcols, hcanvas⟩

theorem exists_total_eq_two_pow {r : Resolution α} (h : resolve o sources = .ok r)
    (hforced : ∀ n, o.globalResolution = some n → isPowerOfTwo n = true) :
    ∃ k, r.total = 2 ^ k ∧ ((∀ n, o.globalResolution = some n → n < 2 ^ 32) → k ≤ 31) := by
  obtain ⟨⟨inputs, htotal⟩, -⟩ := resolve_eq_ok h
  cases hn : o.globalResolution with
  | none =>
    obtain ⟨k, hk, hmeasured⟩ := exists_measured_eq_two_pow inputs
    rw [hn] at htotal
    exact ⟨k, htotal.trans hmeasured, fun _ => by omega⟩
  | some n =>
    obtain ⟨k, rfl⟩ := isPowerOfTwo_iff.mp (hforced n hn)
    rw [hn] at htotal
    refine ⟨k, htotal.trans (Nat.cast_pow 2 k), fun hbits => ?_⟩
    have hlt := (Nat.pow_lt_pow_iff_right (by decide)).mp (hbits _ rfl)
    omega

theorem cols_bounds {r : Resolution α} (h : resolve o sources = .ok r) :
    1 ≤ r.cols ∧ r.cols ≤ r.total := by
  obtain ⟨-, -, hcols, hpos, -⟩ := resolve_eq_ok h
  refine ⟨hpos, ?_⟩
  rw [hcols] at hpos ⊢
  exact Int.tdiv_le_self _ (nonneg_of_tdiv_pos hpos)

theorem exists_size_eq_two_pow {r : Resolution α} (h : resolve o sources = .ok r)
    (hforced : ∀ n, o.globalResolution = some n → isPowerOfTwo n = true) :
    ∃ k, r.total = 2 ^ k ∧ r.rows = 2 ^ k ∧ 1 ≤ r.cols ∧ r.cols ≤ 2 ^ k ∧
      ((∀ n, o.globalResolution = some n → n < 2 ^ 32) → k ≤ 31) := by
  obtain ⟨k, htotal, hbits⟩ := exists_total_eq_two_pow h hforced
  obtain ⟨-, hrows, -⟩ := resolve_eq_ok h
  obtain ⟨hpos, hcols⟩ := cols_bounds h
  exact ⟨k, htotal, hrows.trans htotal, hpos, hcols.trans_eq htotal, hbits⟩

private theorem inputGeoref_ne_emptyOutput (o : Options α σ) (s : Source α σ) :
    inputGeoref o s ≠ .error .emptyOutput := by
  rw [inputGeoref]
  refine bind_ne_error (mapError_configuration_ne_emptyOutput _) fun datum _ => ?_
  refine bind_ne_error ?_ fun base _ => ?_
  · rw [baseGeoref]
    cases o.bounds with
    | none => simp
    | some bounds =>
      have hbounds := GeoReference.ofBounds_ne_emptyOutput s.cols s.rows bounds
        (datum.getD .wgs84)
      dsimp only
      generalize GeoReference.ofBounds s.cols s.rows bounds (datum.getD .wgs84) = g at hbounds
      cases g with
      | error e => exact fun h => hbounds (congrArg Except.error (Except.error.inj h))
      | ok g => simp [Except.map]
  · cases base with
    | none => simp
    | some base =>
      refine bind_ne_error (mapError_configuration_ne_emptyOutput _) fun projection _ => ?_
      split
      · simp
      · exact bind_ne_error (GeoReference.make_ne_emptyOutput _ _ _) fun _ _ => by simp

theorem resolve_ne_emptyOutput (o : Options α σ) (sources : List (Source α σ)) :
    resolve o sources ≠ .error .emptyOutput := by
  rw [resolve]
  refine bind_ne_error (mapM_ne_error fun s _ => inputGeoref_ne_emptyOutput o s) fun found _ => ?_
  change (if _ then _ else _) ≠ _
  split
  · simp
  · refine bind_ne_error (mapM_ne_error fun i _ => ?_) fun inputs _ => ?_
    · cases hg : i.2 with
      | none => exact GeoReference.ofBounds_ne_emptyOutput _ _ _ _
      | some g => simp [orGlobe]
    · change (if _ then _ else _) ≠ _
      split
      · simp
      · exact bind_ne_error (o.mode.canvas_ne_emptyOutput _ _) fun _ _ => by simp

end resolving
end Resolution
end TilePyramid
