import TilePyramid.Proofs.RealArithmetic
import TilePyramid.Proofs.Resolving

/-!
# The least resolution

The canvas has the pixels that its finest input asks for, and no more. Main statement: without
rounding, the pixels of a full turn are the least power of two that is enough for every input, and
the order of the inputs does not matter.
-/
namespace TilePyramid

theorem mapM_ofFn_eq_ok_iff {ε β γ : Type} {n : Nat} {f : β → Except ε γ} {x : Fin n → β}
    {ys : List γ} : (List.ofFn x).mapM f = .ok ys ↔
      ∃ y : Fin n → γ, (∀ i, f (x i) = .ok (y i)) ∧ ys = List.ofFn y := by
  induction n generalizing ys with
  | zero =>
    rw [List.ofFn_zero, List.mapM_nil]
    constructor
    · intro h
      exact ⟨Fin.elim0, fun i => i.elim0, (Except.ok.inj h).symm⟩
    · rintro ⟨y, -, rfl⟩
      rfl
  | succ n ih =>
    rw [List.ofFn_succ, List.mapM_cons]
    constructor
    · intro h
      obtain ⟨first, hfirst, h⟩ := bind_eq_ok h
      obtain ⟨rest, hrest, h⟩ := bind_eq_ok h
      obtain rfl := Except.ok.inj h
      obtain ⟨y, hy, rfl⟩ := ih.mp hrest
      refine ⟨Fin.cons first y, ?_, ?_⟩
      · intro i
        cases i using Fin.cases with
        | zero => exact hfirst
        | succ i => exact hy i
      · rw [List.ofFn_succ]
        rfl
    · rintro ⟨y, hy, rfl⟩
      have hrest := ih.mpr ⟨fun i => y i.succ, fun i => hy i.succ, rfl⟩
      rw [hy 0, hrest, List.ofFn_succ]
      rfl

theorem zip_ofFn {β γ : Type} {n : Nat} (x : Fin n → β) (y : Fin n → γ) :
    (List.ofFn x).zip (List.ofFn y) = List.ofFn fun i => (x i, y i) := by
  apply List.ext_getElem
  · simp
  · intro i hi hi'
    simp

namespace Resolution

section order
variable {α σ : Type} [Cartography α] {o : Options α σ} {n : Nat}

/-- The steps of resolving the sources `s`: the georeferences that are found, and those that are
used. -/
structure Resolves (o : Options α σ) (s : Fin n → Source α σ)
    (found : Fin n → Option (GeoReference α)) (g : Fin n → GeoReference α) (r : Resolution α) :
    Prop where
  found_eq : ∀ i, inputGeoref o (s i) = .ok (found i)
  missing_le : ((List.ofFn found).filter Option.isNone).length ≤ 1
  orGlobe_eq : ∀ i, orGlobe (s i) (found i) = .ok (g i)
  inputs_eq : r.inputs = List.ofFn g
  total_eq : r.total = (o.globalResolution.map Int.ofNat).getD
    ((List.ofFn fun i => (s i, g i)).foldl widen leastTotal)
  rows_eq : r.rows = r.total
  cols_eq : r.cols = r.total.tdiv (max o.aspectRatio 1 : Nat)
  cols_pos : 0 < r.cols
  canvas_eq : o.mode.canvas r.cols r.rows = .ok r.canvas

variable {s : Fin n → Source α σ} {found : Fin n → Option (GeoReference α)}
  {g : Fin n → GeoReference α} {r : Resolution α}

theorem widen_right_comm (t : Int) (i j : Source α σ × GeoReference α) :
    widen (widen t i) j = widen (widen t j) i := by
  rw [widen, widen, widen, widen]
  cases ofImage i.2 i.1.cols i.1.rows with
  | none => rfl
  | some m =>
    cases ofImage j.2 j.1.cols j.1.rows with
    | none => rfl
    | some n => exact max_right_comm t m n

theorem exists_resolves (h : resolve o (List.ofFn s) = .ok r) :
    ∃ found g, Resolves o s found g r := by
  obtain ⟨_, hfound, h⟩ := bind_eq_ok h
  obtain ⟨found, hsources, rfl⟩ := mapM_ofFn_eq_ok_iff.mp hfound
  change (if _ then _ else _) = _ at h
  split at h
  · cases h
  · next hmissing =>
    obtain ⟨_, hinputs, h⟩ := bind_eq_ok h
    rw [zip_ofFn] at hinputs
    obtain ⟨g, hg, rfl⟩ := mapM_ofFn_eq_ok_iff.mp hinputs
    rw [zip_ofFn] at h
    change (if _ then _ else _) = _ at h
    split at h
    · cases h
    · next hcols =>
      obtain ⟨canvas, hcanvas, h⟩ := bind_eq_ok h
      obtain rfl := Except.ok.inj h
      exact ⟨found, g, hsources, Nat.not_lt.mp hmissing, hg, rfl, rfl, rfl, rfl, Int.not_le.mp hcols,
        hcanvas⟩

theorem Resolves.resolve_eq_ok (h : Resolves o s found g r) :
    ∃ assumed, resolve o (List.ofFn s) = .ok { r with assumed } := by
  have hfound := mapM_ofFn_eq_ok_iff.mpr ⟨found, h.found_eq, rfl⟩
  have hinputs : (List.ofFn fun i => (s i, found i)).mapM (fun i => orGlobe i.1 i.2) =
      .ok (List.ofFn g) := mapM_ofFn_eq_ok_iff.mpr ⟨g, h.orGlobe_eq, rfl⟩
  have hmissing : ¬ 1 < ((List.ofFn found).filter Option.isNone).length := h.missing_le.not_gt
  refine ⟨((List.ofFn fun i => (s i, found i)).filter fun i => i.2.isNone).map
    fun i => i.1.name, ?_⟩
  rw [resolve, hfound]
  change (if _ then _ else _) = _
  rw [if_neg hmissing, zip_ofFn, hinputs]
  change (if _ then _ else _) = _
  rw [zip_ofFn, ← h.total_eq, ← h.cols_eq, if_neg h.cols_pos.not_ge, ← h.rows_eq, h.canvas_eq,
    ← h.inputs_eq]
  rfl

theorem Resolves.comp (h : Resolves o s found g r) (e : Equiv.Perm (Fin n)) :
    Resolves o (s ∘ e) (found ∘ e) (g ∘ e) { r with inputs := List.ofFn (g ∘ e) } where
  found_eq i := h.found_eq (e i)
  missing_le := by
    have hperm := (e.ofFn_comp_perm found).filter Option.isNone
    exact hperm.length_eq.trans_le h.missing_le
  orGlobe_eq i := h.orGlobe_eq (e i)
  inputs_eq := rfl
  total_eq := by
    have hperm := e.ofFn_comp_perm fun i => (s i, g i)
    have hfold : (List.ofFn ((fun i => (s i, g i)) ∘ e)).foldl widen leastTotal =
        (List.ofFn fun i => (s i, g i)).foldl widen leastTotal := by
      have : RightCommutative (widen (α := α) (σ := σ)) := ⟨widen_right_comm⟩
      exact hperm.foldl_eq leastTotal
    exact h.total_eq.trans (congrArg _ hfold.symm)
  rows_eq := h.rows_eq
  cols_eq := h.cols_eq
  cols_pos := h.cols_pos
  canvas_eq := h.canvas_eq

end order

section least
variable [RealMaps] {σ : Type} {g : GeoReference ℝ} {cols rows : Nat} {d : ℝ}

/-- The degrees from the centre pixel of an image to the pixel right of it and to the one below it,
as far as these are found. -/
def centreSteps (g : GeoReference ℝ) (cols rows : Nat) : Set ℝ :=
  let x : ℝ := (cols / 2 : Nat)
  let y : ℝ := (rows / 2 : Nat)
  {d | ∃ p q, g.pixelToDegrees (x, y) = some p ∧
    (g.pixelToDegrees (x + 1, y) = some q ∨ g.pixelToDegrees (x, y + 1) = some q) ∧
    d = √((q.1 - p.1) ^ 2 + (q.2 - p.2) ^ 2)}

/-- The smaller step in degrees at the centre pixel of an image is `d`, and can be measured. -/
def IsCentreStep (g : GeoReference ℝ) (cols rows : Nat) (d : ℝ) : Prop :=
  0 < d ∧ IsLeast (centreSteps g cols rows) d

theorem degreesApart_eq_some_iff {p q : ℝ × ℝ} : degreesApart g p q = some d ↔
    ∃ a b, g.pixelToDegrees p = some a ∧ g.pixelToDegrees q = some b ∧
      d = √((b.1 - a.1) ^ 2 + (b.2 - a.2) ^ 2) := by
  rw [degreesApart]
  cases g.pixelToDegrees p with
  | none => simp
  | some a =>
    cases g.pixelToDegrees q with
    | none => simp
    | some b =>
      simp only [Option.bind_eq_bind, Option.bind_some, Option.pure_def, Option.some.injEq]
      constructor
      · rintro rfl
        exact ⟨a, b, rfl, rfl, rfl⟩
      · rintro ⟨_, _, rfl, rfl, rfl⟩
        rfl

theorem centreSteps_eq (g : GeoReference ℝ) (cols rows : Nat) : centreSteps g cols rows =
    {d | degreesApart g ((cols / 2 : Nat), (rows / 2 : Nat))
        ((cols / 2 : Nat) + 1, (rows / 2 : Nat)) = some d ∨
      degreesApart g ((cols / 2 : Nat), (rows / 2 : Nat))
        ((cols / 2 : Nat), (rows / 2 : Nat) + 1) = some d} := by
  ext d
  rw [Set.mem_ofPred_eq, degreesApart_eq_some_iff, degreesApart_eq_some_iff]
  constructor
  · rintro ⟨p, q, hp, hq | hq, hd⟩
    · exact .inl ⟨p, q, hp, hq, hd⟩
    · exact .inr ⟨p, q, hp, hq, hd⟩
  · rintro (⟨p, q, hp, hq, hd⟩ | ⟨p, q, hp, hq, hd⟩)
    · exact ⟨p, q, hp, .inl hq, hd⟩
    · exact ⟨p, q, hp, .inr hq, hd⟩

omit [RealMaps] in
private theorem some_eq_some_iff_isLeast {s : Set ℝ} {a : ℝ} (h : IsLeast s a) :
    some a = some d ↔ IsLeast s d := by
  constructor
  · intro heq
    obtain rfl := Option.some.inj heq
    exact h
  · intro hd
    rw [h.unique hd]

theorem centreStep_eq_some_iff :
    centreStep g cols rows = some d ↔ IsCentreStep g cols rows d := by
  rw [centreStep, IsCentreStep, centreSteps_eq, and_comm, Option.filter_eq_some_iff,
    Bool.and_eq_true_iff, decide_eq_true_iff]
  simp only [ofInt_real, Int.cast_natCast, Int.cast_one, Int.cast_zero, isFinite_real, true_and]
  apply and_congr_left'
  cases degreesApart g ((cols / 2 : Nat), (rows / 2 : Nat))
      ((cols / 2 : Nat) + 1, (rows / 2 : Nat)) with
  | none =>
    cases degreesApart g ((cols / 2 : Nat), (rows / 2 : Nat))
        ((cols / 2 : Nat), (rows / 2 : Nat) + 1) with
    | none => simp [IsLeast]
    | some b =>
      apply some_eq_some_iff_isLeast
      simp [IsLeast, lowerBounds]
  | some a =>
    cases degreesApart g ((cols / 2 : Nat), (rows / 2 : Nat))
        ((cols / 2 : Nat), (rows / 2 : Nat) + 1) with
    | none =>
      apply some_eq_some_iff_isLeast
      simp [IsLeast, lowerBounds]
    | some b =>
      have hpair : {d | some a = some d ∨ some b = some d} = {a, b} := by
        ext d
        simp [eq_comm]
      apply some_eq_some_iff_isLeast
      rw [hpair, lesser_eq_min]
      exact isLeast_pair

private theorem exponent_le_iff {p : ℝ} (hp : 0 < p) (k : Nat) :
    (max 0 (min (Arith.toInt (Arith.ceil (Cartography.log2 p))) largestExponent)).toNat ≤ k ↔
      min p (2 ^ 30) ≤ 2 ^ k := by
  let exponent : Int := ⌈Real.logb 2 p⌉
  have hcut : (max 0 (min (Arith.toInt (Arith.ceil (Cartography.log2 p))) largestExponent)).toNat ≤
      k ↔ exponent ≤ k ∨ 30 ≤ k := by
    change (max 0 (min (Arith.toInt (exponent : ℝ)) 30)).toNat ≤ k ↔ _
    rw [toInt_intCast]
    omega
  have henough : exponent ≤ k ↔ p ≤ 2 ^ k := by
    rw [Int.ceil_le, Real.logb_le_iff_le_rpow one_lt_two hp, Int.cast_natCast, Real.rpow_natCast]
  have hlargest : 30 ≤ k ↔ (2 : ℝ) ^ 30 ≤ 2 ^ k := (pow_le_pow_iff_right₀ one_lt_two).symm
  rw [hcut, henough, hlargest, min_le_iff]

theorem ofImage_le_two_pow_iff (k : Nat) :
    (∀ n, ofImage g cols rows = some n → n ≤ 2 ^ k) ↔
      ∀ d, IsCentreStep g cols rows d → min (360 / d) (2 ^ 30) ≤ (2 : ℝ) ^ k := by
  let exponent (d : ℝ) : Nat :=
    (max 0 (min (Arith.toInt (Arith.ceil (Cartography.log2 (ofInt 360 / d)))) largestExponent)).toNat
  have hpower (d : ℝ) (hd : 0 < d) :
      ((1 <<< exponent d : Nat) : Int) ≤ 2 ^ k ↔ min (360 / d) (2 ^ 30) ≤ 2 ^ k := by
    have hturn : (ofInt 360 : ℝ) / d = 360 / d := by rw [ofInt_real, Int.cast_ofNat]
    have hexponent : exponent d ≤ k ↔ min (360 / d) (2 ^ 30) ≤ 2 ^ k := by
      rw [← exponent_le_iff (div_pos (by norm_num) hd) k, ← hturn]
    rw [← hexponent, Nat.shiftLeft_eq, Nat.one_mul, Nat.cast_pow, Nat.cast_ofNat,
      pow_le_pow_iff_right₀ one_lt_two]
  constructor
  · intro h d hd
    rw [← hpower d hd.1]
    apply h
    rw [ofImage, centreStep_eq_some_iff.mpr hd]
    rfl
  · intro h n hn
    obtain ⟨d, hd, rfl⟩ := Option.map_eq_some_iff.mp hn
    have hd := centreStep_eq_some_iff.mp hd
    exact (hpower d hd.1).mpr (h d hd)

theorem foldl_widen_le_iff {inputs : List (Source ℝ σ × GeoReference ℝ)} {t n : Int} :
    inputs.foldl widen t ≤ n ↔ t ≤ n ∧ ∀ i ∈ inputs, ∀ m,
      ofImage i.2 i.1.cols i.1.rows = some m → m ≤ n := by
  induction inputs generalizing t with
  | nil => simp
  | cons i inputs ih =>
    have hstep : widen t i ≤ n ↔ t ≤ n ∧ ∀ m, ofImage i.2 i.1.cols i.1.rows = some m → m ≤ n := by
      rw [widen]
      cases ofImage i.2 i.1.cols i.1.rows with
      | none => simp
      | some m => simp
    rw [List.foldl_cons, ih, hstep, List.forall_mem_cons, and_assoc]

/-- The finest input decides. -/
theorem isLeast_measured (inputs : List (Source ℝ σ × GeoReference ℝ)) :
    IsLeast {n : Int | (∃ k : Nat, n = 2 ^ k) ∧ 1024 ≤ n ∧
      ∀ i ∈ inputs, ∀ d, IsCentreStep i.2 i.1.cols i.1.rows d →
        min (360 / d) (2 ^ 30) ≤ (n : ℝ)} (inputs.foldl widen leastTotal) := by
  have henough (k : Nat) : inputs.foldl widen leastTotal ≤ 2 ^ k ↔ (1024 : Int) ≤ 2 ^ k ∧
      ∀ i ∈ inputs, ∀ d, IsCentreStep i.2 i.1.cols i.1.rows d →
        min (360 / d) (2 ^ 30) ≤ (((2 : Int) ^ k : Int) : ℝ) := by
    rw [foldl_widen_le_iff, Int.cast_pow, Int.cast_ofNat]
    simp only [ofImage_le_two_pow_iff]
    rfl
  obtain ⟨k, -, hk⟩ := exists_measured_eq_two_pow inputs
  constructor
  · rw [hk]
    exact ⟨⟨k, rfl⟩, (henough k).mp hk.le⟩
  · rintro n ⟨⟨k, rfl⟩, hinputs⟩
    exact (henough k).mpr hinputs

/-- Without rounding, the pixels of a full turn are the least power of two that is enough for every
input that can be measured, and at least 1024. The inputs stand in the order of the sources, and
sources in another order give the same canvas. -/
theorem resolve_least_total {o : Options ℝ σ} {sources : List (Source ℝ σ)} {r : Resolution ℝ}
    (hfree : o.globalResolution = none) (h : resolve o sources = .ok r) :
    ∃ g : Fin sources.length → GeoReference ℝ,
      r.inputs = List.ofFn g ∧
      (∀ i, (inputGeoref o (sources.get i) >>= orGlobe (sources.get i)) = .ok (g i)) ∧
      IsLeast {n : Int | (∃ k : Nat, n = 2 ^ k) ∧ 1024 ≤ n ∧
        ∀ i d, IsCentreStep (g i) (sources.get i).cols (sources.get i).rows d →
          min (360 / d) (2 ^ 30) ≤ (n : ℝ)} r.total ∧
      ∀ e : Equiv.Perm (Fin sources.length), ∃ r',
        resolve o (List.ofFn (sources.get ∘ e)) = .ok r' ∧ r'.inputs = List.ofFn (g ∘ e) ∧
          r'.total = r.total ∧ r'.cols = r.cols ∧ r'.rows = r.rows ∧ r'.canvas = r.canvas := by
  rw [← List.ofFn_get sources] at h
  obtain ⟨found, g, hsteps⟩ := exists_resolves h
  refine ⟨g, hsteps.inputs_eq, ?_, ?_, ?_⟩
  · intro i
    rw [hsteps.found_eq i]
    exact hsteps.orGlobe_eq i
  · have htotal : r.total =
        (List.ofFn fun i => (sources.get i, g i)).foldl widen leastTotal := by
      rw [hsteps.total_eq, hfree]
      rfl
    have hleast := isLeast_measured (List.ofFn fun i => (sources.get i, g i))
    simp only [List.forall_mem_ofFn_iff] at hleast
    rw [htotal]
    exact hleast
  · intro e
    obtain ⟨assumed, hassumed⟩ := (hsteps.comp e).resolve_eq_ok
    exact ⟨_, hassumed, rfl, rfl, rfl, rfl, rfl⟩

end least

section existence
variable {n : Nat} {σ : Type}

theorem exists_resolve [RealMaps] {o : Options ℝ σ} {s : Fin n → Source ℝ σ}
    {found : Fin n → Option (GeoReference ℝ)} (hfree : o.globalResolution = none)
    (hmode : o.mode ≠ .gmap) (haspect : o.aspectRatio ≤ 1024)
    (hfound : ∀ i, inputGeoref o (s i) = .ok (found i))
    (hmissing : ((List.ofFn found).filter Option.isNone).length ≤ 1)
    (hsize : ∀ i, (s i).cols ≠ 0 ∧ (s i).rows ≠ 0) : ∃ r, resolve o (List.ofFn s) = .ok r := by
  have hplaced (i : Fin n) : ∃ g, orGlobe (s i) (found i) = .ok g := by
    cases found i with
    | none => exact GeoReference.exists_globe (hsize i).1 (hsize i).2
    | some g => exact ⟨g, rfl⟩
  choose g hg using hplaced
  let total : Int := (List.ofFn fun i => (s i, g i)).foldl widen leastTotal
  have htotal : 1024 ≤ total := (isLeast_measured _).1.2.1
  have hcols : 0 < total.tdiv (max o.aspectRatio 1 : Nat) := by
    rw [Int.tdiv_eq_ediv_of_nonneg (by omega)]
    have hone : 1 ≤ total / (max o.aspectRatio 1 : Nat) :=
      (Int.le_ediv_iff_mul_le (by omega)).mpr (by omega)
    omega
  obtain ⟨canvas, hcanvas⟩ := OutputMode.exists_canvas hmode hcols (by omega : 0 < total)
  have hsteps : Resolves o s found g
      { inputs := List.ofFn g, total := total, cols := total.tdiv (max o.aspectRatio 1 : Nat),
        rows := total, canvas := canvas, assumed := [] } := by
    constructor
    · exact hfound
    · exact hmissing
    · exact hg
    · rfl
    · rw [hfree]
      rfl
    · rfl
    · rfl
    · exact hcols
    · exact hcanvas
  obtain ⟨assumed, h⟩ := hsteps.resolve_eq_ok
  exact ⟨_, h⟩

theorem inputGeoref_initial {α : Type} [Cartography α] (s : Source α σ) :
    inputGeoref Options.initial s = .ok s.georef := by
  have hbase : baseGeoref Options.initial none s = .ok s.georef := rfl
  have hdatum : (Options.initial : Options α σ).datum.datum.mapError Error.configuration =
      .ok none := rfl
  rw [inputGeoref]
  simp only [hdatum, bind, Except.bind, hbase]
  cases s.georef with
  | none => rfl
  | some g => rfl

end existence

noncomputable section

/-- An image of two pixels, a quarter of a degree wide each. -/
def quarterDegrees : Source ℝ Float32 where
  name := "quarters"
  raster := { width := 2, height := 1, bands := 0, channel := .u8, pixels := .replicate 2 (.clear 0) }
  nodata := none
  georef := some
    { projection := GeoReference.degreesDefinition
      datum := .wgs84
      transform := .steps (1 / 4) (-1 / 4) 0 0
      inverse := .steps 4 (-4) 0 0
      projector := none }

/-- The same image, but nobody knows where it lies. -/
def unplaced : Source ℝ Float32 := { quarterDegrees with georef := none }

end

theorem resolve_least_total_pair : letI := RealMaps.unprojected
    ∃ r r' : Resolution ℝ, resolve Options.initial [quarterDegrees, unplaced] = .ok r ∧
      resolve Options.initial [unplaced, quarterDegrees] = .ok r' ∧
      1024 ≤ r.total ∧ r'.total = r.total ∧ r'.inputs = r.inputs.reverse := by
  let := RealMaps.unprojected
  obtain ⟨r, hr⟩ := exists_resolve rfl (by decide) (by decide)
    (fun i => inputGeoref_initial (![quarterDegrees, unplaced] i)) le_rfl (by decide)
  have hr : resolve Options.initial [quarterDegrees, unplaced] = .ok r := hr
  obtain ⟨g, hinputs, -, ⟨⟨-, hleast, -⟩, -⟩, horder⟩ := resolve_least_total rfl hr
  obtain ⟨r', hr', hinputs', htotal, -⟩ := horder (Equiv.swap 0 1)
  refine ⟨r, r', hr, hr', hleast, htotal, ?_⟩
  rw [hinputs, hinputs']
  rfl

end Resolution
end TilePyramid
