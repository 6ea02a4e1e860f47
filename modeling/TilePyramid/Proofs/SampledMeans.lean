import TilePyramid.Proofs.AffineImages
import TilePyramid.Proofs.BlendOrder

/-!
# Samples as means

Without rounding, a sample between the pixels of an image is told by a mean along the row and along
the column: what the pixels on both sides hold, weighted by how near they are. The sum of the
weights is the mean of the alphas, and the sum of the colours that of the colours times alpha.
Positions are moved to the centre of a pixel that is near enough before, and their pixel is an
index of 64 bits.
-/
namespace TilePyramid

open ExactArith

section snapping

theorem nearest_eq_of_near {q : Rat} {n : Int} (h : |q - n| < 1 / 2) : nearest q = n := by
  obtain ⟨hlo, hhi⟩ := abs_lt.mp h
  rw [nearest]
  split
  · rw [Int.ceil_eq_iff]
    constructor <;> linarith
  · rw [Int.floor_eq_iff]
    constructor <;> linarith

/-- The centre of a pixel that is near, and the position itself where there is none. -/
def snapped (q : Rat) : Rat := if |q - nearest q| < 1 / 1000000 then nearest q else q

theorem snapped_of_near {q : Rat} {n : Int} (h : |q - n| < 1 / 1000000) : snapped q = n := by
  have hnearest : nearest q = n := nearest_eq_of_near (h.trans (by norm_num))
  rw [snapped, hnearest, if_pos h]

theorem snapped_intCast (n : Int) : snapped n = n := by
  apply snapped_of_near
  norm_num

theorem snapped_add_int (q : Rat) (n : Int) : snapped (q + n) = snapped q + n := by
  by_cases h : |q - nearest q| < 1 / 1000000
  · have hmoved : |q + n - (nearest q + n : Int)| < 1 / 1000000 := by
      rwa [Int.cast_add, add_sub_add_right_eq_sub]
    rw [snapped_of_near hmoved, snapped_of_near h, Int.cast_add]
  · have hfar : ¬ |q + n - nearest (q + n)| < 1 / 1000000 := by
      intro hnear
      -- A centre that is near the moved position is near the first one when it is moved back.
      have hback : |q - (nearest (q + n) - n : Int)| < 1 / 1000000 := by
        rw [Int.cast_sub]
        rwa [sub_sub_eq_add_sub]
      rw [nearest_eq_of_near (hback.trans (by norm_num))] at h
      exact h hback
    rw [snapped, if_neg hfar, snapped, if_neg h]

theorem snapped_le {q : Rat} {n : Int} (h : q ≤ n) : snapped q ≤ n := by
  rw [snapped]
  split
  · exact_mod_cast (nearest_mono h).trans_eq (nearest_intCast n)
  · exact h

theorem le_snapped {q : Rat} {n : Int} (h : (n : Rat) ≤ q) : n ≤ snapped q := by
  rw [snapped]
  split
  · exact_mod_cast (nearest_intCast n).symm.trans_le (nearest_mono h)
  · exact h

variable {α : Type} [Arith α] [ExactRounding α]

theorem value_magnitude (v : α) : value (Arith.magnitude v) = |value v| := by
  rw [Arith.magnitude]
  by_cases h : value v < 0
  · rw [if_pos ((lt_iff _ _).mpr (by simpa using h)), ExactRounding.value_neg, abs_of_neg h]
  · rw [if_neg (mt (lt_iff _ _).mp (by simpa using h)), abs_of_nonneg (not_lt.mp h)]

theorem value_snap (x : α) : value (snap x) = snapped (value x) := by
  have htolerance : value (snapTolerance : α) = 1 / 1000000 := by simp [snapTolerance]
  have hnear : Arith.magnitude (x - Arith.round x) < snapTolerance ↔
      |value x - nearest (value x)| < 1 / 1000000 := by
    rw [lt_iff, value_magnitude, value_sub, ExactRounding.value_round, htolerance]
  simp only [snap, snapped, hnear, apply_ite (value (α := α)), ExactRounding.value_round]

end snapping

section neighbours

/-- The nearest index of 64 bits. -/
def cutIndex (n : Int) : Int := max (-2 ^ 63) (min (2 ^ 63 - 1) n)

theorem cutIndex_eq_self {n : Int} (hlo : -2 ^ 63 ≤ n) (hhi : n < 2 ^ 63) : cutIndex n = n := by
  rw [cutIndex]
  omega

theorem nextIndex_cutIndex {n : Int} (hhi : n < 2 ^ 63 - 1) :
    nextIndex (cutIndex n) = cutIndex n + 1 := by
  have hcut : -2 ^ 63 ≤ cutIndex n ∧ cutIndex n < 2 ^ 63 - 1 := by
    rw [cutIndex]
    omega
  rw [nextIndex]
  exact wrapIndex_eq (by omega) (by omega)

/-- The mean of two neighbours around a position, each weighted by how near it is. -/
def neighbourMean (g : Int → Rat) (q : Rat) : Rat :=
  (1 - Int.fract q) * g (cutIndex ⌊q⌋) + Int.fract q * g (nextIndex (cutIndex ⌊q⌋))

variable {g g' : Int → Rat} {q : Rat}

theorem neighbourMean_congr (h : g (cutIndex ⌊q⌋) = g' (cutIndex ⌊q⌋))
    (hnext : Int.fract q = 0 ∨
      g (nextIndex (cutIndex ⌊q⌋)) = g' (nextIndex (cutIndex ⌊q⌋))) :
    neighbourMean g q = neighbourMean g' q := by
  rw [neighbourMean, neighbourMean, h]
  rcases hnext with hzero | hsame
  · rw [hzero, zero_mul, zero_mul]
  · rw [hsame]

theorem neighbourMean_const (v : Rat) (q : Rat) : neighbourMean (fun _ => v) q = v := by
  rw [neighbourMean]
  ring

theorem neighbourMean_intCast (g : Int → Rat) (n : Int) :
    neighbourMean g n = g (cutIndex n) := by
  rw [neighbourMean, Int.fract_intCast, Int.floor_intCast]
  ring

theorem neighbourMean_add_int {m : Int} (hg : ∀ i, g (i + m) = g i)
    (hlo : -2 ^ 63 ≤ ⌊q⌋) (hhi : ⌊q⌋ < 2 ^ 63 - 1)
    (hmovedLo : -2 ^ 63 ≤ ⌊q⌋ + m) (hmovedHi : ⌊q⌋ + m < 2 ^ 63 - 1) :
    neighbourMean g (q + m) = neighbourMean g q := by
  rw [neighbourMean, neighbourMean, Int.fract_add_intCast, Int.floor_add_intCast,
    nextIndex_cutIndex hhi, nextIndex_cutIndex hmovedHi, cutIndex_eq_self hlo (by omega),
    cutIndex_eq_self hmovedLo (by omega), hg, add_right_comm, hg]

end neighbours

section sums
variable {σ : Type} [Arith σ]

/-- What a pixel holds at a place, and nothing where no pixel is read. -/
def Raster.readAt (r : Raster σ) (edge : EdgeMode) (f : Pixel σ → Rat) (x y : Int) : Rat :=
  (edge.place? r.width r.height x y).elim 0 fun place => f (r.pixel place.1 place.2)

/-- What the four pixels around a position hold, each weighted by how near it is. -/
def Raster.meanAt (r : Raster σ) (edge : EdgeMode) (f : Pixel σ → Rat) (x y : Rat) : Rat :=
  neighbourMean (fun j => neighbourMean (fun i => r.readAt edge f i j) x) y

variable [ExactArith σ]

/-- The sums of weights and of weighted colours grow by what the pixels at the taps hold. -/
structure SumsUp (r : Raster σ) (edge : EdgeMode) (ts : List (Int × Int × σ))
    (start sum : Weighted σ) : Prop where
  length : sum.colour.length = r.bands
  weight : value sum.weight = value start.weight +
    (ts.map fun t => value t.2.2 * r.readAt edge (fun p => value p.alpha) t.1 t.2.1).sum
  band (i : Nat) : value (sum.colour.getD i (ofInt 0)) = value (start.colour.getD i (ofInt 0)) +
    (ts.map fun t =>
      value t.2.2 * r.readAt edge (fun p => value (p.band i) * value p.alpha) t.1 t.2.1).sum

variable {r : Raster σ} (edge : EdgeMode)

private theorem sumsUp_addTap (hr : r.WellFormed) {sum : Weighted σ}
    (hsum : sum.colour.length = r.bands) {tap : Int × Int × σ} (hshare : 0 ≤ value tap.2.2) :
    SumsUp r edge [tap] sum (addTap r edge sum tap) := by
  obtain ⟨x, y, share⟩ := tap
  simp only [addTap]
  split
  · next hnothing =>
    have hzero : value share = 0 := by
      rw [le_iff, value_ofInt, Int.cast_zero] at hnothing
      exact le_antisymm hnothing hshare
    constructor
    · exact hsum
    · simp [hzero]
    · simp [hzero]
  · cases hplace : edge.place? r.width r.height x y with
    | none =>
      constructor
      · exact hsum
      · simp [Raster.readAt, hplace]
      · simp [Raster.readAt, hplace]
    | some place =>
      obtain ⟨px, py⟩ := place
      have hp : (r.pixel px py).colour.length = r.bands := hr.hasShape.length_pixel px py
      constructor
      · dsimp only
        rw [List.length_zipWith, hsum, hp, Nat.min_self]
      · simp [Raster.readAt, hplace]
      · intro i
        dsimp only
        rw [value_getD_zipWith (hsum.trans hp.symm)]
        simp only [Raster.readAt, hplace, Option.elim_some, List.map_cons, List.map_nil,
          List.sum_cons, List.sum_nil, Pixel.band, value_mul]
        ring

private theorem sumsUp_foldl (hr : r.WellFormed) (ts : List (Int × Int × σ))
    (hshares : ∀ t ∈ ts, 0 ≤ value t.2.2) {sum : Weighted σ} (hsum : sum.colour.length = r.bands) :
    SumsUp r edge ts sum (ts.foldl (addTap r edge) sum) := by
  induction ts generalizing sum with
  | nil =>
    constructor
    · exact hsum
    · simp
    · simp
  | cons t ts ih =>
    have hstep := sumsUp_addTap edge hr hsum (hshares t List.mem_cons_self)
    have hrun := ih (fun t ht => hshares t (List.mem_cons_of_mem _ ht)) hstep.length
    constructor
    · exact hrun.length
    · rw [List.foldl_cons, hrun.weight, hstep.weight]
      simp [add_assoc]
    · intro i
      rw [List.foldl_cons, hrun.band, hstep.band]
      simp [add_assoc]

end sums

section samples
variable {α σ : Type} [Arith α] [ExactRounding α] [SaturatingIndex α] [Arith σ] [ExactArith σ]
  [Narrow α σ] [ExactNarrow α σ] {r : Raster σ}

omit [ExactArith σ] [Narrow α σ] [ExactNarrow α σ] [Arith σ] in
private theorem toInt_floor (x : α) : Arith.toInt (Arith.floor x) = cutIndex ⌊value x⌋ := by
  have hfloor : Arith.floor x = ofInt ⌊value x⌋ := value_injective (by simp)
  rw [hfloor, SaturatingIndex.toInt_ofInt, cutIndex]

omit [SaturatingIndex α] in
private theorem value_fraction (x : α) :
    value (narrow (x - Arith.floor x) : σ) = Int.fract (value x) := by
  rw [ExactNarrow.value_narrow, value_sub, ExactRounding.value_floor, Int.fract]

/-- The sums that a sample is made of. -/
theorem Raster.exists_sums_of_sample (hr : r.WellFormed) (hne : r.isEmpty = false)
    (edge : EdgeMode) (x y : α) :
    ∃ sum : Weighted σ, r.sample edge x y = sum.pixel ∧ sum.colour.length = r.bands ∧
      value sum.weight = r.meanAt edge (fun p => value p.alpha) (snapped (value x))
        (snapped (value y)) ∧
      ∀ i, value (sum.colour.getD i (ofInt 0)) =
        r.meanAt edge (fun p => value (p.band i) * value p.alpha) (snapped (value x))
          (snapped (value y)) := by
  let fx : σ := narrow (snap x - Arith.floor (snap x))
  let fy : σ := narrow (snap y - Arith.floor (snap y))
  let ts := taps (Arith.toInt (Arith.floor (snap x))) (Arith.toInt (Arith.floor (snap y))) fx fy
  have hfx : value fx = Int.fract (snapped (value x)) := by
    rw [value_fraction, value_snap]
  have hfy : value fy = Int.fract (snapped (value y)) := by
    rw [value_fraction, value_snap]
  have hshares : ∀ t ∈ ts, 0 ≤ value t.2.2 := by
    have hfraction (q : Rat) : 0 ≤ Int.fract q ∧ Int.fract q ≤ 1 :=
      ⟨Int.fract_nonneg q, (Int.fract_lt_one q).le⟩
    obtain ⟨hx, hx1⟩ := hfx ▸ hfraction (snapped (value x))
    obtain ⟨hy, hy1⟩ := hfy ▸ hfraction (snapped (value y))
    exact (shares_taps _ _ hx hx1 hy hy1).1
  have hmean (f : Pixel σ → Rat) :
      (ts.map fun t => value t.2.2 * r.readAt edge f t.1 t.2.1).sum =
        r.meanAt edge f (snapped (value x)) (snapped (value y)) := by
    simp only [ts, taps, List.map_cons, List.map_nil, List.sum_cons, List.sum_nil, value_mul,
      value_sub, value_ofInt, Int.cast_one, hfx, hfy, toInt_floor, value_snap, Raster.meanAt,
      neighbourMean]
    ring
  have hsums : SumsUp r edge ts ⟨List.replicate r.bands (ofInt 0), ofInt 0⟩ _ :=
    sumsUp_foldl edge hr ts hshares List.length_replicate
  refine ⟨_, ?_, hsums.length, ?_, ?_⟩
  · rw [Raster.sample, if_neg (by simp [hne, ExactArith.isFinite])]
  · rw [hsums.weight, hmean, value_ofInt, Int.cast_zero, zero_add]
  · intro i
    rw [hsums.band, hmean]
    simp [List.getD_eq_getElem?_getD]

theorem Raster.sample_eq_of_meanAt (hr : r.WellFormed) {edge edge' : EdgeMode} {x y x' y' : α}
    (h : ∀ f : Pixel σ → Rat, r.meanAt edge f (snapped (value x)) (snapped (value y)) =
      r.meanAt edge' f (snapped (value x')) (snapped (value y'))) :
    r.sample edge x y = r.sample edge' x' y' := by
  cases hne : r.isEmpty with
  | true => simp [Raster.sample, hne]
  | false =>
    obtain ⟨sum, hsample, hlength, hweight, hband⟩ := r.exists_sums_of_sample hr hne edge x y
    obtain ⟨sum', hsample', hlength', hweight', hband'⟩ :=
      r.exists_sums_of_sample hr hne edge' x' y'
    have hsame : sum = sum' := by
      obtain ⟨colour, weight⟩ := sum
      obtain ⟨colour', weight'⟩ := sum'
      rw [Weighted.mk.injEq]
      constructor
      · apply List.ext_getElem (hlength.trans hlength'.symm)
        intro i hi hi'
        apply value_injective (α := σ)
        have hvalue := (hband i).trans ((h _).trans (hband' i).symm)
        simpa [List.getD_eq_getElem?_getD, hi, hi'] using hvalue
      · exact value_injective (hweight.trans ((h _).trans hweight'.symm))
    rw [hsample, hsample', hsame]

end samples
end TilePyramid
