import TilePyramid.Proofs.Depth
import TilePyramid.Proofs.TilePaths

/-!
# Pyramids in machine words

Image sizes and tile sizes have 32 bits. Main statement: the search for the deepest level then ends
by itself, within 32 levels, and every size it tries has 64 bits; the side of the whole pyramid is
less than twice the larger one of image and tile, and the place of every tile has 32 bits again.
-/
namespace TilePyramid

section depth
variable {extent tileSize : Nat}

theorem levelCovering_eq {steps level depth : Nat} (hle : level ≤ depth)
    (hsteps : depth ≤ level + steps)
    (hshort : ∀ l, level ≤ l → l < depth → tileSize <<< l < extent)
    (hcovered : extent ≤ tileSize <<< depth) :
    levelCovering extent tileSize steps level = depth := by
  induction steps generalizing level with
  | zero =>
    rw [levelCovering]
    omega
  | succ steps ih =>
    rw [levelCovering]
    rcases hle.eq_or_lt with rfl | hlt
    · rw [if_neg (not_lt.mpr hcovered)]
    · rw [if_pos (hshort level le_rfl hlt)]
      apply ih hlt (by omega)
      intro l hl
      exact hshort l (by omega)

/-- The deepest level is found with any number of steps that suffices. -/
theorem levelCovering_eq_maxLevelFor (ht : 0 < tileSize) {steps : Nat}
    (hsteps : maxLevelFor extent tileSize ≤ steps) :
    levelCovering extent tileSize steps 0 = maxLevelFor extent tileSize := by
  apply levelCovering_eq (Nat.zero_le _) (by omega)
  · intro l _
    exact tileSize_shiftLeft_lt_of_lt_maxLevelFor
  · exact le_tileSize_shiftLeft_maxLevelFor extent ht

theorem isLeast_maxLevelFor (extent : Nat) (ht : 0 < tileSize) :
    IsLeast {level | extent ≤ tileSize * 2 ^ level} (maxLevelFor extent tileSize) := by
  constructor
  · have hcovered := le_tileSize_shiftLeft_maxLevelFor extent ht
    rwa [Nat.shiftLeft_eq] at hcovered
  · intro level hlevel
    by_contra hlt
    have hshort := tileSize_shiftLeft_lt_of_lt_maxLevelFor (not_le.mp hlt)
    rw [Nat.shiftLeft_eq] at hshort
    exact absurd hlevel (not_le.mpr hshort)

theorem maxLevelFor_le_of_le_two_pow (ht : 0 < tileSize) {bits : Nat} (h : extent ≤ 2 ^ bits) :
    maxLevelFor extent tileSize ≤ bits :=
  (isLeast_maxLevelFor extent ht).2 (h.trans (Nat.le_mul_of_pos_left _ ht))

theorem shiftLeft_maxLevelFor_lt (extent : Nat) (ht : 0 < tileSize) :
    tileSize <<< maxLevelFor extent tileSize < 2 * max extent tileSize := by
  cases hdepth : maxLevelFor extent tileSize with
  | zero =>
    rw [Nat.shiftLeft_zero]
    omega
  | succ above =>
    have hshort : tileSize <<< above < extent := by
      apply tileSize_shiftLeft_lt_of_lt_maxLevelFor
      omega
    rw [Nat.shiftLeft_succ]
    omega

theorem shiftLeft_mono {l l' : Nat} (h : l ≤ l') : tileSize <<< l ≤ tileSize <<< l' := by
  rw [Nat.shiftLeft_eq, Nat.shiftLeft_eq]
  gcongr
  decide

end depth

theorem Tile.isPlaced_root (side : Int) : (Tile.root side).IsPlaced :=
  ⟨rfl, Nat.one_pos, Nat.one_pos⟩

theorem Tile.IsPlaced.quadrant {t : Tile} (h : t.IsPlaced) (q : Fin 4) :
    (t.quadrant q).IsPlaced where
  path_eq := by
    simp only [Tile.quadrant, quadrantPlace, placeDigits_succ, h.path_eq]
  x_lt := by
    have hx := h.x_lt
    simp only [Tile.quadrant, quadrantPlace, Nat.pow_succ]
    omega
  y_lt := by
    have hy := h.y_lt
    simp only [Tile.quadrant, quadrantPlace, Nat.pow_succ]
    omega

theorem Tile.IsPlaced.foldl_quadrant {t : Tile} (h : t.IsPlaced) (quadrants : List (Fin 4)) :
    (quadrants.foldl Tile.quadrant t).IsPlaced ∧
      (quadrants.foldl Tile.quadrant t).level = t.level + quadrants.length := by
  induction quadrants generalizing t with
  | nil => exact ⟨h, rfl⟩
  | cons q quadrants ih =>
    obtain ⟨hplaced, hlevel⟩ := ih (h.quadrant q)
    refine ⟨hplaced, ?_⟩
    rw [List.foldl_cons, hlevel, List.length_cons]
    simp only [Tile.quadrant]
    omega

/-- For sizes of 32 bits the search for the deepest level ends by itself, at the least level on
which tiles cover the extent and at level 32 at the latest. Every size it tries has 64 bits, the
side of the whole pyramid has 63 and is less than twice the larger size, and on the way down to the
deepest level every column and every row has 32 bits. -/
theorem maxLevelFor_fits {extent tileSize : Nat} (hextent : extent < 2 ^ 32) (ht : 1 ≤ tileSize)
    (htile : tileSize < 2 ^ 32) :
    let depth := maxLevelFor extent tileSize
    (∀ steps, depth ≤ steps → levelCovering extent tileSize steps 0 = depth) ∧
      IsLeast {level | extent ≤ tileSize * 2 ^ level} depth ∧ depth ≤ 32 ∧
      (∀ level ≤ depth, tileSize <<< level < 2 ^ 64) ∧
      tileSize <<< depth < 2 ^ 63 ∧ tileSize <<< depth < 2 * max extent tileSize ∧
      ∀ quadrants : List (Fin 4), quadrants.length ≤ depth →
        let t := quadrants.foldl Tile.quadrant (.root (tileSize <<< depth : Nat))
        t.level = quadrants.length ∧ t.x < 2 ^ 32 ∧ t.y < 2 ^ 32 := by
  intro depth
  have hdepth : depth ≤ 32 := maxLevelFor_le_of_le_two_pow ht hextent.le
  have hside : tileSize <<< depth < 2 * max extent tileSize := shiftLeft_maxLevelFor_lt extent ht
  refine ⟨fun _ => levelCovering_eq_maxLevelFor ht, isLeast_maxLevelFor extent ht, hdepth, ?_, ?_,
    hside, ?_⟩
  · intro level hlevel
    have hsize : tileSize <<< level ≤ tileSize <<< depth := shiftLeft_mono hlevel
    omega
  · omega
  · intro quadrants hlength t
    obtain ⟨hplaced, hlevel⟩ :=
      (Tile.isPlaced_root (tileSize <<< depth : Nat)).foldl_quadrant quadrants
    have hlevel : t.level = quadrants.length := hlevel.trans (Nat.zero_add _)
    have hcells : 2 ^ t.level ≤ 2 ^ 32 := by
      apply Nat.pow_le_pow_right (by decide)
      omega
    exact ⟨hlevel, hplaced.x_lt.trans_le hcells, hplaced.y_lt.trans_le hcells⟩

/-- The largest image cut into single pixels has all 32 levels below its first tile. -/
theorem maxLevelFor_fits_largest :
    4294967295 < 2 ^ 32 ∧ 1 ≤ 1 ∧ 1 < 2 ^ 32 ∧ maxLevelFor 4294967295 1 = 32 := by
  have hextent : 4294967295 < 2 ^ 32 := by decide
  have htile : 1 < 2 ^ 32 := by decide
  obtain ⟨-, ⟨hcovered, -⟩, hdepth, -⟩ := maxLevelFor_fits hextent le_rfl htile
  refine ⟨hextent, le_rfl, htile, le_antisymm hdepth ?_⟩
  have hcovered : 4294967295 ≤ 1 * 2 ^ maxLevelFor 4294967295 1 := hcovered
  generalize maxLevelFor 4294967295 1 = depth at hcovered
  by_contra hlt
  have hless : 2 ^ depth ≤ 2 ^ 31 := Nat.pow_le_pow_right (by decide) (by omega)
  omega

end TilePyramid
