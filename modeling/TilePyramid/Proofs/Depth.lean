import TilePyramid.Proofs.Generation

/-!
# The depth of a pyramid

The deepest level is the least one on which tiles cover the image, so the tile of the whole tree
holds every pixel that is kept, and a generator that keeps a pixel has a tile to write.
-/
namespace TilePyramid

private theorem levelCovering_covers {extent tileSize steps level : Nat}
    (h : extent ≤ tileSize <<< (level + steps)) :
    extent ≤ tileSize <<< levelCovering extent tileSize steps level := by
  induction steps generalizing level with
  | zero => exact h
  | succ steps ih =>
    rw [levelCovering]
    split
    · exact ih (by rwa [Nat.add_assoc, Nat.add_comm 1])
    · next hcovered => exact Nat.le_of_not_lt hcovered

private theorem levelCovering_least {extent tileSize steps level l : Nat} (hl : level ≤ l)
    (h : l < levelCovering extent tileSize steps level) : tileSize <<< l < extent := by
  induction steps generalizing level with
  | zero =>
    rw [levelCovering] at h
    omega
  | succ steps ih =>
    rw [levelCovering] at h
    split at h
    · next hshort =>
      rcases Nat.eq_or_lt_of_le hl with rfl | hlt
      · exact hshort
      · exact ih hlt h
    · omega

theorem le_tileSize_shiftLeft_maxLevelFor (extent : Nat) {tileSize : Nat} (ht : 0 < tileSize) :
    extent ≤ tileSize <<< maxLevelFor extent tileSize := by
  refine levelCovering_covers ?_
  calc
    extent ≤ 2 ^ extent := Nat.lt_two_pow_self.le
    _ ≤ tileSize * 2 ^ extent := Nat.le_mul_of_pos_left _ ht
    _ = tileSize <<< (0 + extent) := by rw [Nat.zero_add, Nat.shiftLeft_eq]

theorem tileSize_shiftLeft_lt_of_lt_maxLevelFor {extent tileSize level : Nat}
    (h : level < maxLevelFor extent tileSize) : tileSize <<< level < extent :=
  levelCovering_least (Nat.zero_le _) h

namespace Plan

variable {α σ β γ : Type}

theorem outcome_bind (p : Plan α σ β) (next : β → Plan α σ γ) :
    (p >>= next).outcome = p.outcome >>= fun b => (next b).outcome := by
  change (p.andThen next).outcome = _
  rw [andThen]
  cases p.outcome <;> rfl

@[simp]
theorem outcome_fail (e : Error) : (fail e : Plan α σ β).outcome = .error e := rfl

@[simp]
theorem outcome_ofExcept (r : Except Error β) : (ofExcept r : Plan α σ β).outcome = r := rfl

@[simp]
theorem outcome_act (actions : List (Action α σ)) : (act actions).outcome = .ok () := rfl

@[simp]
theorem outcome_report (fraction : α) : (report fraction : Plan α σ Unit).outcome = .ok () := rfl

@[simp]
theorem outcome_within [Arith α] (start stop : α) (p : Plan α σ β) :
    (p.within start stop).outcome = p.outcome := rfl

end Plan

@[simp]
theorem pure_ne_error {ε β : Type} (b : β) (e : ε) : (pure b : Except ε β) ≠ .error e := by
  intro h
  cases h

theorem bind_ne_error {ε β γ : Type} {e : ε} {x : Except ε β} {next : β → Except ε γ}
    (hx : x ≠ .error e) (hnext : ∀ b, x = .ok b → next b ≠ .error e) :
    (x >>= next) ≠ .error e := by
  cases x with
  | error e' => exact fun h => hx (congrArg Except.error (Except.error.inj h))
  | ok b => exact hnext b rfl

theorem mapError_configuration_ne_emptyOutput {β : Type} (x : Except ConfigFault β) :
    x.mapError Error.configuration ≠ .error .emptyOutput := by
  cases x <;> simp [Except.mapError]

namespace Generator

variable {α σ : Type}

theorem isEmpty_ofImage_of_window {g : Generator α} {source : TileSource σ}
    (h : (g.window source).isEmpty = false) :
    (PixelBox.ofImage source.cols source.rows).isEmpty = false := by
  obtain ⟨hw, hh⟩ := PixelBox.isEmpty_eq_false_iff.mp h
  have hcorner : (g.window source).Mem (g.window source).minX (g.window source).minY :=
    ⟨le_rfl, hw, le_rfl, hh⟩
  have himage := (mem_window.mp hcorner).2
  simp only [PixelBox.Mem] at himage
  exact PixelBox.isEmpty_eq_false_iff.mpr (by omega)

variable [Arith α] [NumberText α] [Arith σ]

theorem render_root_ne_none {source : TileSource σ} {crop : PixelBox} {tileSize : Nat}
    (ht : 0 < tileSize) {px py : Int} (hcrop : crop.Mem px py)
    (himage : (PixelBox.ofImage source.cols source.rows).Mem px py) :
    let depth := maxLevelFor (max source.cols source.rows) tileSize
    source.render tileSize crop depth (.root (tileSize <<< depth : Nat)) ≠ none := by
  intro depth hnone
  have hcover : max source.cols source.rows ≤ tileSize <<< depth :=
    le_tileSize_shiftLeft_maxLevelFor _ ht
  have hroot : (Tile.root (tileSize <<< depth : Nat)).box.Mem px py := by
    simp only [PixelBox.ofImage, PixelBox.ofSize, PixelBox.Mem, Tile.root] at himage ⊢
    omega
  exact (source.render_eq_none_iff depth _).mp hnone ⟨px, py, hroot, hcrop⟩

private theorem cut_outcome_ne_emptyOutput {info : PyramidInfo} {format : Format α}
    {crop : PixelBox} {source : TileSource σ}
    (h : source.render info.tileSize crop info.maxLevel
      (.root (info.tileSize <<< info.maxLevel : Nat)) ≠ none) :
    (cut info format crop source).outcome ≠ .error .emptyOutput := by
  simp only [cut, Plan.within]
  cases hr : source.render info.tileSize crop info.maxLevel
      (.root (info.tileSize <<< info.maxLevel : Nat)) with
  | none => exact absurd hr h
  | some rendered =>
    simp only [Plan.outcome_bind]
    refine bind_ne_error (by simp) fun _ _ => ?_
    refine bind_ne_error (mapError_configuration_ne_emptyOutput _) fun files _ => ?_
    intro hend
    cases hend

/-- A generator that keeps a pixel of the image does not end without a tile. -/
theorem plan_outcome_ne_emptyOutput {g : Generator α} {source : TileSource σ}
    (hpos : ∀ tileSize, g.tileSize = some tileSize → 0 < tileSize)
    (hwindow : (g.window source).isEmpty = false) :
    (g.plan source).outcome ≠ .error .emptyOutput := by
  rw [plan]
  split
  · simp
  · split
    · next tileSize fileType format ht _ _ =>
      have himage := isEmpty_ofImage_of_window hwindow
      obtain ⟨hw, hh⟩ := PixelBox.isEmpty_eq_false_iff.mp hwindow
      have hcorner : (g.window source).Mem (g.window source).minX (g.window source).minY :=
        ⟨le_rfl, hw, le_rfl, hh⟩
      have hkept : ¬ ((PixelBox.ofImage source.cols source.rows).isEmpty ||
          (g.window source).isEmpty) = true := by
        rw [himage, hwindow]
        decide
      refine ne_of_eq_of_ne (congrArg Plan.outcome (if_neg hkept)) ?_
      exact cut_outcome_ne_emptyOutput
        (render_root_ne_none (hpos tileSize ht) hcorner (mem_window.mp hcorner).2)
    · simp

end Generator
end TilePyramid
