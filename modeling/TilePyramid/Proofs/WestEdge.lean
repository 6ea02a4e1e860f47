import TilePyramid.Proofs.Turns

/-!
# Images across the first column

On a canvas of one turn, an image that ends past the last column and an image that starts before
the first one cross the date line alike; which of the two it is depends on the turn that its
longitudes are counted in. Only the first is put on the canvas a second time. The second is put
there at its own place alone, and the columns that it has before the first one are lost, unless it
reaches to the end of the turn by itself.
-/
namespace TilePyramid

variable {α σ : Type}

theorem wrappedLayers_of_start_before {p : Placement α σ} {turn : Int} (hstart : p.box.minX < 0)
    (hend : 0 < p.box.maxX) (hright : p.box.maxX ≤ turn) :
    wrappedLayers turn p = [⟨p, p.box.minX, p.box.minY⟩] := by
  have hpast : ¬ turn < p.box.maxX := by omega
  have hbefore : p.box.minX < turn := by omega
  rw [wrappedLayers, Composite.wrappedColumns, if_neg hpast, if_pos hbefore]
  rfl

theorem PixelBox.forall_hasColumn_of_previous_iff {b : PixelBox} {turn : Int}
    (hstart : b.minX < 0) (hend : 0 < b.maxX) (hright : b.maxX ≤ turn) :
    (∀ x, 0 ≤ x → x < turn → b.HasColumn x ∨ b.HasColumn (x - turn) → b.HasColumn x) ↔
      b.maxX = turn := by
  constructor
  · intro hcovers
    -- The column before the first one comes around to the last column of the turn.
    have hlast : b.HasColumn (turn - 1 - turn) := by
      simp only [HasColumn]
      omega
    have hown := (hcovers (turn - 1) (by omega) (by omega) (.inr hlast)).2
    omega
  · intro hfull x hx hlt _
    simp only [HasColumn]
    omega

/-- What an image that starts before the first column covers of a canvas of one turn. It has one
layer, at its own place. The columns that it has before the canvas belong to the end of the turn,
and they are lost from there on where the image ends; nothing is lost only if it ends with the
turn. The same image one turn further right loses no column. -/
theorem insertWrapped_columns_before (c : Composite α σ) {p : Placement α σ} {turn : Int}
    (hstart : p.box.minX < 0) (hend : 0 < p.box.maxX) (hright : p.box.maxX ≤ turn) :
    ∃ ls, (c.insertWrapped p turn turn).layers = c.layers ++ ls ∧
      ls = [⟨p, p.box.minX, p.box.minY⟩] ∧
      (∀ x, 0 ≤ x → x < turn →
        ((p.box.HasColumn x ∨ p.box.HasColumn (x - turn)) ∧ ¬ CoversColumn ls x ↔
          max (p.box.minX + turn) p.box.maxX ≤ x)) ∧
      ((∀ x, 0 ≤ x → x < turn →
          p.box.HasColumn x ∨ p.box.HasColumn (x - turn) → CoversColumn ls x) ↔
        p.box.maxX = turn) ∧
      ∀ q : Placement α σ, q.box = p.box.translate turn 0 →
        ∃ ls', (c.insertWrapped q turn turn).layers = c.layers ++ ls' ∧
          ∀ x, 0 ≤ x → x < turn →
            (CoversColumn ls' x ↔ p.box.HasColumn x ∨ p.box.HasColumn (x - turn)) := by
  have hcovers {x : Int} (hx : 0 ≤ x) (hlt : x < turn) :
      CoversColumn (wrappedLayers turn p) x ↔ p.box.HasColumn x := by
    have hnone : ¬ p.box.HasColumn (x + turn) := by
      simp only [PixelBox.HasColumn]
      omega
    exact (coversColumn_wrappedColumns p turn hx hlt).trans (or_iff_left hnone)
  refine ⟨wrappedLayers turn p, c.layers_insertWrapped p turn turn,
    wrappedLayers_of_start_before hstart hend hright, ?_, ?_, ?_⟩
  · intro x hx hlt
    rw [hcovers hx hlt]
    simp only [PixelBox.HasColumn]
    omega
  · rw [← PixelBox.forall_hasColumn_of_previous_iff hstart hend hright]
    exact forall_congr' fun x => forall₂_congr fun hx hlt => imp_congr_right fun _ => hcovers hx hlt
  · intro q hq
    refine ⟨wrappedLayers turn q, c.layers_insertWrapped q turn turn, fun x hx hlt => ?_⟩
    refine (coversColumn_wrappedColumns q turn hx hlt).trans ?_
    simp only [hq, PixelBox.translate, PixelBox.HasColumn]
    omega

/-- An image of two columns, the first of them before the canvas. -/
def acrossFirstColumn : Placement Rat Float32 := .still (.blank 2 1 1 .u8) ⟨-1, 0, 1, 1⟩

theorem insertWrapped_columns_before_two :
    acrossFirstColumn.box.minX < 0 ∧ 0 < acrossFirstColumn.box.maxX ∧
      acrossFirstColumn.box.maxX ≤ 4 ∧
      ∃ ls, ((Composite.empty true).insertWrapped acrossFirstColumn 4 4).layers = ls ∧
        ls.length = 1 ∧ acrossFirstColumn.box.HasColumn (3 - 4) ∧ ¬ CoversColumn ls 3 := by
  have hstart : acrossFirstColumn.box.minX < 0 := by decide
  have hend : 0 < acrossFirstColumn.box.maxX := by decide
  have hright : acrossFirstColumn.box.maxX ≤ 4 := by decide
  obtain ⟨ls, hls, hone, hlost, -⟩ :=
    insertWrapped_columns_before (.empty true) hstart hend hright
  refine ⟨hstart, hend, hright, ls, hls, by rw [hone]; rfl, by decide, ?_⟩
  exact ((hlost 3 (by decide) (by decide)).mpr (by decide)).2

/-- The column before the first one is lost, where it would come around to be the last one. -/
theorem insertWrapped_lost_before :
    -4 ≤ acrossFirstColumn.box.minX ∧ acrossFirstColumn.box.minX < 0 ∧
      0 < acrossFirstColumn.box.maxX ∧ acrossFirstColumn.box.maxX ≤ 4 ∧
      ¬ ∀ x, 0 ≤ x → x < 4 →
        acrossFirstColumn.box.HasColumn x ∨ acrossFirstColumn.box.HasColumn (x - 4) →
          CoversColumn ((Composite.empty true).insertWrapped acrossFirstColumn 4 4).layers x := by
  refine ⟨by decide, by decide, by decide, by decide, fun h => ?_⟩
  obtain ⟨l, hl, hcovers⟩ := h 3 (by decide) (by decide) (.inr (by decide))
  obtain rfl : l = ⟨acrossFirstColumn, -1, 0⟩ := List.mem_singleton.mp hl
  exact absurd hcovers (by decide)

end TilePyramid
