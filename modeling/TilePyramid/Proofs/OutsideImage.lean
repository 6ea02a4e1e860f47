import TilePyramid.Proofs.Blending
import TilePyramid.Proofs.CanvasRun
import TilePyramid.Proofs.LevelImages

/-!
# Outside of an image

The tiles at the right and at the bottom of a pyramid reach past the image. A raster is clear there.
A composite with a view is not cut to it: what its layers show next to the view is in the tiles too,
so that a composite is clear outside of its image only if its layers end with the view. Regions and
views have sides of 32 bits.
-/
namespace TilePyramid

namespace TileSource

section
variable {σ : Type} [Arith σ] {source : TileSource σ}

/-- Every pixel of a region that lies outside of the image is clear, if the sides of the region have
32 bits. -/
def ClearOutside (source : TileSource σ) : Prop :=
  ∀ b : PixelBox, b.HasWordSides → ∀ i j : Nat, i < b.width.toNat → j < b.height.toNat →
    ¬ (PixelBox.ofImage source.cols source.rows).Mem (b.minX + i) (b.minY + j) →
      (source.region b).pixel i j = .clear source.bands

theorem Pointwise.clearOutside_iff {look : Int → Int → Pixel σ} (hs : source.Pointwise look) :
    source.ClearOutside ↔
      ∀ x y, ¬ (PixelBox.ofImage source.cols source.rows).Mem x y →
        look x y = .clear source.bands := by
  constructor
  · intro h x y hout
    -- A region of one pixel shows the look at its place.
    have hi : 0 < (PixelBox.ofSize x y 1 1).width.toNat := by
      simp [PixelBox.ofSize, PixelBox.width]
    have hj : 0 < (PixelBox.ofSize x y 1 1).height.toNat := by
      simp [PixelBox.ofSize, PixelBox.height]
    have hsides : (PixelBox.ofSize x y 1 1).HasWordSides := by
      simp [PixelBox.HasWordSides, PixelBox.ofSize, PixelBox.width, PixelBox.height]
    have hpixel := hs.pixel (PixelBox.ofSize x y 1 1) hi hj
    have hclear := h (PixelBox.ofSize x y 1 1) hsides 0 0 hi hj
    simp only [PixelBox.ofSize, Nat.cast_zero, add_zero] at hpixel hclear
    exact hpixel.symm.trans (hclear hout)
  · intro h b _ i j hi hj hout
    rw [hs.pixel b hi hj]
    exact h _ _ hout

theorem clearOutside_raster (r : Raster σ) : r.tileSource.ClearOutside := by
  apply (pointwise_raster r).clearOutside_iff.mpr
  intro x y hout
  exact if_neg hout

theorem ClearOutside.leaf (hs : source.ClearOutside) {tileSize maxLevel : Nat}
    (hside : tileSize < 2 ^ 32) {crop : PixelBox} {t n : Tree (RenderedTile σ)}
    (h : source.render tileSize crop maxLevel (.ofCell tileSize maxLevel 0 0 0) = some t)
    (hn : n ∈ t.preorder) (hleaf : n.value.tile.level = maxLevel) {i j : Nat} (hi : i < tileSize)
    (hj : j < tileSize)
    (hout : ¬ (PixelBox.ofImage source.cols source.rows).Mem (n.value.tile.box.minX + i)
      (n.value.tile.box.minY + j)) :
    n.value.raster.pixel i j = .clear source.bands := by
  obtain ⟨level, left, x, y, hlevel, -, hr, -⟩ :=
    source.mem_preorder_render (Nat.zero_add maxLevel) h hn
  have htile := source.render_tile hr
  rw [htile] at hleaf
  obtain rfl : left = 0 := by
    simp only [Tile.ofCell] at hleaf
    omega
  rw [source.raster_render_zero hr, ← htile]
  have hbox : n.value.tile.box = .square tileSize x y := by
    rw [htile]
    simp only [Tile.ofCell] at hleaf ⊢
    rw [hleaf, Nat.sub_self, Nat.pow_zero, Nat.mul_one]
  obtain ⟨hsides, hwidth, hheight⟩ := PixelBox.sides_square hside x y
  rw [← hbox] at hsides hwidth hheight
  exact hs _ hsides i j (hwidth ▸ hi) (hheight ▸ hj) hout

end

end TileSource

namespace Composite

variable {α : Type} [Cartography α] [Narrow α Float32] {c view : Composite α Float32}
  {box : PixelBox}

theorem look_of_shownAt_eq_nil {x y : Int} (h : c.shownAt x y = []) :
    c.look x y = .clear c.bands := by
  rw [look, h]
  split
  · rfl
  · exact pixel_foldl_add c.bands (List.forall_mem_nil _)

theorem shownAt_eq_nil_of_draft (hdraft : c.draft = true) {x y : Int}
    (h : c.look x y = .clear c.bands) : c.shownAt x y = [] := by
  rw [look, if_pos hdraft] at h
  cases hlast : (c.shownAt x y).getLast? with
  | none => exact List.getLast?_eq_none_iff.mp hlast
  | some p =>
    rw [hlast, Option.getD_some] at h
    obtain ⟨l, -, hl⟩ := List.mem_filterMap.mp (List.mem_of_getLast? hlast)
    have halpha := not_alpha_le_zero_of_shown hl
    rw [h] at halpha
    exact absurd ClearSum.zero_le_zero halpha

/-- Once a view is set, the image of a composite is what it shows inside the view. -/
theorem clearOutside_prepare_iff (h : c.prepare box = .ok view) :
    view.tileSource.ClearOutside ↔ ∀ x y, ¬ box.Mem x y → c.look x y = .clear c.bands := by
  obtain ⟨hbox, rfl⟩ := prepare_eq_ok h
  obtain ⟨hw, hh⟩ := PixelBox.isEmpty_eq_false_iff.mp hbox
  have hmem (x y : Int) :
      (PixelBox.ofImage box.width.toNat box.height.toNat).Mem x y ↔
        box.Mem (x + box.minX) (y + box.minY) := by
    simp only [PixelBox.ofImage, PixelBox.ofSize, PixelBox.Mem, PixelBox.width, PixelBox.height]
    omega
  rw [(TileSource.pointwise_composite _).clearOutside_iff]
  constructor
  · intro hclear x y hout
    have hplace := hclear (x - box.minX) (y - box.minY) (by
      change ¬ (PixelBox.ofImage box.width.toNat box.height.toNat).Mem _ _
      rwa [hmem, Int.sub_add_cancel, Int.sub_add_cancel])
    change c.look (x - box.minX + box.minX) (y - box.minY + box.minY) = _ at hplace
    rwa [Int.sub_add_cancel, Int.sub_add_cancel] at hplace
  · intro hclear x y hout
    exact hclear _ _ (mt (hmem x y).mpr hout)

theorem shownAt_eq_nil_of_inside (hin : ∀ l ∈ c.layers, box.contains l.box = true) {x y : Int}
    (hout : ¬ box.Mem x y) : c.shownAt x y = [] := by
  apply List.filterMap_eq_nil_iff.mpr
  intro l hl
  apply if_neg
  rintro ⟨hmem, -⟩
  obtain ⟨hx, hy, hright, hbottom⟩ := PixelBox.contains_iff.mp (hin l hl)
  simp only [PixelBox.Mem] at hmem hout
  omega

end Composite

/-- Where images that are cut into tiles are clear outside of their bounds, so that tiles that
reach past them are. Regions are what is read, as long as no layer has too many bands. All rasters
are clear outside. A composite with a view is when its layers lie in the view; in draft mode it is
only if no layer shows anything next to the view. -/
theorem TileSource.clearOutside_images {α : Type} [Cartography α] [Narrow α Float32] :
    (∀ r : Raster Float32, r.tileSource.ClearOutside ∧
      ∀ b : PixelBox, b.HasRaster r.bands → r.read? b = some (r.tileSource.region b)) ∧
      (∀ (c view : Composite α Float32) (box : PixelBox), c.prepare box = .ok view →
        box.HasWordSides → (∀ l ∈ c.layers, l.box.IsIndexed) →
        (∀ b : PixelBox, view.IsCounted b → view.isReadable b = true →
          view.read? b = some (view.tileSource.region b)) ∧
        ((∀ l ∈ c.layers, box.contains l.box = true) → view.tileSource.ClearOutside) ∧
        ((∀ x y, ¬ box.Mem x y → c.shownAt x y = []) → view.tileSource.ClearOutside) ∧
        (c.draft = true → view.tileSource.ClearOutside →
          ∀ x y, ¬ box.Mem x y → c.shownAt x y = [])) ∧
      ∀ source : TileSource Float32, source.ClearOutside →
        ∀ (tileSize maxLevel : Nat) (crop : PixelBox) (t : Tree (RenderedTile Float32)),
          tileSize < 2 ^ 32 →
          source.render tileSize crop maxLevel (.ofCell tileSize maxLevel 0 0 0) = some t →
            ∀ n ∈ t.preorder, n.value.tile.level = maxLevel →
              ∀ i j : Nat, i < tileSize → j < tileSize →
                ¬ (PixelBox.ofImage source.cols source.rows).Mem (n.value.tile.box.minX + i)
                    (n.value.tile.box.minY + j) →
                  n.value.raster.pixel i j = .clear source.bands := by
  refine ⟨fun r => ⟨clearOutside_raster r, fun b hb => r.read?_eq_some hb⟩,
    fun c view box hview _ hlayers => ⟨fun b hb hread => ?_, ?_, ?_, ?_⟩, ?_⟩
  · have hlayers' : ∀ l ∈ view.layers, l.box.IsIndexed := by
      obtain ⟨-, rfl⟩ := Composite.prepare_eq_ok hview
      exact hlayers
    exact Composite.read?_eq_some hlayers' hb hread
  · intro hin
    apply (Composite.clearOutside_prepare_iff hview).mpr
    intro x y hout
    exact Composite.look_of_shownAt_eq_nil (Composite.shownAt_eq_nil_of_inside hin hout)
  · intro hnone
    apply (Composite.clearOutside_prepare_iff hview).mpr
    intro x y hout
    exact Composite.look_of_shownAt_eq_nil (hnone x y hout)
  · intro hdraft hclear x y hout
    have hlook := (Composite.clearOutside_prepare_iff hview).mp hclear x y hout
    exact Composite.shownAt_eq_nil_of_draft hdraft hlook
  · intro source hclear tileSize maxLevel crop t hside ht n hn hleaf i j hi hj hout
    exact hclear.leaf hside ht hn hleaf hi hj hout

/-- Two pixels side by side, with a view of the first one. -/
def pairOfPixels : Composite Rat Float32 :=
  (Composite.empty true).insert
    (.still
      { width := 2
        height := 1
        bands := 1
        channel := .u8
        pixels := #[⟨[ofInt 7], ofInt 255⟩, ⟨[ofInt 9], ofInt 255⟩] }
      (.ofImage 2 1)) 0 0

/-- A view of both pixels ends with the layer. -/
theorem TileSource.clearOutside_pair :
    ∃ view, pairOfPixels.prepare (.ofImage 2 1) = .ok view ∧
      (∀ l ∈ pairOfPixels.layers, (PixelBox.ofImage 2 1).contains l.box = true) ∧
        view.tileSource.ClearOutside := by
  have hin : ∀ l ∈ pairOfPixels.layers, (PixelBox.ofImage 2 1).contains l.box = true := by decide
  refine ⟨_, rfl, hin, ?_⟩
  obtain ⟨-, hprepared, -⟩ := clearOutside_images (α := Rat)
  exact (hprepared pairOfPixels _ (.ofImage 2 1) rfl (by decide) (by decide)).2.1 hin

/-- A view of the first pixel shows the second one next to it. -/
theorem TileSource.not_clearOutside_pair :
    ∃ view, pairOfPixels.prepare (.ofImage 1 1) = .ok view ∧
      (view.tileSource.cols, view.tileSource.rows) = (1, 1) ∧ ¬ view.tileSource.ClearOutside := by
  refine ⟨_, rfl, rfl, fun hclear => ?_⟩
  have hpixel := hclear (.ofImage 2 1) (by decide) 1 0 (by decide) (by decide) (by decide)
  revert hpixel
  decide +kernel

end TilePyramid
