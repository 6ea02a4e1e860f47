import TilePyramid.Proofs.LevelImages

/-!
# What holds of every pixel

A property that clear pixels have is handed on from an image to whatever is made of it: to its
regions, to a canvas that it is set into, and, if means of four pixels keep the property, to its
half. So it is handed on to all tiles of a pyramid. The property may depend on how far above the
deepest level a tile lies.
-/
namespace TilePyramid

namespace Raster
variable {σ : Type} {P : Pixel σ → Prop}

theorem forall_mem_tabulate {width height bands : Nat} {channel : Channel}
    {f : Nat → Nat → Pixel σ} (h : ∀ x < width, ∀ y < height, P (f x y)) :
    ∀ p ∈ (tabulate width height bands channel f).pixels, P p := by
  intro p hp
  obtain ⟨i, hi, rfl⟩ := Array.mem_iff_getElem.mp hp
  have hlt : i < width * height := by rwa [size_tabulate] at hi
  have hw : 0 < width := Nat.pos_of_mul_pos_right (Nat.zero_lt_of_lt hlt)
  simp only [tabulate, Array.getElem_ofFn]
  exact h _ (Nat.mod_lt _ hw) _ (Nat.div_lt_of_lt_mul hlt)

theorem forall_mem_modify {r : Raster σ} {f : Pixel σ → Pixel σ} (x y : Nat)
    (h : ∀ p ∈ r.pixels, P p) (hf : ∀ p ∈ r.pixels, P (f p)) :
    ∀ p ∈ (r.modify x y f).pixels, P p := by
  intro p hp
  obtain ⟨i, hi, rfl⟩ := Array.mem_iff_getElem.mp hp
  simp only [modify, Array.getElem_modify]
  split
  · exact hf _ (Array.getElem_mem _)
  · exact h _ (Array.getElem_mem _)

variable [Arith σ]

theorem forall_pixel {r : Raster σ} (hclear : P (.clear r.bands)) (h : ∀ p ∈ r.pixels, P p)
    (x y : Nat) : P (r.pixel x y) := by
  rw [pixel, pixel?]
  cases hp : r.pixels[y * r.width + x]? with
  | none => exact hclear
  | some p => exact h p (Array.mem_of_getElem? hp)

theorem forall_mem_region {r : Raster σ} (hclear : P (.clear r.bands)) (h : ∀ p ∈ r.pixels, P p)
    (b : PixelBox) : ∀ p ∈ (r.region b).pixels, P p := by
  refine forall_mem_tabulate fun x _ y _ => ?_
  dsimp only
  split
  · exact forall_pixel hclear h _ _
  · exact hclear

theorem forall_mem_blit {r tile : Raster σ} (hclear : P (.clear tile.bands))
    (h : ∀ p ∈ r.pixels, P p) (htile : ∀ p ∈ tile.pixels, P p) (x y : Nat) :
    ∀ p ∈ (r.blit tile x y).pixels, P p := by
  have row (dy : Nat) (r : Raster σ) (h : ∀ p ∈ r.pixels, P p) :
      ∀ p ∈ ((List.range tile.width).foldl (fun r dx =>
        r.modify (x + dx) (y + dy) fun _ => tile.pixel dx dy) r).pixels, P p :=
    List.foldlRecOn (motive := fun r : Raster σ => ∀ p ∈ r.pixels, P p) _ _ h
      fun r h dx _ => forall_mem_modify _ _ h fun _ _ => forall_pixel hclear htile dx dy
  exact List.foldlRecOn (motive := fun r : Raster σ => ∀ p ∈ r.pixels, P p) _ _ h
    fun r h dy _ => row dy r h

theorem forall_mem_downsample {Q : Pixel σ → Prop} {r : Raster σ} (hclear : P (.clear r.bands))
    (h : ∀ p ∈ r.pixels, P p)
    (hmean : ∀ ps : List (Pixel σ), ps.length = 4 → (∀ p ∈ ps, P p) →
      Q (meanPixel r.channel r.bands ps)) :
    ∀ p ∈ r.downsample.pixels, Q p := by
  refine forall_mem_tabulate fun x _ y _ => hmean _ rfl ?_
  simp only [List.forall_mem_cons, List.not_mem_nil, false_imp_iff, implies_true, and_true]
  exact ⟨forall_pixel hclear h _ _, forall_pixel hclear h _ _, forall_pixel hclear h _ _,
    forall_pixel hclear h _ _⟩

end Raster

theorem Composite.forall_mem_region {α σ : Type} [Cartography α] [Arith σ] [Narrow α σ]
    {P : Pixel σ → Prop} {c : Composite α σ} {b : PixelBox}
    (h : ∀ x y, (c.canvasBox b).Mem x y → P (c.look x y)) : ∀ p ∈ (c.region b).pixels, P p := by
  rw [Raster.eq_tabulate (c.size_region b)]
  apply Raster.forall_mem_tabulate
  intro i hi j hj
  change i < b.width.toNat at hi
  change j < b.height.toNat at hj
  rw [c.pixel_region_eq_look b hi hj]
  apply h
  simp only [canvasBox, PixelBox.translate, PixelBox.Mem, PixelBox.width, PixelBox.height]
    at hi hj ⊢
  omega

namespace TileSource

variable {σ : Type} [Arith σ]

/-- Every region has the bands and the channel of the image. -/
structure IsUniform (source : TileSource σ) : Prop where
  bands (b : PixelBox) : (source.region b).bands = source.bands
  channel (b : PixelBox) : (source.region b).channel = source.channel

/-- A property of the pixels of an image that is handed on to its tiles, where it may depend on how
many levels a tile lies above the deepest one. -/
structure HandsOn (source : TileSource σ) (holds : Nat → Pixel σ → Prop) : Prop where
  clear (levels : Nat) : holds levels (.clear source.bands)
  region (b : PixelBox) : ∀ p ∈ (source.region b).pixels, holds 0 p
  mean (levels : Nat) (ps : List (Pixel σ)) (hfour : ps.length = 4)
    (h : ∀ p ∈ ps, holds levels p) :
    holds (levels + 1) (Raster.meanPixel source.channel source.bands ps)

theorem isUniform_composite {α : Type} [Cartography α] [Narrow α σ] (c : Composite α σ) :
    c.tileSource.IsUniform := ⟨fun _ => rfl, fun _ => rfl⟩

variable {source : TileSource σ} {tileSize : Nat} {crop : PixelBox} {levels : Nat} {tile : Tile}
  {t : Tree (RenderedTile σ)}

theorem IsUniform.render (hu : source.IsUniform)
    (h : source.render tileSize crop levels tile = some t) :
    t.value.raster.bands = source.bands ∧ t.value.raster.channel = source.channel := by
  cases levels with
  | zero =>
    rw [source.raster_render_zero h]
    exact ⟨hu.bands _, hu.channel _⟩
  | succ levels =>
    rw [source.raster_render_succ h]
    exact (source.renderedQuadrants_shape tileSize crop levels tile).2

variable {holds : Nat → Pixel σ → Prop}

private theorem forall_mem_assemble {P : Pixel σ → Prop} (hclear : P (.clear source.bands))
    {quadrants : List (Fin 4 × Option (Tree (RenderedTile σ)))}
    (h : ∀ q t, (q, some t) ∈ quadrants →
      t.value.raster.bands = source.bands ∧ ∀ p ∈ t.value.raster.pixels, P p) :
    ∀ p ∈ (source.assemble tileSize quadrants).pixels, P p := by
  refine List.foldlRecOn (motive := fun canvas : Raster σ => ∀ p ∈ canvas.pixels, P p) _ _
    (Raster.forall_mem_tabulate fun _ _ _ _ => hclear) fun canvas hcanvas i hi => ?_
  obtain ⟨q, _ | t⟩ := i
  · exact hcanvas
  · obtain ⟨hbands, hpixels⟩ := h q t hi
    exact Raster.forall_mem_blit (hbands ▸ hclear) hcanvas hpixels _ _

theorem HandsOn.renderedQuadrants (hs : source.HandsOn holds) (hu : source.IsUniform)
    (hbelow : ∀ tile t, source.render tileSize crop levels tile = some t →
      ∀ p ∈ t.value.raster.pixels, holds levels p) :
    ∀ p ∈ (source.renderedQuadrants tileSize crop levels tile).pixels, holds levels p := by
  refine forall_mem_assemble (hs.clear levels) fun q t hq => ?_
  obtain ⟨q, -, hrender⟩ := List.mem_map.mp hq
  have hrender := (Prod.mk.inj hrender).2
  exact ⟨(hu.render hrender).1, hbelow _ t hrender⟩

/-- The property holds of the pixels of every rendered tile. -/
theorem HandsOn.render (hs : source.HandsOn holds) (hu : source.IsUniform)
    (h : source.render tileSize crop levels tile = some t) :
    ∀ p ∈ t.value.raster.pixels, holds levels p := by
  induction levels generalizing tile t with
  | zero =>
    rw [source.raster_render_zero h]
    exact hs.region _
  | succ levels ih =>
    obtain ⟨-, hbands, hchannel⟩ :=
      source.renderedQuadrants_shape tileSize crop levels tile
    rw [source.raster_render_succ h]
    refine Raster.forall_mem_downsample (hbands ▸ hs.clear levels)
      (hs.renderedQuadrants hu fun _ _ => ih) fun ps hfour hps => ?_
    rw [hbands, hchannel]
    exact hs.mean levels ps hfour hps

end TileSource

/-- The tiles that a generation writes, when it ends well, are those of the returned tree, and the
property holds of their pixels. -/
theorem Generator.exists_tiles_of_generate {S α σ : Type} [Arith α] [NumberText α] [Arith σ]
    {g : Generator α} {source : TileSource σ} {holds : Nat → Pixel σ → Prop}
    (hs : source.HandsOn holds) (hu : source.IsUniform) {w : TileWriter (StateM S) σ}
    {report : α → StateM S Unit} {s : S} {root : TileTree} {tileSize : Nat}
    (ht : g.tileSize = some tileSize)
    (h : ((g.generate source w report).run s).1.1 = .ok root) :
    ∃ tiles : List (RenderedTile σ),
      (∃ fileType format, g.fileType = some fileType ∧ g.format = some format ∧
        (g.plan source).tiles = tiles.map fun t =>
          ((g.infoOf source tileSize fileType).tilePath format.mode t.tile, t.raster)) ∧
      tiles.map RenderedTile.tile = root.postorder.map Tree.value ∧
      ∀ t ∈ tiles, ∃ levels,
        t.tile.level + levels = maxLevelFor (max source.cols source.rows) tileSize ∧
        ∀ p ∈ t.raster.pixels, holds levels p := by
  obtain ⟨rendered, fileType, format, hfileType, hformat, hr, rfl, htiles⟩ :=
    exists_render_of_generate ht h
  refine ⟨rendered.postorder.map Tree.value, ⟨fileType, format, hfileType, hformat, ?_⟩, ?_, ?_⟩
  · rw [htiles, List.map_map]
    rfl
  · rw [Tree.postorder_map, List.map_map, List.map_map]
    exact List.map_congr_left fun n _ => (Tree.value_map _ n).symm
  · intro t ht
    obtain ⟨n, hn, rfl⟩ := List.mem_map.mp ht
    have hn := rendered.postorder_perm_preorder.mem_iff.mp hn
    obtain ⟨level, levels, x, y, hl, -, hrender, -⟩ :=
      source.mem_preorder_render (Nat.zero_add _) hr hn
    rw [source.render_tile hrender]
    exact ⟨levels, hl, hs.render hu hrender⟩

end TilePyramid
