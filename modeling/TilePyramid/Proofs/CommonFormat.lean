import TilePyramid.Proofs.FinishedRuns
import TilePyramid.Proofs.RasterShapes

/-!
# The common format of a run

A composite takes its bands and its channel from its lowest layer, and reads every other layer by
them. Runs make this safe before: all images are carried over to one channel, and one source with
three bands makes all images have three. So the layers of a run have the format of its composite,
and nothing that is read or written while tiles are cut misses its place.
-/
namespace TilePyramid

theorem EdgeMode.place?_lt {e : EdgeMode} {width height : Nat} (hw : 0 < width) (hh : 0 < height)
    {x y : Int} {px py : Nat} (h : e.place? width height x y = some (px, py)) :
    px < width ∧ py < height := by
  have hclamp (size : Nat) (hsize : 0 < size) (i : Int) : (clampIndex size i).toNat < size := by
    simp only [clampIndex]
    omega
  cases e with
  | zero =>
    simp only [place?] at h
    split at h
    · obtain ⟨rfl, rfl⟩ := Prod.mk.inj (Option.some.inj h)
      omega
    · cases h
  | constant =>
    obtain ⟨rfl, rfl⟩ := Prod.mk.inj (Option.some.inj h)
    exact ⟨hclamp width hw x, hclamp height hh y⟩
  | cylindrical =>
    obtain ⟨rfl, rfl⟩ := Prod.mk.inj (Option.some.inj h)
    have hcolumn := Int.emod_lt_of_pos x (Int.natCast_pos.mpr hw)
    refine ⟨?_, hclamp height hh y⟩
    change (x % width).toNat < width
    omega

/-- There is a pixel at `(x, y)`, with so many values. -/
def Raster.HasPixel {σ : Type} (r : Raster σ) (bands x y : Nat) : Prop :=
  x < r.width ∧ y < r.height ∧ ∃ p, r.pixel? x y = some p ∧ p.colour.length = bands

theorem Raster.HasShape.hasPixel {σ : Type} {r : Raster σ} {width height bands : Nat}
    {channel : Channel} (h : r.HasShape width height bands channel) {x y : Nat} (hx : x < width)
    (hy : y < height) : r.HasPixel bands x y := by
  obtain ⟨⟨rfl, rfl⟩, rfl, rfl, hr⟩ := h
  exact ⟨hx, hy, hr.exists_pixel? hx hy⟩

namespace TileSource

variable {σ : Type} [Arith σ] {source : TileSource σ} {tileSize maxLevel : Nat} {crop : PixelBox}

/-- Every region has the size of its box, and the format of the image. -/
def IsShaped (source : TileSource σ) : Prop :=
  ∀ b, (source.region b).HasShape b.width.toNat b.height.toNat source.bands source.channel

omit [Arith σ] in
theorem IsShaped.isUniform (h : source.IsShaped) : source.IsUniform :=
  ⟨fun b => (h b).bands, fun b => (h b).channel⟩

theorem IsShaped.handsOn (h : source.IsShaped) :
    source.HandsOn fun _ p => p.colour.length = source.bands where
  clear _ := List.length_replicate
  region b p hp := ((h b).wellFormed.2 p hp).trans (h b).bands
  mean _ _ _ hps := Raster.length_meanPixel hps source.channel

omit [Arith σ] in
private theorem hasShape_of_isSquare {r : Raster σ} {side : Nat} (hsquare : r.IsSquare side)
    (hbands : r.bands = source.bands) (hchannel : r.channel = source.channel)
    (h : ∀ p ∈ r.pixels, p.colour.length = source.bands) :
    r.HasShape side side source.bands source.channel := by
  refine ⟨⟨hbands, hchannel⟩, hsquare.width, hsquare.height, ?_, ?_⟩
  · rw [hsquare.size, hsquare.width, hsquare.height]
  · rwa [hbands]

theorem IsShaped.renderedQuadrants (h : source.IsShaped) (tileSize : Nat) (crop : PixelBox)
    (levels : Nat) (tile : Tile) :
    (source.renderedQuadrants tileSize crop levels tile).HasShape (2 * tileSize) (2 * tileSize)
      source.bands source.channel := by
  obtain ⟨hsquare, hbands, hchannel⟩ := source.renderedQuadrants_shape tileSize crop levels tile
  apply hasShape_of_isSquare hsquare hbands hchannel
  apply h.handsOn.renderedQuadrants h.isUniform
  intro tile t ht
  exact h.handsOn.render h.isUniform ht

theorem IsShaped.render (h : source.IsShaped) {look : Int → Int → Pixel σ}
    (hlook : source.Pointwise look) {levels level x y : Nat} (hl : level + levels = maxLevel)
    {t : Tree (RenderedTile σ)}
    (ht : source.render tileSize crop levels (.ofCell tileSize maxLevel level x y) = some t) :
    t.value.raster.HasShape tileSize tileSize source.bands source.channel := by
  obtain ⟨hbands, hchannel⟩ := h.isUniform.render ht
  apply hasShape_of_isSquare (source.isSquare_render hlook hl ht) hbands hchannel
  exact h.handsOn.render h.isUniform ht

end TileSource

namespace Composite

variable {α σ : Type} [Cartography α] [Arith σ] [Narrow α σ]

/-- All that is read and written while tiles are cut from a composite is in its place: the pixels
of an image that a sample is taken from, the pixels of a region that layers are painted on, and
the pixels of the canvas that the quadrants of a tile are set into and halved from. No slice is
cut short, since all of them have a value for every band. -/
structure Fits (c : Composite α σ) : Prop where
  tap : ∀ l ∈ c.layers, l.placement.image.isEmpty = false → ∀ x y px py,
    l.placement.edge.place? l.placement.image.width l.placement.image.height x y =
        some (px, py) →
      l.placement.image.HasPixel c.bands px py
  sample : ∀ l ∈ c.layers, ∀ x y, (l.placement.sample x y).colour.length = c.bands
  readable : ∀ b, c.isReadable b = true
  painted : ∀ l ∈ c.layers, ∀ b x y, l.box.Mem x y → (c.canvasBox b).Mem x y →
    (c.region b).HasPixel c.bands (x - (c.canvasBox b).minX).toNat
      (y - (c.canvasBox b).minY).toNat
  region : ∀ b, (c.region b).HasShape b.width.toNat b.height.toNat c.bands c.channel
  quadrants : ∀ tileSize crop levels tile,
    let canvas := c.tileSource.renderedQuadrants tileSize crop levels tile
    canvas.HasShape (2 * tileSize) (2 * tileSize) c.bands c.channel ∧
      ∀ x < tileSize, ∀ y < tileSize,
        (∀ q : Fin 4,
          canvas.HasPixel c.bands (q.val % 2 * tileSize + x) (q.val / 2 * tileSize + y)) ∧
        ∀ dx < 2, ∀ dy < 2, canvas.HasPixel c.bands (2 * x + dx) (2 * y + dy)
  tile : ∀ tileSize crop maxLevel levels level x y, level + levels = maxLevel → ∀ t,
    c.tileSource.render tileSize crop levels (.ofCell tileSize maxLevel level x y) = some t →
      t.value.raster.HasShape tileSize tileSize c.bands c.channel

theorem isShaped_tileSource {c : Composite α σ} (hc : c.IsUniform)
    (hlayers : ∀ l ∈ c.layers, l.placement.image.WellFormed) : c.tileSource.IsShaped :=
  fun b => hasShape_region hlayers (hc.isReadable b)

theorem IsUniform.fits {c : Composite α σ} (hc : c.IsUniform)
    (hlayers : ∀ l ∈ c.layers, l.placement.image.WellFormed) : c.Fits where
  tap l hl hsize x y px py hplace := by
    have himage := (hlayers l hl).hasShape
    rw [(hc l hl).bands] at himage
    simp only [Raster.isEmpty, Bool.or_eq_false_iff, decide_eq_false_iff_not] at hsize
    obtain ⟨hx, hy⟩ := EdgeMode.place?_lt (Nat.pos_of_ne_zero hsize.1)
      (Nat.pos_of_ne_zero hsize.2) hplace
    exact himage.hasPixel hx hy
  sample l hl x y := by
    rw [Placement.length_sample (hlayers l hl), (hc l hl).bands]
  readable := hc.isReadable
  painted l hl b x y _ hxy := by
    apply (hasShape_region hlayers (hc.isReadable b)).hasPixel
    · simp only [canvasBox, PixelBox.translate, PixelBox.Mem, PixelBox.width] at hxy ⊢
      omega
    · simp only [canvasBox, PixelBox.translate, PixelBox.Mem, PixelBox.height] at hxy ⊢
      omega
  region b := hasShape_region hlayers (hc.isReadable b)
  quadrants tileSize crop levels tile := by
    have hcanvas := (isShaped_tileSource hc hlayers).renderedQuadrants tileSize crop levels tile
    refine ⟨hcanvas, fun x hx y hy => ⟨fun q => ?_, fun dx hdx dy hdy => ?_⟩⟩
    · have hcolumn : q.val % 2 ≤ 1 := by omega
      have hrow : q.val / 2 ≤ 1 := by omega
      have hleft := Nat.mul_le_mul_right tileSize hcolumn
      have htop := Nat.mul_le_mul_right tileSize hrow
      exact hcanvas.hasPixel (by omega) (by omega)
    · exact hcanvas.hasPixel (by omega) (by omega)
  tile tileSize crop maxLevel levels level x y hl t ht :=
    (isShaped_tileSource hc hlayers).render (TileSource.pointwise_composite c) hl ht

end Composite

section
variable {α σ : Type} [Cartography α] [Arith σ]

theorem Placement.image_place {input : PlacementInput α σ} {target : GeoReference α}
    {adjustments : Adjustments σ} {p : Placement α σ}
    (h : place input target adjustments = .ok p) :
    p.image = adjustments.apply input.source.raster ⟨input.channel, input.nodata⟩ := by
  rw [place] at h
  split at h
  · cases h
  · obtain ⟨edge, -, h⟩ := bind_eq_ok h
    obtain rfl := Except.ok.inj h
    rfl

/-- The image is grey or has three colours, and nothing of it is missing. -/
structure Source.IsSound {α σ : Type} (s : Source α σ) : Prop where
  bands : s.raster.bands = 1 ∨ s.raster.bands = 3
  wellFormed : s.raster.WellFormed

namespace Mosaic

/-- The bands that all images of a run have: three if a source has three. -/
def commonBands (sources : List (Source α σ)) : Nat :=
  if sources.any fun s => s.raster.bands = 3 then 3 else 1

theorem hasFormat_of_mem_placements {o : Options α σ} {sources : List (Source α σ)}
    (hsources : ∀ s ∈ sources, s.IsSound)
    {r : Resolution α} {range : Option (ValueRange σ)} {placed : List (Placement α σ)}
    (h : placements o sources r range = .ok placed) {p : Placement α σ} (hp : p ∈ placed) :
    p.image.WellFormed ∧ p.image.HasFormat (commonBands sources) (workChannel o sources) := by
  obtain ⟨input, hinput, hplace⟩ := exists_eq_ok_of_mem_mapM h hp
  obtain ⟨i, hi, rfl⟩ := List.mem_map.mp hinput
  have hsound := hsources i.1 (List.of_mem_zip hi).1
  have himage := hsound.wellFormed.hasShape.apply (adjustments o sources range)
    ⟨workChannel o sources, o.nodata.or i.1.nodata⟩
  have hcommon : (if (adjustments o sources range).bands = some 3 then 3 else i.1.raster.bands) =
      commonBands sources := by
    rw [adjustments, commonBands]
    split
    · rfl
    · next hthree =>
      -- No source has three bands, this one neither, so that it has one, and nothing is asked for.
      have hnone : (Adjustments.ofOptions o range).bands = none := rfl
      have hnot : i.1.raster.bands ≠ 3 := fun h => hthree <|
        List.any_eq_true.mpr ⟨i.1, (List.of_mem_zip hi).1, decide_eq_true h⟩
      rw [hnone, if_neg (by simp)]
      exact hsound.bands.resolve_right hnot
  rw [hcommon] at himage
  rw [Placement.image_place hplace]
  exact ⟨himage.wellFormed, himage.bands, himage.channel⟩

omit [Cartography α] [Arith σ] in
theorem placement_mem_of_mem_compose {o : Options α σ} {r : Resolution α}
    {placed : List (Placement α σ)} {l : Layer α σ} (h : l ∈ (compose o r placed).layers) :
    l.placement ∈ placed := by
  rw [compose_eq_ofLayers, Composite.layers_ofLayers] at h
  obtain ⟨p, hp, hl⟩ := List.mem_flatMap.mp h
  obtain ⟨x, -, rfl⟩ := List.mem_map.mp hl
  exact hp

omit [Cartography α] [Arith σ] in
theorem outputBox_of_layers_eq_nil (o : Options α σ) (r : Resolution α) {c : Composite α σ}
    (h : c.layers = []) : ∃ width height,
      outputBox o r c = .error (.emptyComposite width height) := by
  have hbox : c.box = .empty := by
    rw [Composite.box, h]
  rw [outputBox, hbox, PixelBox.align, PixelBox.cropToCanvas,
    if_pos (PixelBox.isEmpty_crop_empty _)]
  exact ⟨_, _, rfl⟩

variable [Narrow α σ]

/-- In every run of images with one or three bands, whatever their channels are and whatever the
options ask for, all placed images have the same bands, the same channel, and a value for every
band of every pixel. A composite with a layer has that format, and fits, whatever its view is. One
without a layer keeps the format that it starts with, and the run ends before anything is read. -/
theorem placements_fit {o : Options α σ} {sources : List (Source α σ)}
    (hsources : ∀ s ∈ sources, s.IsSound)
    {r : Resolution α} {range : Option (ValueRange σ)} {placed : List (Placement α σ)}
    (hplaced : placements o sources r range = .ok placed) :
    let c := compose o r placed
    (∀ p ∈ placed, p.image.WellFormed ∧
        p.image.HasFormat (commonBands sources) (workChannel o sources)) ∧
      (c.layers ≠ [] →
        (∀ p ∈ placed, p.image.HasFormat c.bands c.channel) ∧
          ∀ view : Option PixelBox, Composite.Fits { c with view := view }) ∧
      (c.layers = [] →
        c.bands = 3 ∧ c.channel = .u8 ∧
          (Resolution.resolve o sources = .ok r → ∃ width height,
            mosaicPlan o sources range = .fail (.emptyComposite width height))) := by
  intro c
  have hplaces (p : Placement α σ) (hp : p ∈ placed) :=
    hasFormat_of_mem_placements hsources hplaced hp
  have hlayers (l : Layer α σ) (hl : l ∈ c.layers) :=
    hplaces l.placement (placement_mem_of_mem_compose hl)
  have hself : c = .ofLayers (!o.multiband) c.layers := by
    simp only [c, compose_eq_ofLayers, Composite.layers_ofLayers]
  refine ⟨hplaces, ?_, ?_⟩
  · intro hne
    obtain ⟨hbands, hchannel⟩ :=
      Composite.format_ofLayers (!o.multiband) (fun l hl => (hlayers l hl).2) hne
    have huniform :=
      Composite.isUniform_ofLayers (!o.multiband) (fun l hl => (hlayers l hl).2)
    rw [← hself] at hbands hchannel huniform
    constructor
    · intro p hp
      rw [hbands, hchannel]
      exact (hplaces p hp).2
    · intro view
      exact Composite.IsUniform.fits (c := { c with view := view }) huniform
        fun l hl => (hlayers l hl).1
  · intro hnil
    have hstart : c = .empty (!o.multiband) := by
      rw [hself, hnil]
      rfl
    refine ⟨by rw [hstart]; rfl, by rw [hstart]; rfl, fun hr => ?_⟩
    obtain ⟨width, height, hbox⟩ := outputBox_of_layers_eq_nil o r hnil
    refine ⟨width, height, ?_⟩
    rw [mosaicPlan, hr, Plan.ofExcept_ok_bind, hplaced, Plan.ofExcept_ok_bind]
    change (Plan.ofExcept (outputBox o r c) >>= _) = _
    rw [hbox]
    rfl

omit [Narrow α σ] in
theorem exists_placed {β : Type} (o : Options α σ) (sources : List (Source α σ))
    (range : Option (ValueRange σ))
    (f : Options α σ → Resolution α → List (Placement α σ) → β) (b : β)
    (h : ((checkedOptions o sources).toOption.bind fun checked =>
      (Resolution.resolve checked sources).toOption.bind fun r =>
        (placements checked sources r range).toOption.map (f checked r)) = some b) :
    ∃ checked r placed, checkedOptions o sources = .ok checked ∧
      Resolution.resolve checked sources = .ok r ∧
        placements checked sources r range = .ok placed ∧ f checked r placed = b := by
  obtain ⟨checked, hchecked, h⟩ := Option.bind_eq_some_iff.mp h
  obtain ⟨r, hr, h⟩ := Option.bind_eq_some_iff.mp h
  obtain ⟨placed, hplaced, h⟩ := Option.map_eq_some_iff.mp h
  exact ⟨checked, r, placed, eq_ok_of_toOption hchecked, eq_ok_of_toOption hr,
    eq_ok_of_toOption hplaced, h⟩

end Mosaic
end

/-- An image of one clear pixel of 45 by 45 degrees. -/
def Source.clearPixel (bands : Nat) (channel : Channel) (west north : Rat) : Source Rat Float32 :=
  { clearSquare 1 45 west north with raster := .blank 1 1 bands channel }

theorem Source.isSound_clearPixel {bands : Nat} (h : bands = 1 ∨ bands = 3) (channel : Channel)
    (west north : Rat) : (clearPixel bands channel west north).IsSound where
  bands := h
  wellFormed := (Raster.hasShape_tabulate channel fun _ _ _ _ => List.length_replicate).wellFormed

namespace Mosaic

/-- Grey of 8 bits beside colours of 16 bits. -/
theorem placements_fit_mixed :
    let o : Options Rat Float32 :=
      { Options.globeRun 2 8 with inputFiles := [⟨"grey"⟩, ⟨"colours"⟩] }
    let sources : List (Source Rat Float32) :=
      [.clearPixel 1 .u8 (-90) 90, .clearPixel 3 .u16 45 45]
    ∃ checked r placed, checkedOptions o sources = .ok checked ∧
      Resolution.resolve checked sources = .ok r ∧
        placements checked sources r none = .ok placed ∧
          placed.map (fun p => p.box) = [⟨2, 2, 3, 3⟩, ⟨5, 3, 6, 4⟩] ∧
            (∀ p ∈ placed, p.image.HasFormat 3 .u8) ∧
              Composite.Fits { compose checked r placed with view := some ⟨2, 2, 6, 4⟩ } := by
  intro o sources
  have hsources : ∀ s ∈ sources, s.IsSound := by
    intro s hs
    rcases List.mem_pair.mp hs with rfl | rfl
    · exact Source.isSound_clearPixel (.inl rfl) ..
    · exact Source.isSound_clearPixel (.inr rfl) ..
  obtain ⟨checked, r, placed, hchecked, hr, hplaced, hrun⟩ := exists_placed o sources none
    (fun checked r placed => (placed.map (fun p => p.box), workChannel checked sources,
      (compose checked r placed).layers.length))
    ([⟨2, 2, 3, 3⟩, ⟨5, 3, 6, 4⟩], .u8, 2) (by decide +kernel)
  obtain ⟨hboxes, hrun⟩ := Prod.mk.inj hrun
  obtain ⟨hchannel, hlength⟩ := Prod.mk.inj hrun
  obtain ⟨hplaces, hlayers, -⟩ := placements_fit hsources hplaced
  rw [hchannel] at hplaces
  have hne : (compose checked r placed).layers ≠ [] := by
    intro hnil
    rw [hnil] at hlength
    cases hlength
  exact ⟨checked, r, placed, hchecked, hr, hplaced, hboxes, fun p hp => (hplaces p hp).2,
    (hlayers hne).2 _⟩

/-- An image past the last column of a canvas of half a turn is put nowhere, so that the composite
keeps three bands of 8 bits while the image has one of 16 bits. -/
theorem placements_ne_format_lost :
    let o : Options Rat Float32 := { Options.globeRun 2 8 with aspectRatio := 2 }
    let sources : List (Source Rat Float32) := [.clearPixel 1 .u16 180 45]
    (∀ s ∈ sources, s.IsSound) ∧
      ∃ checked r placed, checkedOptions o sources = .ok checked ∧
        Resolution.resolve checked sources = .ok r ∧
          placements checked sources r none = .ok placed ∧
            ∃ p ∈ placed, ¬ p.image.HasFormat (compose checked r placed).bands
              (compose checked r placed).channel := by
  intro o sources
  have hsources : ∀ s ∈ sources, s.IsSound := by
    intro s hs
    obtain rfl := List.mem_singleton.mp hs
    exact Source.isSound_clearPixel (.inl rfl) ..
  obtain ⟨checked, r, placed, hchecked, hr, hplaced, hrun⟩ := exists_placed o sources none
    (fun checked r placed =>
      (placed.map (fun p => p.image.bands), (compose checked r placed).bands))
    ([1], 3) (by decide +kernel)
  obtain ⟨hbands, hcomposite⟩ := Prod.mk.inj hrun
  obtain ⟨p, hp, hone⟩ : ∃ p ∈ placed, p.image.bands = 1 := by
    rw [← List.mem_map, hbands]
    exact List.mem_singleton.mpr rfl
  refine ⟨hsources, checked, r, placed, hchecked, hr, hplaced, p, hp, fun hformat => ?_⟩
  have hsame := hformat.bands
  rw [hone, hcomposite] at hsame
  exact absurd hsame (by decide)

end Mosaic
end TilePyramid
