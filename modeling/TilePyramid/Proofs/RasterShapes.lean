import TilePyramid.Proofs.AdjustedPixels
import TilePyramid.Proofs.EveryPixel
import TilePyramid.Proofs.Layering
import TilePyramid.Proofs.WordReads
import TilePyramid.Raster.Image

/-!
# Rasters without missing samples

A raster has a pixel for every place, and each pixel has a value for every band and an alpha, so
that its samples, laid out one after the other, are as many as its sides and its bands ask for.
Every operation on rasters gives such a raster again, of the measures that the operation promises:
conversions keep the places, reads of regions with sides of 32 bits and halves change them, and a
composite has the bands of its own, whatever its layers have, as long as no layer has more.
-/
namespace TilePyramid

namespace Raster

section
variable {σ : Type}

/-- A raster of these measures with nothing missing. -/
structure HasShape (r : Raster σ) (width height bands : Nat) (channel : Channel) : Prop
    extends r.HasFormat bands channel where
  width : r.width = width
  height : r.height = height
  wellFormed : r.WellFormed

/-- The samples pixel by pixel, the alpha last. -/
def samples (r : Raster σ) : List σ := r.pixels.toList.flatMap fun p => p.colour ++ [p.alpha]

theorem WellFormed.hasShape {r : Raster σ} (h : r.WellFormed) :
    r.HasShape r.width r.height r.bands r.channel := ⟨⟨rfl, rfl⟩, rfl, rfl, h⟩

theorem WellFormed.length_samples {r : Raster σ} (h : r.WellFormed) :
    r.samples.length = r.width * r.height * (r.bands + 1) := by
  have hstride : r.pixels.toList.map (fun p => (p.colour ++ [p.alpha]).length) =
      List.replicate (r.width * r.height) (r.bands + 1) := by
    rw [List.eq_replicate_iff, List.length_map, Array.length_toList]
    refine ⟨h.1, ?_⟩
    intro n hn
    obtain ⟨p, hp, rfl⟩ := List.mem_map.mp hn
    rw [List.length_append, h.2 p (Array.mem_toList_iff.mp hp), List.length_singleton]
  rw [samples, List.length_flatMap, hstride, List.sum_replicate_nat]

theorem WellFormed.exists_pixel? {r : Raster σ} (h : r.WellFormed) {x y : Nat} (hx : x < r.width)
    (hy : y < r.height) : ∃ p, r.pixel? x y = some p ∧ p.colour.length = r.bands := by
  have hlt : y * r.width + x < r.pixels.size := h.1 ▸ gridIndex_lt hx hy
  exact ⟨_, Array.getElem?_eq_getElem hlt, h.2 _ (Array.getElem_mem hlt)⟩

theorem hasShape_tabulate {width height bands : Nat} (channel : Channel)
    {f : Nat → Nat → Pixel σ} (h : ∀ x < width, ∀ y < height, (f x y).colour.length = bands) :
    (tabulate width height bands channel f).HasShape width height bands channel where
  width := rfl
  height := rfl
  bands := rfl
  channel := rfl
  wellFormed := ⟨size_tabulate .., forall_mem_tabulate h⟩

end

/-! ### Operations -/

section
variable {σ : Type} {r : Raster σ} {width height bands : Nat} {channel : Channel}

theorem HasShape.map (h : r.HasShape width height bands channel) {f : Pixel σ → Pixel σ}
    {bands' : Nat} (hf : ∀ p, p.colour.length = bands → (f p).colour.length = bands')
    (channel' : Channel) :
    ({ r.map f with bands := bands', channel := channel' } : Raster σ).HasShape width height bands'
      channel' where
  width := h.width
  height := h.height
  bands := rfl
  channel := rfl
  wellFormed := by
    constructor
    · exact Array.size_map.trans h.wellFormed.1
    · intro p hp
      obtain ⟨q, hq, rfl⟩ := Array.mem_map.mp hp
      exact hf q (h.bands ▸ h.wellFormed.2 q hq)

theorem HasShape.mapColour (h : r.HasShape width height bands channel) (f : σ → σ) :
    (r.mapColour f).HasShape width height bands channel := by
  have hmap := h.map (f := fun p => { p with colour := p.colour.map f })
    (fun p hp => (List.length_map f).trans hp) channel
  obtain ⟨⟨rfl, rfl⟩, rfl, rfl, -⟩ := h
  exact hmap

theorem HasShape.elim {β : Type} (h : r.HasShape width height bands channel) (o : Option β)
    {f : β → Raster σ} (hf : ∀ b, (f b).HasShape width height bands channel) :
    (o.elim r f).HasShape width height bands channel := by
  cases o with
  | none => exact h
  | some b => exact hf b

theorem HasShape.toRgb (h : r.HasShape width height bands channel) :
    r.toRgb.HasShape width height 3 channel := by
  have hmap := h.map (f := fun p => ⟨List.replicate 3 (p.colour.headD p.alpha), p.alpha⟩)
    (fun p _ => List.length_replicate) channel
  rw [Raster.toRgb]
  split
  · next hthree =>
    rw [← hthree, h.bands]
    exact h
  · obtain ⟨⟨rfl, rfl⟩, rfl, rfl, -⟩ := h
    exact hmap

variable [Arith σ]

theorem HasShape.toChannel (h : r.HasShape width height bands channel) (target : Channel) :
    (r.toChannel target).HasShape width height bands target := by
  have hmap := h.map (f := fun p =>
      ⟨p.colour.map (r.channel.rescale target), r.channel.rescaleAlpha target p.alpha⟩)
    (fun p hp => (List.length_map _).trans hp) target
  rw [Raster.toChannel]
  split
  · next hsame =>
    rw [hsame, h.channel]
    exact h
  · obtain ⟨⟨rfl, rfl⟩, rfl, rfl, -⟩ := h
    exact hmap

theorem HasShape.maskNodata (h : r.HasShape width height bands channel) (nodata : σ) :
    (r.maskNodata nodata).HasShape width height bands channel := by
  have hlength (p : Pixel σ) (hp : p.colour.length = bands) :
      (if p.isNodata nodata then (⟨p.colour.map fun _ => ofInt 0, ofInt 0⟩ : Pixel σ)
        else { p with alpha := r.channel.opaqueAlpha }).colour.length = bands := by
    split
    · rwa [List.length_map]
    · exact hp
  have hmap := h.map hlength channel
  obtain ⟨⟨rfl, rfl⟩, rfl, rfl, -⟩ := h
  exact hmap

theorem HasShape.rescaleColour (h : r.HasShape width height bands channel) (scale offset : σ) :
    (r.rescaleColour scale offset).HasShape width height bands channel := h.mapColour _

theorem HasShape.normalize (h : r.HasShape width height bands channel) (range : ValueRange σ) :
    (r.normalize range).HasShape width height bands channel := by
  rw [Raster.normalize]
  split
  · exact h
  · exact h.mapColour _

theorem HasShape.apply (h : r.HasShape width height bands channel) (a : Adjustments σ)
    (target : Adjustments.Target σ) :
    (a.apply r target).HasShape width height (if a.bands = some 3 then 3 else bands)
      target.channel := by
  rw [a.apply_stages]
  have hbanded : (if a.bands = some 3 then (r.toChannel target.channel).toRgb
      else r.toChannel target.channel).HasShape width height
        (if a.bands = some 3 then 3 else bands) target.channel := by
    split
    · exact (h.toChannel target.channel).toRgb
    · exact h.toChannel target.channel
  have hmasked := hbanded.elim target.nodata hbanded.maskNodata
  have hrescaled := hmasked.elim a.rescale fun s => hmasked.rescaleColour s.1 s.2
  exact hrescaled.elim a.normalize fun range => hrescaled.normalize _

theorem HasShape.length_pixel (h : r.HasShape width height bands channel) (x y : Nat) :
    (r.pixel x y).colour.length = bands := by
  rw [← h.bands]
  exact forall_pixel (P := fun p => p.colour.length = r.bands) List.length_replicate
    h.wellFormed.2 x y

theorem HasShape.region (h : r.HasShape width height bands channel) (b : PixelBox) :
    (r.region b).HasShape b.width.toNat b.height.toNat bands channel := by
  have hregion : (r.region b).WellFormed := by
    constructor
    · exact size_tabulate ..
    · exact forall_mem_region (P := fun p => p.colour.length = r.bands) List.length_replicate
        h.wellFormed.2 b
  exact ⟨⟨h.bands, h.channel⟩, rfl, rfl, hregion⟩

theorem length_meanPixel {ps : List (Pixel σ)} (h : ∀ p ∈ ps, p.colour.length = bands)
    (channel : Channel) : (meanPixel channel bands ps).colour.length = bands := by
  have hsum : (ps.foldl (fun acc p =>
      (⟨List.zipWith (fun c v => c + v * p.alpha) acc.colour p.colour, acc.alpha + p.alpha⟩ :
        Pixel σ)) (.clear bands)).colour.length = bands := by
    apply List.foldlRecOn (motive := fun acc : Pixel σ => acc.colour.length = bands)
    · exact List.length_replicate
    · intro acc hacc p hp
      rw [List.length_zipWith, hacc, h p hp, Nat.min_self]
  simp only [meanPixel]
  split
  · exact List.length_replicate
  · rw [List.length_map]
    exact hsum

theorem HasShape.downsample (h : r.HasShape width height bands channel) :
    r.downsample.HasShape (width / 2) (height / 2) bands channel := by
  have hhalf : r.downsample.WellFormed := by
    constructor
    · exact size_tabulate ..
    · exact forall_mem_downsample (P := fun p => p.colour.length = r.bands) List.length_replicate
        h.wellFormed.2 fun ps _ hps => length_meanPixel hps r.channel
  obtain ⟨⟨rfl, rfl⟩, rfl, rfl, -⟩ := h
  exact ⟨⟨rfl, rfl⟩, rfl, rfl, hhalf⟩

theorem HasShape.blit (h : r.HasShape width height bands channel) {tile : Raster σ}
    (htile : tile.WellFormed) (hbands : tile.bands = bands) (x y : Nat) :
    (r.blit tile x y).HasShape width height bands channel := by
  obtain ⟨⟨rfl, rfl⟩, rfl, rfl, hr⟩ := h
  have hset : (r.blit tile x y).WellFormed := by
    constructor
    · rw [blit_size, blit_width, blit_height]
      exact hr.1
    · rw [blit_bands]
      refine forall_mem_blit (P := fun p => p.colour.length = r.bands) ?_ hr.2 ?_ x y
      · exact List.length_replicate.trans hbands
      · exact hbands ▸ htile.2
  exact ⟨⟨blit_bands .., blit_channel ..⟩, blit_width .., blit_height .., hset⟩

variable {α : Type} [Arith α] [Narrow α σ]

private theorem length_addTap (h : r.HasShape width height bands channel) (edge : EdgeMode)
    {sum : Weighted σ} (hsum : sum.colour.length = bands) (tap : Int × Int × σ) :
    (addTap r edge sum tap).colour.length = bands := by
  obtain ⟨x, y, share⟩ := tap
  simp only [addTap]
  split
  · exact hsum
  · cases edge.place? r.width r.height x y with
    | none => exact hsum
    | some place =>
      obtain ⟨px, py⟩ := place
      rw [List.length_zipWith, hsum, h.length_pixel, Nat.min_self]

theorem HasShape.length_sample (h : r.HasShape width height bands channel) (edge : EdgeMode)
    (x y : α) : (r.sample edge x y).colour.length = bands := by
  have hpixel (sum : Weighted σ) (hsum : sum.colour.length = bands) :
      sum.pixel.colour.length = bands := by
    rw [Weighted.pixel]
    split
    · rwa [List.length_map]
    · exact hsum
  rw [sample]
  split
  · exact List.length_replicate.trans h.bands
  · apply hpixel
    apply List.foldlRecOn (motive := fun sum : Weighted σ => sum.colour.length = bands)
    · exact List.length_replicate.trans h.bands
    · intro sum hsum tap _
      exact length_addTap h edge hsum tap

end
end Raster

section
variable {α σ : Type} [Cartography α] [Arith σ] [Narrow α σ]

theorem Placement.length_sample {p : Placement α σ} (h : p.image.WellFormed) (x y : Int) :
    (p.sample x y).colour.length = p.image.bands := by
  simp only [sample]
  split
  · exact List.length_replicate
  · exact h.hasShape.length_sample p.edge _ _

theorem Blended.length_add {bands : Nat} {b : Blended σ} {p : Pixel σ}
    (hb : b.colour.length = bands) (hp : p.colour.length = bands) :
    (b.add p).colour.length = bands := by
  rw [add, List.length_zipWith, hb, hp, Nat.min_self]

theorem Blended.length_foldl_add {bands : Nat} {ps : List (Pixel σ)}
    (hps : ∀ p ∈ ps, p.colour.length = bands) {b : Blended σ} (hb : b.colour.length = bands) :
    (ps.foldl add b).colour.length = bands := by
  apply List.foldlRecOn (motive := fun b : Blended σ => b.colour.length = bands)
  · exact hb
  · intro b hb p hp
    exact length_add hb (hps p hp)

namespace Composite

private theorem length_look {c : Composite α σ} {x y : Int}
    (h : ∀ p ∈ c.shownAt x y, p.colour.length = c.bands) :
    (c.look x y).colour.length = c.bands := by
  rw [look]
  split
  · cases hlast : (c.shownAt x y).getLast? with
    | none => exact List.length_replicate
    | some p => exact h p (List.mem_of_getLast? hlast)
  · have hblend := Blended.length_foldl_add h (b := .clear c.bands) List.length_replicate
    rw [Blended.pixel]
    split
    · rwa [List.length_map]
    · exact hblend

theorem hasShape_region {c : Composite α σ}
    (hlayers : ∀ l ∈ c.layers, l.placement.image.WellFormed) {b : PixelBox}
    (hread : c.isReadable b = true) :
    (c.region b).HasShape b.width.toNat b.height.toNat c.bands c.channel := by
  have hpixels : ∀ p ∈ (c.region b).pixels, p.colour.length = c.bands := by
    apply forall_mem_region
    intro x y hxy
    apply length_look
    intro p hp
    obtain ⟨l, hl, hshown⟩ := List.mem_filterMap.mp hp
    rw [shown?] at hshown
    split at hshown
    · next hin =>
      obtain rfl := Option.some.inj hshown
      rw [layerPixel]
      split
      · exact List.length_replicate
      · next hfewer =>
        -- The layer meets the region, so it has no more bands than the composite.
        have hmeets : (l.box.inter? (c.canvasBox b)).isNone = false := by
          rw [← Option.not_isSome, PixelBox.inter?_isSome_iff.mpr ⟨x, y, hin.1, hxy⟩]
          rfl
        have hbands := List.all_eq_true.mp hread l hl
        rw [hmeets, Bool.or_false, decide_eq_true_eq] at hbands
        rw [Placement.length_sample (hlayers l hl)]
        exact Nat.le_antisymm hbands (Nat.le_of_not_lt hfewer)
    · cases hshown
  exact ⟨⟨rfl, rfl⟩, rfl, rfl, c.size_region b, hpixels⟩

theorem hasShape_wrappedRegion {c : Composite α σ}
    (hlayers : ∀ l ∈ c.layers, l.placement.image.WellFormed)
    (hboxes : ∀ l ∈ c.layers, l.box.IsIndexed) {b : PixelBox} (hb : b.HasWordSides)
    (hbands : b.isEmpty = true ∨ c.hasMoreBands (c.canvasBox b).wrap = false) :
    (c.wrappedRegion b).HasShape b.width.toNat b.height.toNat c.bands c.channel := by
  rw [wrappedRegion]
  split
  · exact hasShape_region (c := c.withoutLayers) (List.forall_mem_nil _) List.all_nil
  · next hpixel =>
    obtain ⟨hpixel, hwrap⟩ : b.isEmpty = false ∧ (c.canvasBox b).wrap.isEmpty = false := by
      simpa using hpixel
    have hmore : c.withoutView.hasMoreBands (c.canvasBox b).wrap = false :=
      hbands.resolve_left (by simp [hpixel])
    obtain ⟨hwidth, hheight⟩ := c.sides_wrap_canvasBox hb hpixel hwrap
    rw [← hwidth, ← hheight]
    exact hasShape_region (c := c.withoutView) hlayers
      (c.withoutView.isReadable_of_view_eq_none rfl hboxes hmore)

/-- A read of a region with sides of 32 bits keeps to its measures, if it ends. -/
theorem hasShape_of_read? {c : Composite α σ}
    (hlayers : ∀ l ∈ c.layers, l.placement.image.WellFormed)
    (hboxes : ∀ l ∈ c.layers, l.box.IsIndexed) {b : PixelBox} (hb : b.HasWordSides)
    {r : Raster σ} (h : c.read? b = some r) :
    r.HasShape b.width.toNat b.height.toNat c.bands c.channel := by
  have hraster : b.HasRaster c.bands := by
    by_contra hnone
    cases (read?_eq_none hb hnone).symm.trans h
  rw [read?_eq_ite hboxes hraster] at h
  split at h
  · cases h
  · next hbands =>
    obtain rfl := Option.some.inj h
    apply hasShape_wrappedRegion hlayers hboxes hb
    simpa [or_iff_not_imp_left] using hbands

end Composite

namespace Raster

/-- The operations on a raster, each with the measures that it promises for its result. Regions
have sides of 32 bits. A tile is set into a raster that has room for it. A raster is put on a
canvas as the image of a layer; what is read there is a raster unless a layer in the region has too
many bands. -/
inductive Operation (α : Type) {σ : Type} [Cartography α] [Arith σ] [Narrow α σ] :
    Raster σ → (width height bands : Nat) → Channel → Raster σ → Prop
  | toChannel (r : Raster σ) (target : Channel) :
    Operation α r r.width r.height r.bands target (r.toChannel target)
  | toRgb (r : Raster σ) : Operation α r r.width r.height 3 r.channel r.toRgb
  | maskNodata (r : Raster σ) (nodata : σ) :
    Operation α r r.width r.height r.bands r.channel (r.maskNodata nodata)
  | rescaleColour (r : Raster σ) (scale offset : σ) :
    Operation α r r.width r.height r.bands r.channel (r.rescaleColour scale offset)
  | normalize (r : Raster σ) (range : ValueRange σ) :
    Operation α r r.width r.height r.bands r.channel (r.normalize range)
  | apply (r : Raster σ) (a : Adjustments σ) (target : Adjustments.Target σ) :
    Operation α r r.width r.height (if a.bands = some 3 then 3 else r.bands) target.channel
      (a.apply r target)
  | read {r r' : Raster σ} {b : PixelBox} (hb : b.HasWordSides) (hread : r.read? b = some r') :
    Operation α r b.width.toNat b.height.toNat r.bands r.channel r'
  | downsample (r : Raster σ) :
    Operation α r (r.width / 2) (r.height / 2) r.bands r.channel r.downsample
  | blit (r : Raster σ) {tile : Raster σ} (htile : tile.WellFormed) (hbands : tile.bands = r.bands)
    {x y : Nat} (hx : x + tile.width ≤ r.width) (hy : y + tile.height ≤ r.height) :
    Operation α r r.width r.height r.bands r.channel (r.blit tile x y)
  | compose {c : Composite α σ} {l : Layer α σ} (hl : l ∈ c.layers)
    (hlayers : ∀ l' ∈ c.layers, l' ≠ l → l'.placement.image.WellFormed)
    (hboxes : ∀ l' ∈ c.layers, l'.box.IsIndexed) {b : PixelBox} (hb : b.HasWordSides)
    {r' : Raster σ} (hread : c.read? b = some r') :
    Operation α l.placement.image b.width.toNat b.height.toNat c.bands c.channel r'

/-- One raster is made of the other by an operation. -/
def Becomes (α : Type) {σ : Type} [Cartography α] [Arith σ] [Narrow α σ] (r r' : Raster σ) :
    Prop :=
  ∃ width height bands channel, Operation α r width height bands channel r'

theorem Operation.hasShape {r r' : Raster σ} {width height bands : Nat} {channel : Channel}
    (h : Operation α r width height bands channel r') (hr : r.WellFormed) :
    r'.HasShape width height bands channel := by
  cases h with
  | toChannel => exact hr.hasShape.toChannel _
  | toRgb => exact hr.hasShape.toRgb
  | maskNodata _ nodata => exact hr.hasShape.maskNodata nodata
  | rescaleColour _ scale offset => exact hr.hasShape.rescaleColour scale offset
  | normalize _ range => exact hr.hasShape.normalize range
  | apply _ a target => exact hr.hasShape.apply a target
  | read hb hread =>
    rw [read?_eq_some _ (hasRaster_of_read? hb hread)] at hread
    obtain rfl := Option.some.inj hread
    exact hr.hasShape.region _
  | downsample => exact hr.hasShape.downsample
  | blit _ htile hbands => exact hr.hasShape.blit htile hbands _ _
  | @compose c l hl hlayers hboxes b hb r' hread =>
    refine Composite.hasShape_of_read? (fun l' hl' => ?_) hboxes hb hread
    by_cases hsame : l' = l
    · rw [hsame]
      exact hr
    · exact hlayers l' hl' hsame

theorem wellFormed_of_reflTransGen {r r' : Raster σ} (hr : r.WellFormed)
    (h : Relation.ReflTransGen (Becomes α) r r') : r'.WellFormed := by
  induction h with
  | refl => exact hr
  | tail _ hstep ih =>
    obtain ⟨width, height, bands, channel, hoperation⟩ := hstep
    exact (hoperation.hasShape ih).wellFormed

/-- The raster of samples that are laid out pixel by pixel, the alpha last. -/
def ofSamples (width height bands : Nat) (channel : Channel) (data : Array σ) : Raster σ where
  width := width
  height := height
  bands := bands
  channel := channel
  pixels := ((pixelSamples (bands + 1) (width * height) data).map
    (.ofSamples bands channel.opaqueAlpha)).toArray

omit [Arith σ] in
theorem length_of_mem_pixelSamples {stride count : Nat} {data : Array σ}
    (hdata : data.size = count * stride) {s : List σ} (hs : s ∈ pixelSamples stride count data) :
    s.length = stride := by
  obtain ⟨i, hi, rfl⟩ := List.mem_map.mp hs
  have hle := Nat.mul_le_mul_right stride (Nat.succ_le_of_lt (List.mem_range.mp hi))
  rw [Array.length_toList, Array.size_extract, hdata, Nat.succ_mul] at *
  omega

omit [Arith σ] in
theorem flatten_pixelSamples {stride count : Nat} {data : Array σ}
    (hdata : data.size = count * stride) :
    (pixelSamples stride count data).flatten = data.toList := by
  have hfront (n : Nat) : (pixelSamples stride n data).flatten =
      (data.extract 0 (n * stride)).toList := by
    induction n with
    | zero => simp [pixelSamples]
    | succ n ih =>
      have hnext : data.extract 0 (n * stride) ++ data.extract (n * stride) ((n + 1) * stride) =
          data.extract 0 ((n + 1) * stride) := by
        rw [Array.extract_append_extract, Nat.zero_min, Nat.max_eq_right]
        exact Nat.mul_le_mul_right stride n.le_succ
      rw [← hnext, Array.toList_append, ← ih]
      simp only [pixelSamples, List.range_succ, List.map_append, List.flatten_append,
        List.map_singleton, List.flatten_singleton]
  rw [hfront, ← hdata, Array.extract_size]

theorem hasShape_ofSamples {width height bands : Nat} (channel : Channel) {data : Array σ}
    (hdata : data.size = width * height * (bands + 1)) :
    (ofSamples width height bands channel data).HasShape width height bands channel ∧
      (ofSamples width height bands channel data).samples = data.toList := by
  have hlength : ∀ s ∈ pixelSamples (bands + 1) (width * height) data, s.length = bands + 1 :=
    fun s hs => length_of_mem_pixelSamples hdata hs
  constructor
  · have hwell : (ofSamples width height bands channel data).WellFormed := by
      constructor
      · simp [ofSamples, pixelSamples]
      · intro p hp
        obtain ⟨s, hs, rfl⟩ := List.mem_map.mp (List.mem_toArray.mp hp)
        have hlength := hlength s hs
        change (s.take bands).length = bands
        rw [List.length_take]
        omega
    exact ⟨⟨rfl, rfl⟩, rfl, rfl, hwell⟩
  · have hpixel : ∀ s ∈ pixelSamples (bands + 1) (width * height) data,
        (Pixel.ofSamples bands channel.opaqueAlpha s).colour ++
          [(Pixel.ofSamples bands channel.opaqueAlpha s).alpha] = s := by
      intro s hs
      obtain ⟨a, ha⟩ : ∃ a, s.drop bands = [a] := by
        rw [← List.length_eq_one_iff, List.length_drop, hlength s hs]
        omega
      rw [Pixel.ofSamples, ha, List.headD_cons, ← ha, List.take_append_drop]
    rw [samples, ofSamples, ← flatten_pixelSamples hdata, List.flatMap_map,
      List.flatMap_congr hpixel]
    exact List.flatMap_id'

/-- Whatever is done to a raster whose buffer has the right length, one operation after the other,
there is a sample for every band and the alpha of every place again, and a pixel at every place;
the next operation gives the measures that it promises. Every region that has a raster can be read,
also from a canvas that the raster is put on with layers like itself. -/
theorem operations_keep_shape {width height bands : Nat} {channel : Channel} {data : Array σ}
    (hdata : data.size = width * height * (bands + 1)) {r : Raster σ}
    (hr : Relation.ReflTransGen (Becomes α) (ofSamples width height bands channel data) r) :
    r.samples.length = r.width * r.height * (r.bands + 1) ∧
      (∀ x < r.width, ∀ y < r.height, ∃ p, r.pixel? x y = some p ∧ p.colour.length = r.bands) ∧
      (∀ width' height' bands' channel' r', Operation α r width' height' bands' channel' r' →
        r'.HasShape width' height' bands' channel' ∧
          r'.samples.length = width' * height' * (bands' + 1)) ∧
      (∀ b : PixelBox, b.HasRaster r.bands → ∃ r', r.read? b = some r' ∧
        Operation α r b.width.toNat b.height.toNat r.bands r.channel r') ∧
      ∀ (draft : Bool) (ls : List (Layer α σ)) (view : Option PixelBox),
        (∃ l ∈ ls, l.placement.image = r) →
        (∀ l ∈ ls, l.placement.image.WellFormed ∧ l.placement.image.HasFormat r.bands r.channel) →
        (∀ l ∈ ls, l.box.IsIndexed) →
        let c : Composite α σ := { Composite.ofLayers draft ls with view := view }
        ∀ b : PixelBox, b.HasRaster r.bands → ∃ r', c.read? b = some r' ∧
          Operation α r b.width.toNat b.height.toNat r.bands r.channel r' := by
  have hwell : r.WellFormed := by
    apply wellFormed_of_reflTransGen _ hr
    exact (hasShape_ofSamples channel hdata).1.wellFormed
  refine ⟨hwell.length_samples, ?_, ?_, ?_, ?_⟩
  · intro x hx y hy
    exact hwell.exists_pixel? hx hy
  · intro width' height' bands' channel' r' hoperation
    have hshape := hoperation.hasShape hwell
    refine ⟨hshape, ?_⟩
    rw [hshape.wellFormed.length_samples, hshape.width, hshape.height, hshape.bands]
  · intro b hb
    have hread := r.read?_eq_some hb
    exact ⟨_, hread, .read hb.1 hread⟩
  · rintro draft ls view ⟨l, hl, rfl⟩ hls hindexed c b hb
    have hformat : ∀ l' ∈ ls, l'.placement.image.HasFormat l.placement.image.bands
        l.placement.image.channel := fun l' hl' => (hls l' hl').2
    have huniform : c.IsUniform := Composite.isUniform_ofLayers draft hformat
    have hlayers : c.layers = ls := Composite.layers_ofLayers draft ls
    have hboxes : ∀ l' ∈ c.layers, l'.box.IsIndexed := by rwa [hlayers]
    obtain ⟨hbands, hchannel⟩ := Composite.format_ofLayers draft hformat (List.ne_nil_of_mem hl)
    rw [← hbands] at hb
    have hread := Composite.read?_eq_wrappedRegion hboxes hb (huniform.hasMoreBands _)
    refine ⟨_, hread, ?_⟩
    rw [← hbands, ← hchannel]
    apply Operation.compose (c := c) (hlayers ▸ hl) _ hboxes hb.1 hread
    intro l' hl' _
    exact (hls l' (hlayers ▸ hl')).1

/-- A grey raster that is given colours, moved and halved. -/
theorem operations_keep_shape_halved :
    let grey : Raster Float32 := ofSamples 3 1 1 .u8 #[10, 255, 20, 255, 30, 0]
    ∃ moved, grey.toRgb.read? ⟨-1, 0, 4, 2⟩ = some moved ∧
      moved.downsample.samples.length = 2 * 1 * (3 + 1) := by
  intro grey
  have hrgb : Relation.ReflTransGen (Becomes Float) grey grey.toRgb :=
    .single ⟨_, _, _, _, .toRgb grey⟩
  have hsides : (⟨-1, 0, 4, 2⟩ : PixelBox).HasRaster grey.toRgb.bands := by decide
  have hread := grey.toRgb.read?_eq_some hsides
  have hmoved := hrgb.tail ⟨_, _, _, _, .read hsides.1 hread⟩
  have hhalved := hmoved.tail ⟨_, _, _, _, .downsample _⟩
  have hwidth : (grey.toRgb.region ⟨-1, 0, 4, 2⟩).downsample.width = 2 := by decide
  have hheight : (grey.toRgb.region ⟨-1, 0, 4, 2⟩).downsample.height = 1 := by decide
  have hbands : (grey.toRgb.region ⟨-1, 0, 4, 2⟩).downsample.bands = 3 := rfl
  refine ⟨_, hread, ?_⟩
  rw [(operations_keep_shape (by decide) hhalved).1, hwidth, hheight, hbands]

/-- A region that is too wide for 32 bits is read with another width, or the read breaks off. It
breaks off in a region that is too large for a buffer as well. -/
theorem read_wide_ne :
    let pair : Raster Float32 := ofSamples 2 1 1 .u8 #[7, 255, 9, 255]
    pair.samples.length = 2 * 1 * (1 + 1) ∧
      (∃ r, pair.read? (.ofSize 5 0 (2 ^ 32 + 3) 1) = some r ∧ r.width ≠ 2 ^ 32 + 3) ∧
      pair.read? (.ofSize 0 0 (2 ^ 32 + 1) 1) = none ∧
      pair.read? (.ofImage (2 ^ 32 - 1) (2 ^ 32 - 1)) = none := by
  intro pair
  have hpast : pair.read? (.ofSize 5 0 (2 ^ 32 + 3) 1) =
      some ⟨3, 1, 1, .u8, .replicate 3 (.clear 1)⟩ := by decide +kernel
  exact ⟨by decide, ⟨_, hpast, by decide⟩, by decide +kernel, by decide +kernel⟩

end Raster
end
end TilePyramid
