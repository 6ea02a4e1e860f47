import TilePyramid.Proofs.RasterShapes
import TilePyramid.Proofs.SingleWholes

/-!
# Images and their rasters

A raster of an unsigned channel becomes an image that holds its samples as they are, and an image
of 8 or 16 bits becomes a raster that holds those of the image, with an opaque alpha after each
pixel if the image has none. Main statement: the two ways undo each other, whatever the size of the
image.
-/
namespace TilePyramid

variable {σ : Type} [Arith σ]

namespace ImageKind

/-- Grey or colour in 8 or 16 bits. -/
def IsUnsigned (k : ImageKind) : Prop := k.channel = .u8 ∨ k.channel = .u16

theorem IsUnsigned.bands {k : ImageKind} (_ : k.IsUnsigned) : k.bands = 1 ∨ k.bands = 3 := by
  cases k <;> decide

end ImageKind

namespace Image

/-- The image has all its samples, and they are whole numbers of 8 or 16 bits. -/
structure IsUnsigned (img : Image σ) : Prop where
  kind : img.kind.IsUnsigned
  size : img.samples.size = img.width * img.height * img.kind.stride
  whole : ∀ v ∈ img.samples, IsWhole img.kind.channel.bounds.2 v

/-- The samples pixel by pixel, each with an alpha; where there is none it is that of an opaque
pixel. -/
def samplesWithAlpha (img : Image σ) : List σ :=
  (pixelSamples img.kind.stride (img.width * img.height) img.samples).flatMap fun s =>
    if img.kind.hasAlpha then s else s ++ [img.kind.channel.opaqueAlpha]

/-- The image with an alpha. -/
def withAlpha (img : Image σ) : Image σ :=
  { img with
    kind := img.kind.withAlpha
    samples := img.samplesWithAlpha.toArray }

theorem withAlpha_of_hasAlpha {img : Image σ}
    (hsize : img.samples.size = img.width * img.height * img.kind.stride)
    (halpha : img.kind.hasAlpha = true) : img.withAlpha = img := by
  have hkind : img.kind.withAlpha = img.kind := by
    cases hk : img.kind <;> simp_all [ImageKind.hasAlpha, ImageKind.withAlpha]
  have hsamples : img.samplesWithAlpha = img.samples.toList := by
    simp only [samplesWithAlpha, halpha, if_true]
    rw [List.flatMap_id', Raster.flatten_pixelSamples hsize]
  rw [withAlpha, hkind, hsamples]

end Image

namespace Raster

/-- The raster has nothing missing, and can stand in an image as it is: it is grey or coloured, and
its samples are whole numbers of an unsigned channel. -/
structure IsUnsigned (r : Raster σ) : Prop where
  wellFormed : r.WellFormed
  channel : r.channel = .u8 ∨ r.channel = .u16
  bands : r.bands = 1 ∨ r.bands = 3
  whole : ∀ v ∈ r.samples, IsWhole r.channel.bounds.2 v

omit [Arith σ] in
theorem threeBands_of_length {p : Pixel σ} {bands : Nat} (hbands : bands = 1 ∨ bands = 3)
    (hlength : p.colour.length = bands) : p.threeBands bands = p.colour := by
  rcases hbands with rfl | rfl
  · rw [Pixel.threeBands, if_pos rfl, ← hlength, List.take_length]
  · obtain ⟨a, b, c, hcolour⟩ := List.length_eq_three.mp hlength
    rw [Pixel.threeBands, hcolour]
    rfl

/-- The image that holds the samples of a raster as they are. -/
def asImage (r : Raster σ) : Image σ where
  kind := r.imageKind
  width := r.width
  height := r.height
  samples := r.samples.toArray

theorem IsUnsigned.toImage? [WholeNumbers σ] {r : Raster σ} (hr : r.IsUnsigned) :
    r.toImage? = some r.asImage := by
  have hpixel : ∀ p ∈ r.pixels, ((p.threeBands r.bands).map r.channel.quantizeColour ++
      [r.channel.quantizeAlpha p.alpha]) = p.colour ++ [p.alpha] := by
    intro p hp
    have hwhole : ∀ v ∈ p.colour ++ [p.alpha], IsWhole r.channel.bounds.2 v := by
      intro v hv
      exact hr.whole v (List.mem_flatMap.mpr ⟨p, Array.mem_toList_iff.mpr hp, hv⟩)
    have hcolour : p.colour.map r.channel.quantizeColour = p.colour := by
      conv_rhs => rw [← List.map_id p.colour]
      apply List.map_congr_left
      intro v hv
      exact (Channel.quantize_of_isWhole hr.channel (hwhole v (List.mem_append_left _ hv))).1
    have halpha := (Channel.quantize_of_isWhole hr.channel (hwhole p.alpha (by simp))).2
    rw [threeBands_of_length hr.bands (hr.wellFormed.2 p hp), hcolour, halpha]
  have hsize : ¬ r.pixels.size < r.width * r.height := hr.wellFormed.1.not_lt
  rw [Raster.toImage?, if_neg hsize, asImage]
  congr 2
  apply Array.toList_inj.mp
  rw [Array.toList_flatMap, samples]
  apply List.flatMap_congr
  intro p hp
  exact hpixel p (Array.mem_toList_iff.mp hp)

omit [Arith σ] in
private theorem pixels_eq_of_samples {bands : Nat} {ps qs : List (Pixel σ)}
    (hps : ∀ p ∈ ps, p.colour.length = bands) (hqs : ∀ q ∈ qs, q.colour.length = bands)
    (hflat : ps.flatMap (fun p => p.colour ++ [p.alpha]) =
      qs.flatMap fun q => q.colour ++ [q.alpha]) : ps = qs := by
  induction ps generalizing qs with
  | nil =>
    cases qs with
    | nil => rfl
    | cons q qs => simp at hflat
  | cons p ps ih =>
    cases qs with
    | nil => simp at hflat
    | cons q qs =>
      have hp := hps p List.mem_cons_self
      have hq := hqs q List.mem_cons_self
      rw [List.flatMap_cons, List.flatMap_cons] at hflat
      obtain ⟨hfirst, hrest⟩ := List.append_inj hflat (by simp [hp, hq])
      obtain ⟨hcolour, halpha⟩ := List.append_inj hfirst (hp.trans hq.symm)
      obtain ⟨colour, alpha⟩ := p
      obtain ⟨colour', alpha'⟩ := q
      obtain rfl : colour = colour' := hcolour
      obtain rfl : alpha = alpha' := List.singleton_inj.mp halpha
      rw [ih (fun p hp => hps p (List.mem_cons_of_mem _ hp))
        (fun q hq => hqs q (List.mem_cons_of_mem _ hq)) hrest]

omit [Arith σ] in
theorem HasShape.eq_of_samples {r r' : Raster σ} {width height bands : Nat} {channel : Channel}
    (h : r.HasShape width height bands channel) (h' : r'.HasShape width height bands channel)
    (hsamples : r.samples = r'.samples) : r = r' := by
  obtain ⟨⟨hbands, hchannel⟩, hwidth, hheight, hr⟩ := h
  obtain ⟨⟨hbands', hchannel'⟩, hwidth', hheight', hr'⟩ := h'
  have hpixels : r.pixels.toList = r'.pixels.toList := by
    have hp : ∀ p ∈ r.pixels.toList, p.colour.length = bands := by
      intro p hp
      exact (hr.2 p (Array.mem_toList_iff.mp hp)).trans hbands
    have hp' : ∀ p ∈ r'.pixels.toList, p.colour.length = bands := by
      intro p hp
      exact (hr'.2 p (Array.mem_toList_iff.mp hp)).trans hbands'
    exact pixels_eq_of_samples hp hp' hsamples
  rw [Raster.mk.injEq]
  exact ⟨hwidth.trans hwidth'.symm, hheight.trans hheight'.symm, hbands.trans hbands'.symm,
    hchannel.trans hchannel'.symm, Array.toList_inj.mp hpixels⟩

/-- The raster of an image has nothing missing, and holds the samples of the image with an alpha. -/
theorem hasShape_ofImage {img : Image σ}
    (hsize : img.samples.size = img.width * img.height * img.kind.stride) :
    (ofImage img).HasShape img.width img.height img.kind.bands img.kind.channel ∧
      (ofImage img).samples = img.samplesWithAlpha := by
  let full : σ := img.kind.channel.opaqueAlpha
  let chunks := pixelSamples img.kind.stride (img.width * img.height) img.samples
  have hlength : ∀ s ∈ chunks, s.length = img.kind.bands + if img.kind.hasAlpha then 1 else 0 :=
    fun s hs => length_of_mem_pixelSamples hsize hs
  constructor
  · refine ⟨⟨rfl, rfl⟩, rfl, rfl, ?_, ?_⟩
    · simp [ofImage, pixelSamples]
    · intro p hp
      obtain ⟨s, hs, rfl⟩ := List.mem_map.mp (List.mem_toArray.mp hp)
      have hs := hlength s hs
      change (s.take img.kind.bands).length = img.kind.bands
      rw [List.length_take]
      omega
  · have hpixel : ∀ s ∈ chunks, (Pixel.ofSamples img.kind.bands full s).colour ++
        [(Pixel.ofSamples img.kind.bands full s).alpha] =
          if img.kind.hasAlpha then s else s ++ [full] := by
      intro s hs
      have hs := hlength s hs
      rw [Pixel.ofSamples]
      cases halpha : img.kind.hasAlpha with
      | true =>
        rw [halpha, if_pos rfl] at hs
        obtain ⟨a, ha⟩ : ∃ a, s.drop img.kind.bands = [a] := by
          rw [← List.length_eq_one_iff, List.length_drop, hs, Nat.add_sub_cancel_left]
        rw [ha, List.headD_cons, ← ha, List.take_append_drop]
        rfl
      | false =>
        rw [halpha, if_neg Bool.false_ne_true, Nat.add_zero] at hs
        rw [← hs, List.drop_length, List.take_length]
        rfl
    rw [samples, ofImage, List.flatMap_map]
    exact List.flatMap_congr hpixel

theorem IsUnsigned.imageKind {r : Raster σ} (hr : r.IsUnsigned) :
    r.imageKind.bands = r.bands ∧ r.imageKind.channel = r.channel ∧
      r.imageKind.hasAlpha = true := by
  obtain ⟨width, height, bands, channel, pixels⟩ := r
  obtain ⟨-, hchannel, hbands, -⟩ := hr
  rcases hchannel with rfl | rfl <;> rcases hbands with rfl | rfl <;> exact ⟨rfl, rfl, rfl⟩

theorem IsUnsigned.ofImage_asImage {r : Raster σ} (hr : r.IsUnsigned) : ofImage r.asImage = r := by
  obtain ⟨hbands, hchannel, halpha⟩ := hr.imageKind
  have hstride : r.imageKind.stride = r.bands + 1 := by
    rw [ImageKind.stride, hbands, halpha, if_pos rfl]
  have hsize : r.asImage.samples.size =
      r.asImage.width * r.asImage.height * r.asImage.kind.stride := by
    change r.samples.toArray.size = r.width * r.height * r.imageKind.stride
    rw [hstride, List.size_toArray, hr.wellFormed.length_samples]
  obtain ⟨hshape, hsamples⟩ := hasShape_ofImage hsize
  have hkept : r.asImage.samplesWithAlpha = r.samples :=
    congrArg (·.samples.toList) (Image.withAlpha_of_hasAlpha hsize halpha)
  have hback : (ofImage r.asImage).HasShape r.width r.height r.bands r.channel := by
    rw [← hbands, ← hchannel]
    exact hshape
  exact hback.eq_of_samples hr.wellFormed.hasShape (hsamples.trans hkept)

theorem imageKind_ofImage {img : Image σ} (himg : img.kind.IsUnsigned) :
    (ofImage img).imageKind = img.kind.withAlpha := by
  obtain ⟨kind, width, height, samples⟩ := img
  cases kind with
  | rgb32f | rgba32f => rcases himg with h | h <;> cases h
  | _ => rfl

theorem asImage_ofImage {img : Image σ} (himg : img.kind.IsUnsigned)
    (hsize : img.samples.size = img.width * img.height * img.kind.stride) :
    (ofImage img).asImage = img.withAlpha := by
  rw [asImage, imageKind_ofImage himg, (hasShape_ofImage hsize).2]
  rfl

theorem isUnsigned_ofImage {img : Image σ} (himg : img.IsUnsigned) : (ofImage img).IsUnsigned := by
  obtain ⟨hshape, hsamples⟩ := hasShape_ofImage himg.size
  constructor
  · exact hshape.wellFormed
  · exact himg.kind
  · exact himg.kind.bands
  · intro v hv
    rw [hsamples, Image.samplesWithAlpha] at hv
    obtain ⟨s, hs, hv⟩ := List.mem_flatMap.mp hv
    have hkept : ∀ v ∈ s, IsWhole img.kind.channel.bounds.2 v := by
      intro v hv
      apply himg.whole
      rw [← Array.mem_toList_iff, ← flatten_pixelSamples himg.size]
      exact List.mem_flatten.mpr ⟨s, hs, hv⟩
    cases halpha : img.kind.hasAlpha with
    | true =>
      rw [halpha, if_pos rfl] at hv
      exact hkept v hv
    | false =>
      rw [halpha, if_neg Bool.false_ne_true, List.mem_append, List.mem_singleton] at hv
      rcases hv with hv | rfl
      · exact hkept v hv
      · exact img.kind.channel.isWhole_opaqueAlpha

/-- An image of 8 or 16 bits comes back from its raster, with an alpha if it had none, and an
unsigned raster comes back from its image. -/
theorem stored_images [WholeNumbers σ] :
    (∀ img : Image σ, img.IsUnsigned → img.kind.hasAlpha = true →
        (ofImage img).toImage? = some img) ∧
      (∀ img : Image σ, img.IsUnsigned → img.kind.hasAlpha = false →
        (ofImage img).toImage? = some img.withAlpha) ∧
      ∀ r : Raster σ, r.IsUnsigned → ∃ img, r.toImage? = some img ∧ ofImage img = r := by
  have himage (img : Image σ) (himg : img.IsUnsigned) :
      (ofImage img).toImage? = some img.withAlpha := by
    rw [(isUnsigned_ofImage himg).toImage?, asImage_ofImage himg.kind himg.size]
  refine ⟨?_, fun img himg _ => himage img himg, ?_⟩
  · intro img himg halpha
    rw [himage img himg, Image.withAlpha_of_hasAlpha himg.size halpha]
  · intro r hr
    exact ⟨r.asImage, hr.toImage?, hr.ofImage_asImage⟩

end Raster

namespace Image

/-- Two grey pixels, of which the second one cannot be seen. -/
def twoGrey : Image Float32 :=
  { kind := .la16, width := 2, height := 1, samples := #[ofInt 700, ofInt 65535, ofInt 9, ofInt 0] }

/-- A colour pixel. -/
def oneColour : Image Float32 :=
  { kind := .rgb8, width := 1, height := 1, samples := #[ofInt 1, ofInt 255, ofInt 0] }

theorem isUnsigned_twoGrey : twoGrey.IsUnsigned := by
  refine ⟨.inr rfl, rfl, ?_⟩
  intro v hv
  simp only [twoGrey, List.mem_toArray, List.mem_cons, List.not_mem_nil, or_false] at hv
  rcases hv with rfl | rfl | rfl | rfl
  · exact ⟨700, by decide, by decide, rfl⟩
  · exact ⟨65535, by decide, by decide, rfl⟩
  · exact ⟨9, by decide, by decide, rfl⟩
  · exact ⟨0, by decide, by decide, rfl⟩

theorem isUnsigned_oneColour : oneColour.IsUnsigned := by
  refine ⟨.inl rfl, rfl, ?_⟩
  intro v hv
  simp only [oneColour, List.mem_toArray, List.mem_cons, List.not_mem_nil, or_false] at hv
  rcases hv with rfl | rfl | rfl
  · exact ⟨1, by decide, by decide, rfl⟩
  · exact ⟨255, by decide, by decide, rfl⟩
  · exact ⟨0, by decide, by decide, rfl⟩

end Image

namespace Raster

theorem stored_images_pixels :
    (ofImage Image.twoGrey).toImage? = some Image.twoGrey ∧
      (ofImage Image.oneColour).toImage? = some Image.oneColour.withAlpha ∧
      ∃ img, (ofImage Image.twoGrey).toImage? = some img ∧ ofImage img = ofImage Image.twoGrey := by
  obtain ⟨hkept, hopened, hback⟩ := stored_images (σ := Float32)
  refine ⟨?_, ?_, ?_⟩
  · exact hkept _ Image.isUnsigned_twoGrey rfl
  · exact hopened _ Image.isUnsigned_oneColour rfl
  · exact hback _ (isUnsigned_ofImage Image.isUnsigned_twoGrey)

end Raster
end TilePyramid
