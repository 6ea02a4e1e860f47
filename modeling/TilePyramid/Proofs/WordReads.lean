import TilePyramid.Proofs.LevelImages
import TilePyramid.Proofs.PixelWords

/-!
# Reads with sides of 32 bits

A read counts its cells in 32 bits, and their places on the canvas in 64. As long as the sides of a
region and its place have so many bits no count is cut: every pixel that is read has a cell of its
own, so that the read ends, and it gives what the region shows. The leaves of a pyramid are read
like that. A region with a place beyond 64 bits is read at the place it wraps around to.
-/
namespace TilePyramid

section cells
variable {β γ : Type}

theorem foldlM_update? (index : γ → Nat) (change : γ → β → β) {steps : List γ} {cells : Array β}
    (h : ∀ step ∈ steps, index step < cells.size) :
    steps.foldlM (fun cells step => update? cells (index step) (change step)) cells =
      some (steps.foldl (fun cells step => cells.modify (index step) (change step)) cells) := by
  induction steps generalizing cells with
  | nil => rfl
  | cons step steps ih =>
    have hstep : update? cells (index step) (change step) =
        some (cells.modify (index step) (change step)) := if_pos (h step List.mem_cons_self)
    rw [List.foldlM_cons, hstep, Option.bind_eq_bind, Option.bind_some, List.foldl_cons]
    apply ih
    intro step' hstep'
    rw [Array.size_modify]
    exact h step' (List.mem_cons_of_mem _ hstep')

theorem foldl_places (b : PixelBox) (f : β → Int × Int → β) (start : β) :
    b.places.foldl f start =
      (List.range b.height.toNat).foldl (fun acc (dy : Nat) =>
        (List.range b.width.toNat).foldl (fun acc (dx : Nat) => f acc (b.minX + dx, b.minY + dy))
          acc) start := by
  simp only [PixelBox.places, List.foldl_flatMap, List.foldl_map]

end cells

namespace PixelBox

variable {b o : PixelBox}

theorem index_lt {x y : Int} (h : b.Mem x y) :
    (y - b.minY).toNat * b.width.toNat + (x - b.minX).toNat < b.width.toNat * b.height.toNat := by
  simp only [Mem] at h
  apply gridIndex_lt
  · simp only [width]
    omega
  · simp only [height]
    omega

private theorem foldl_places_eq_sweep {β : Type} (hleft : b.minX ≤ o.minX) (htop : b.minY ≤ o.minY)
    (change : Int × Int → β → β) (cells : Array β) :
    o.places.foldl (fun cells place =>
        cells.modify ((place.2 - b.minY).toNat * b.width.toNat + (place.1 - b.minX).toNat)
          (change place)) cells =
      sweep b.width.toNat (o.minX - b.minX).toNat (o.minY - b.minY).toNat o.width.toNat
        o.height.toNat (fun dx dy => change (o.minX + dx, o.minY + dy)) cells := by
  have hcolumn (dx : Nat) : (o.minX + dx - b.minX).toNat = (o.minX - b.minX).toNat + dx := by omega
  have hrow (dy : Nat) : (o.minY + dy - b.minY).toNat = (o.minY - b.minY).toNat + dy := by omega
  simp only [foldl_places, hcolumn, hrow]
  rfl

theorem getElem?_foldl_places {β : Type} {a : PixelBox} (ho : a.inter? b = some o)
    (change : Int × Int → β → β) (cells : Array β) {u v : Nat} (hu : u < b.width.toNat)
    (hv : v < b.height.toNat) :
    (o.places.foldl (fun cells place =>
        cells.modify ((place.2 - b.minY).toNat * b.width.toNat + (place.1 - b.minX).toNat)
          (change place)) cells)[v * b.width.toNat + u]? =
      if a.Mem (b.minX + u) (b.minY + v) then
        cells[v * b.width.toNat + u]?.map (change (b.minX + u, b.minY + v))
      else cells[v * b.width.toNat + u]? := by
  obtain ⟨hcrop, hw, hh⟩ := inter?_eq_some ho
  have hinside : b.minX ≤ o.minX ∧ b.minY ≤ o.minY ∧ o.maxX ≤ b.maxX := by
    simp only [hcrop, crop] at hw ⊢
    omega
  obtain ⟨hleft, htop, hright⟩ := hinside
  have hb : b.Mem (b.minX + u) (b.minY + v) := by
    simp only [Mem, width, height] at hu hv ⊢
    omega
  have hmem : a.Mem (b.minX + u) (b.minY + v) ↔ o.Mem (b.minX + u) (b.minY + v) := by
    rw [hcrop, mem_crop]
    exact (and_iff_left hb).symm
  rw [foldl_places_eq_sweep hleft htop, getElem?_sweep _ _ (by simp only [width]; omega) hu]
  by_cases hin : a.Mem (b.minX + u) (b.minY + v)
  · have hplace := hmem.mp hin
    simp only [Mem] at hplace
    have hx : o.minX + ((u - (o.minX - b.minX).toNat : Nat) : Int) = b.minX + u := by omega
    have hy : o.minY + ((v - (o.minY - b.minY).toNat : Nat) : Int) = b.minY + v := by omega
    rw [if_pos hin, if_pos (by simp only [width, height]; omega), hx, hy]
  · have hplace := mt hmem.mpr hin
    simp only [Mem] at hplace
    rw [if_neg hin, if_neg (by simp only [width, height]; omega)]

theorem size_foldl_places {β : Type} {a : PixelBox} (ho : a.inter? b = some o)
    (change : Int × Int → β → β) (cells : Array β) :
    (o.places.foldl (fun cells place =>
      cells.modify ((place.2 - b.minY).toNat * b.width.toNat + (place.1 - b.minX).toNat)
        (change place)) cells).size = cells.size := by
  obtain ⟨hcrop, -⟩ := inter?_eq_some ho
  have hleft : b.minX ≤ o.minX := by rw [hcrop]; exact Int.le_max_right ..
  have htop : b.minY ≤ o.minY := by rw [hcrop]; exact Int.le_max_right ..
  rw [foldl_places_eq_sweep hleft htop, size_sweep]

theorem sides_square {side : Nat} (h : side < 2 ^ 32) (x y : Nat) :
    (PixelBox.square side x y).HasWordSides ∧ (PixelBox.square side x y).width.toNat = side ∧
      (PixelBox.square side x y).height.toNat = side := by
  simp only [HasWordSides, square, ofSize, width, height]
  omega

theorem mem_of_mem_places {a : PixelBox} (ho : a.inter? b = some o) {place : Int × Int}
    (h : place ∈ o.places) : b.Mem place.1 place.2 := by
  have hplace := mem_places.mp h
  rw [(inter?_eq_some ho).1, mem_crop] at hplace
  exact hplace.2

theorem HasWordSides.foldlM_update? (hb : b.HasWordSides) {β γ : Type} (place : γ → Int × Int)
    (change : γ → β → β) {steps : List γ}
    (hsteps : ∀ step ∈ steps, b.Mem (place step).1 (place step).2) {cells : Array β}
    (hsize : cells.size = b.width.toNat * b.height.toNat) :
    steps.foldlM (fun cells step =>
        update? cells (toWord ((place step).2 - b.minY) * b.width.toNat +
          toWord ((place step).1 - b.minX)) (change step)) cells =
      some (steps.foldl (fun cells step =>
        cells.modify (((place step).2 - b.minY).toNat * b.width.toNat +
          ((place step).1 - b.minX).toNat) (change step)) cells) := by
  have hindex (step : γ) (hstep : step ∈ steps) :
      toWord ((place step).2 - b.minY) * b.width.toNat + toWord ((place step).1 - b.minX) =
        ((place step).2 - b.minY).toNat * b.width.toNat + ((place step).1 - b.minX).toNat := by
    obtain ⟨hx, hy⟩ := hb.toWord_sub (hsteps step hstep)
    rw [hx, hy]
  rw [TilePyramid.foldlM_update?]
  · congr 1
    apply List.foldl_ext
    intro cells step hstep
    rw [hindex step hstep]
  · intro step hstep
    rw [hindex step hstep, hsize]
    exact index_lt (hsteps step hstep)

/-- A raster of the box has sides of 32 bits, and there can be a buffer for its samples. -/
def HasRaster (b : PixelBox) (bands : Nat) : Prop :=
  b.HasWordSides ∧ b.width.toNat * b.height.toNat * (bands + 1) < 2 ^ 61

instance (b : PixelBox) (bands : Nat) : Decidable (b.HasRaster bands) :=
  inferInstanceAs (Decidable (_ ∧ _))

theorem HasWordSides.hasRaster_iff (h : b.HasWordSides) {bands : Nat} :
    b.HasRaster bands ↔ Raster.hasBuffer b.width.toNat b.height.toNat bands = true := by
  rw [HasRaster, and_iff_right h, Raster.hasBuffer, decide_eq_true_eq]
  rfl

theorem HasRaster.hasBuffer {bands : Nat} (h : b.HasRaster bands) :
    Raster.hasBuffer b.width.toNat b.height.toNat bands = true :=
  h.1.hasRaster_iff.mp h

theorem inter?_eq_none_of_isEmpty (a : PixelBox) (h : b.isEmpty = true) : a.inter? b = none := by
  rw [← Option.not_isSome_iff_eq_none, inter?_isSome_iff]
  rintro ⟨x, y, -, hb⟩
  have hpixel : b.isEmpty = false := isEmpty_eq_false_iff.mpr (by simp only [Mem] at hb; omega)
  simp [hpixel] at h

end PixelBox

namespace Raster

variable {σ : Type} [Arith σ]

theorem hasRaster_of_read? {r r' : Raster σ} {region : PixelBox} (h : region.HasWordSides)
    (hread : r.read? region = some r') : region.HasRaster r.bands := by
  rw [h.hasRaster_iff]
  by_contra hbuffer
  simp [read?, h.wordCols_eq, h.wordRows_eq, hbuffer] at hread

/-- A region that has a raster can be read, and what is read is the part of the raster in it. -/
theorem read?_eq_some (r : Raster σ) {region : PixelBox} (hregion : region.HasRaster r.bands) :
    r.read? region = some (r.region region) := by
  have hbuffer := hregion.hasBuffer
  obtain ⟨h, -⟩ := hregion
  cases ho : r.box.inter? region with
  | none =>
    simp only [read?, ho, h.wordCols_eq, h.wordRows_eq, if_pos hbuffer]
    refine congrArg some (tabulate_congr fun u hu v hv => (if_neg fun hin => ?_).symm)
    refine PixelBox.inter?_eq_none ho hin ?_
    simp only [PixelBox.Mem, PixelBox.width, PixelBox.height] at hu hv ⊢
    omega
  | some o =>
    let start : Raster σ := blank region.width.toNat region.height.toNat r.bands r.channel
    let change (place : Int × Int) (_ : Pixel σ) := r.pixel place.1.toNat place.2.toNat
    let cells := o.places.foldl (fun cells place =>
      cells.modify ((place.2 - region.minY).toNat * region.width.toNat +
        (place.1 - region.minX).toNat) (change place)) start.pixels
    have hread : r.read? region = some { start with pixels := cells } := by
      have hcells := h.foldlM_update? id change
        (fun _ hplace => PixelBox.mem_of_mem_places ho hplace)
        (size_blank region.width.toNat region.height.toNat r.bands r.channel)
      simp only [id] at hcells
      simp only [read?, ho, h.wordCols_eq, h.wordRows_eq, if_pos hbuffer]
      exact congrArg (Option.map _) hcells
    have hsize : cells.size = region.width.toNat * region.height.toNat :=
      (PixelBox.size_foldl_places ho change _).trans (size_blank ..)
    rw [hread, eq_tabulate (r := { start with pixels := cells }) hsize]
    refine congrArg some (tabulate_congr fun u hu v hv => ?_)
    have hclear : start.pixels[v * region.width.toNat + u]? = some (.clear r.bands) :=
      pixel?_tabulate hu hv
    change (cells[v * region.width.toNat + u]?).getD _ = _
    rw [PixelBox.getElem?_foldl_places ho change _ hu hv, hclear]
    exact apply_ite (Option.getD · _) _ _ _

end Raster

namespace Composite

section
variable {α σ : Type} {c : Composite α σ}

/-- A region has a raster, and on the canvas it lies at a place of 64 bits. -/
def IsCounted (c : Composite α σ) (region : PixelBox) : Prop :=
  region.HasRaster c.bands ∧ (c.canvasBox region).IsIndexed

instance (c : Composite α σ) (region : PixelBox) : Decidable (c.IsCounted region) :=
  inferInstanceAs (Decidable (_ ∧ _))

theorem hasMoreBands_canvasBox (hlayers : ∀ l ∈ c.layers, l.box.IsIndexed) (region : PixelBox) :
    c.hasMoreBands (c.canvasBox region) = !c.isReadable region := by
  rw [hasMoreBands, isReadable, List.not_all_eq_any_not, Bool.eq_iff_iff]
  simp only [List.any_eq_true]
  refine exists_congr fun l => and_congr_right fun hl => ?_
  rw [PixelBox.wrap_eq (hlayers l hl)]
  simp

theorem hasWordSides_canvasBox (c : Composite α σ) {region : PixelBox} (h : region.HasWordSides) :
    (c.canvasBox region).HasWordSides := by
  rw [PixelBox.HasWordSides, c.width_canvasBox, c.height_canvasBox]
  exact h

/-- The canvas without the view. -/
def withoutView (c : Composite α σ) : Composite α σ := { c with view := none }

/-- The canvas without the view and without the layers. -/
def withoutLayers (c : Composite α σ) : Composite α σ := { c with layers := [], view := none }

theorem canvasBox_of_view_eq_none (h : c.view = none) (region : PixelBox) :
    c.canvasBox region = region := by
  simp [canvasBox, origin, h, PixelBox.translate]

theorem isReadable_of_view_eq_none (c : Composite α σ) (hview : c.view = none)
    (hlayers : ∀ l ∈ c.layers, l.box.IsIndexed) {canvas : PixelBox}
    (hbands : c.hasMoreBands canvas = false) : c.isReadable canvas = true := by
  rw [← canvasBox_of_view_eq_none hview canvas, hasMoreBands_canvasBox hlayers] at hbands
  simpa using hbands

theorem sides_wrap_canvasBox (c : Composite α σ) {region : PixelBox} (h : region.HasWordSides)
    (hpixel : region.isEmpty = false) (hwrap : (c.canvasBox region).wrap.isEmpty = false) :
    (c.canvasBox region).wrap.width = region.width ∧
      (c.canvasBox region).wrap.height = region.height := by
  have hw : (c.canvasBox region).width = region.width := c.width_canvasBox region
  have hh : (c.canvasBox region).height = region.height := c.height_canvasBox region
  have hpixel' : (c.canvasBox region).isEmpty = false := by
    rw [PixelBox.isEmpty, hw, hh]
    exact hpixel
  rw [← hw, ← hh]
  exact (c.hasWordSides_canvasBox h).sides_wrap hpixel' hwrap

end

variable {α σ : Type} [Cartography α] [Arith σ] [Narrow α σ] {c : Composite α σ}

section
variable {β : Type} {canvas : PixelBox}

theorem paint?_eq_some (hcanvas : canvas.HasWordSides) (put : β → Pixel σ → β) {cells : Array β}
    (hsize : cells.size = canvas.width.toNat * canvas.height.toNat) {l : Layer α σ}
    (hl : l.box.IsIndexed) :
    c.paint? put canvas canvas.width.toNat cells l = some (c.paint put canvas cells l) := by
  have hwrap : l.box.wrap = l.box := PixelBox.wrap_eq hl
  cases ho : l.box.inter? canvas with
  | none => simp [paint?, strokes, paint, hwrap, ho]
  | some o =>
    have hstrokes : ∀ s ∈ c.strokes canvas l, canvas.Mem s.1.1 s.1.2 := by
      intro s hs
      simp only [strokes, hwrap, ho] at hs
      obtain ⟨place, hplace, rfl⟩ := List.mem_map.mp (List.mem_filter.mp hs).1
      exact PixelBox.mem_of_mem_places ho hplace
    have hcells := hcanvas.foldlM_update? Prod.fst (fun s b => put b s.2) hstrokes hsize
    refine hcells.trans (congrArg some ?_)
    simp only [strokes, hwrap, ho, List.foldl_filter, List.foldl_map, foldl_places, paint,
      decide_eq_true_eq, ite_not]

theorem foldlM_paint? (hcanvas : canvas.HasWordSides) (put : β → Pixel σ → β)
    {ls : List (Layer α σ)} (hls : ∀ l ∈ ls, l.box.IsIndexed) {cells : Array β}
    (hsize : cells.size = canvas.width.toNat * canvas.height.toNat) :
    ls.foldlM (c.paint? put canvas canvas.width.toNat) cells =
      some (ls.foldl (c.paint put canvas) cells) := by
  induction ls generalizing cells with
  | nil => rfl
  | cons l ls ih =>
    obtain ⟨hl, hls⟩ := List.forall_mem_cons.mp hls
    rw [List.foldlM_cons, paint?_eq_some hcanvas put hsize hl, Option.bind_eq_bind,
      Option.bind_some, List.foldl_cons]
    exact ih hls ((c.size_paint ..).trans hsize)

end

/-- A region that has a raster and a place of 64 bits can be read if no layer in it has too many
bands, and what is read is the region. -/
theorem read?_eq_some (hlayers : ∀ l ∈ c.layers, l.box.IsIndexed) {region : PixelBox}
    (h : c.IsCounted region) (hread : c.isReadable region = true) :
    c.read? region = some (c.region region) := by
  have hbuffer := h.1.hasBuffer
  obtain ⟨⟨h, -⟩, hplace⟩ := h
  have hwidth : (c.canvasBox region).width = region.width := c.width_canvasBox region
  have hheight : (c.canvasBox region).height = region.height := c.height_canvasBox region
  have hcanvas := c.hasWordSides_canvasBox h
  have hpaint {β : Type} (put : β → Pixel σ → β) (start : β) :
      c.layers.foldlM (c.paint? put (c.canvasBox region) region.width.toNat)
          (.replicate (region.width.toNat * region.height.toNat) start) =
        some (c.paintAll put start (c.canvasBox region)) := by
    rw [← hwidth, ← hheight]
    exact foldlM_paint? hcanvas put hlayers Array.size_replicate
  have hsize := c.size_region region
  simp only [read?, h.wordCols_eq, h.wordRows_eq, hbuffer, PixelBox.wrap_eq hplace,
    hasMoreBands_canvasBox hlayers, Bool.not_true, Bool.false_eq_true, if_false]
  by_cases hnone : region.width.toNat = 0 ∨ region.height.toNat = 0
  · have hempty : (c.region region).pixels = #[] := by
      rw [← Array.size_eq_zero_iff, hsize, Nat.mul_eq_zero]
      exact hnone
    rw [if_pos hnone, ← hempty]
    rfl
  · rw [if_neg hnone, hread, Composite.region]
    cases c.draft <;> simp [hpaint]

/-- What is read in a region, with its place on the canvas cut to 64 bits. Nothing is shown in a
region that wraps around between its corners. -/
def wrappedRegion (c : Composite α σ) (region : PixelBox) : Raster σ :=
  let canvas := (c.canvasBox region).wrap
  if region.isEmpty || canvas.isEmpty then c.withoutLayers.region region
  else c.withoutView.region canvas

theorem read?_eq_none {region : PixelBox} (h : region.HasWordSides)
    (hbuffer : ¬ region.HasRaster c.bands) : c.read? region = none := by
  rw [h.hasRaster_iff] at hbuffer
  simp [read?, h.wordCols_eq, h.wordRows_eq, hbuffer]

theorem read?_of_isEmpty {region : PixelBox} (h : region.HasRaster c.bands)
    (hempty : region.isEmpty = true) : c.read? region = some (c.withoutLayers.region region) := by
  have hbuffer := h.hasBuffer
  obtain ⟨h, -⟩ := h
  have hnone : region.width.toNat = 0 ∨ region.height.toNat = 0 := by
    simpa [PixelBox.isEmpty] using hempty
  have hpixels : (c.withoutLayers.region region).pixels = #[] := by
    rw [← Array.size_eq_zero_iff, size_region, Nat.mul_eq_zero]
    exact hnone
  simp only [read?, h.wordCols_eq, h.wordRows_eq, hbuffer, Bool.not_true, Bool.false_eq_true,
    if_false, if_pos hnone]
  rw [← hpixels]
  rfl

theorem read?_of_isEmpty_wrap {region : PixelBox} (h : region.HasRaster c.bands)
    (hpixel : region.isEmpty = false) (hempty : (c.canvasBox region).wrap.isEmpty = true) :
    c.read? region = some (c.withoutLayers.region region) := by
  have hbuffer := h.hasBuffer
  obtain ⟨h, -⟩ := h
  have hnone (l : Layer α σ) : l.box.wrap.inter? (c.canvasBox region).wrap = none :=
    PixelBox.inter?_eq_none_of_isEmpty _ hempty
  have hbands : c.hasMoreBands (c.canvasBox region).wrap = false := by
    simp [hasMoreBands, hnone]
  have hpaint {β : Type} (put : β → Pixel σ → β) (width : Nat) (cells : Array β) :
      c.layers.foldlM (c.paint? put (c.canvasBox region).wrap width) cells = some cells := by
    have hlayer (l : Layer α σ) :
        c.paint? put (c.canvasBox region).wrap width cells l = some cells := by
      rw [paint?, strokes, hnone]
      rfl
    induction c.layers with
    | nil => rfl
    | cons l ls ih => rw [List.foldlM_cons, hlayer, Option.bind_eq_bind, Option.bind_some, ih]
  have hsides : ¬ (region.width.toNat = 0 ∨ region.height.toNat = 0) := by
    simpa [PixelBox.isEmpty] using hpixel
  have hcanvas : c.withoutLayers.canvasBox region = region := canvasBox_of_view_eq_none rfl region
  simp only [read?, h.wordCols_eq, h.wordRows_eq, hbuffer, hbands, hpaint, Bool.not_true,
    Bool.false_eq_true, if_false, if_neg hsides, Composite.region, paintAll, hcanvas]
  cases hdraft : c.draft <;> simp [withoutLayers, hdraft]

/-- A region is read at the place on the canvas that it wraps around to. -/
theorem read?_eq_withoutView {region : PixelBox} (h : region.HasWordSides)
    (hpixel : region.isEmpty = false) (hwrap : (c.canvasBox region).wrap.isEmpty = false) :
    c.read? region = c.withoutView.read? (c.canvasBox region).wrap := by
  obtain ⟨hwidth, hheight⟩ := c.sides_wrap_canvasBox h hpixel hwrap
  have hplace : c.withoutView.canvasBox (c.canvasBox region).wrap = (c.canvasBox region).wrap :=
    canvasBox_of_view_eq_none rfl _
  simp only [read?, hplace, PixelBox.wrap_eq (PixelBox.isIndexed_wrap _), PixelBox.wordCols,
    PixelBox.wordRows, hwidth, hheight]
  rfl

/-- A region that has a raster is read at the place it wraps around to, unless a layer there has too
many bands. -/
theorem read?_eq_ite (hlayers : ∀ l ∈ c.layers, l.box.IsIndexed) {region : PixelBox}
    (h : region.HasRaster c.bands) :
    c.read? region =
      if !region.isEmpty && c.hasMoreBands (c.canvasBox region).wrap then none
      else some (c.wrappedRegion region) := by
  cases hpixel : region.isEmpty with
  | true => simp [wrappedRegion, hpixel, read?_of_isEmpty h hpixel]
  | false =>
    cases hwrap : (c.canvasBox region).wrap.isEmpty with
    | true =>
      have hbands : c.hasMoreBands (c.canvasBox region).wrap = false := by
        simp [hasMoreBands, PixelBox.inter?_eq_none_of_isEmpty _ hwrap]
      simp [wrappedRegion, hwrap, hbands, read?_of_isEmpty_wrap h hpixel hwrap]
    | false =>
      cases hbands : c.hasMoreBands (c.canvasBox region).wrap with
      | true =>
        have hsides : 0 < region.width ∧ 0 < region.height := by
          simpa [PixelBox.isEmpty] using hpixel
        simp [read?, h.1.wordCols_eq, h.1.wordRows_eq, h.hasBuffer, hsides, hbands]
      | false =>
        obtain ⟨hwidth, hheight⟩ := c.sides_wrap_canvasBox h.1 hpixel hwrap
        have hcounted : c.withoutView.IsCounted (c.canvasBox region).wrap := by
          rw [IsCounted, PixelBox.HasRaster, PixelBox.HasWordSides, hwidth, hheight,
            canvasBox_of_view_eq_none rfl]
          exact ⟨h, PixelBox.isIndexed_wrap _⟩
        have hreadable := c.withoutView.isReadable_of_view_eq_none rfl hlayers hbands
        have hread := read?_eq_some (c := c.withoutView) hlayers hcounted hreadable
        simp [read?_eq_withoutView h.1 hpixel hwrap, hread, wrappedRegion, hpixel, hwrap]

theorem read?_eq_wrappedRegion (hlayers : ∀ l ∈ c.layers, l.box.IsIndexed) {region : PixelBox}
    (h : region.HasRaster c.bands) (hbands : c.hasMoreBands (c.canvasBox region).wrap = false) :
    c.read? region = some (c.wrappedRegion region) := by
  rw [read?_eq_ite hlayers h, hbands, Bool.and_false, if_neg Bool.false_ne_true]

theorem read?_leaf (hlayers : ∀ l ∈ c.layers, l.box.IsIndexed) {tileSize maxLevel : Nat}
    (hside : tileSize < 2 ^ 32) (hbuffer : tileSize * tileSize * (c.bands + 1) < 2 ^ 61)
    {crop : PixelBox} {t n : Tree (RenderedTile σ)}
    (h : c.tileSource.render tileSize crop maxLevel (.ofCell tileSize maxLevel 0 0 0) = some t)
    (hcut : c.canBeCut (t.map RenderedTile.tile) = true) (hn : n ∈ t.preorder)
    (hlevel : n.value.tile.level = maxLevel) (hplace : (c.canvasBox n.value.tile.box).IsIndexed) :
    c.read? n.value.tile.box = some n.value.raster := by
  obtain ⟨level, left, x, y, hlevels, -, hr, -⟩ :=
    c.tileSource.mem_preorder_render (Nat.zero_add maxLevel) h hn
  have htile := c.tileSource.render_tile hr
  obtain rfl : left = 0 := by
    rw [htile] at hlevel
    change level = maxLevel at hlevel
    omega
  rw [Nat.add_zero] at hlevels
  subst hlevels
  have hread : c.isReadable n.value.tile.box = true := by
    have hleaf : (n.map RenderedTile.tile).isLeaf = true := by
      rw [Tree.isLeaf, Tree.children_map, c.tileSource.render_children_zero hr]
      rfl
    rw [canBeCut, Tree.preorder_map, List.all_map, List.all_eq_true] at hcut
    simpa [hleaf] using hcut n hn
  have hsides : n.value.tile.box.HasRaster c.bands := by
    have hbox : n.value.tile.box = .square tileSize x y := by
      rw [htile, Tile.ofCell, Nat.sub_self, Nat.pow_zero, Nat.mul_one]
    obtain ⟨hsides, hwidth, hheight⟩ := PixelBox.sides_square hside x y
    rw [hbox, PixelBox.HasRaster, hwidth, hheight]
    exact ⟨hsides, hbuffer⟩
  rw [read?_eq_some hlayers ⟨hsides, hplace⟩ hread, c.tileSource.raster_render_zero hr, ← htile]
  rfl

end Composite
end TilePyramid
