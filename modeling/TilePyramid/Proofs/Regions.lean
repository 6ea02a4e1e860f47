import TilePyramid.Mosaic.Composite
import TilePyramid.Proofs.Sweep

/-!
# Regions pixel by pixel

A region is asked for as a box, but what one of its pixels shows depends on the place of that
pixel alone. For a raster this is its definition. A composite paints layer by layer onto the cells
of the whole box; each layer changes the cells it covers once, so that a cell ends up as the fold
over the layers that show something at its place.
-/
namespace TilePyramid

namespace PixelBox

theorem inter?_eq_some {a b o : PixelBox} (h : a.inter? b = some o) :
    o = a.crop b ∧ o.minX < o.maxX ∧ o.minY < o.maxY := by
  simp only [inter?] at h
  split at h
  · cases h
  · next hne =>
    obtain rfl : a.crop b = o := Option.some.inj h
    exact ⟨rfl, isEmpty_eq_false_iff.mp (by simpa using hne)⟩

theorem inter?_eq_none {a b : PixelBox} (h : a.inter? b = none) {x y : Int} (ha : a.Mem x y) :
    ¬ b.Mem x y := by
  intro hb
  have hsome := inter?_isSome_iff.mpr ⟨x, y, ha, hb⟩
  rw [h] at hsome
  cases hsome

end PixelBox

namespace Composite

theorem width_canvasBox {α σ : Type} (c : Composite α σ) (region : PixelBox) :
    (c.canvasBox region).width = region.width := by
  simp only [canvasBox, PixelBox.translate, PixelBox.width]
  omega

theorem height_canvasBox {α σ : Type} (c : Composite α σ) (region : PixelBox) :
    (c.canvasBox region).height = region.height := by
  simp only [canvasBox, PixelBox.translate, PixelBox.height]
  omega

theorem isReadable_of_bands_le {α σ : Type} {c : Composite α σ}
    (h : ∀ l ∈ c.layers, l.placement.image.bands ≤ c.bands) (region : PixelBox) :
    c.isReadable region = true := by
  simp only [Composite.isReadable, List.all_eq_true, Bool.or_eq_true, decide_eq_true_eq]
  exact fun l hl => .inl (h l hl)

section
variable {α σ : Type} [Cartography α] [Arith σ] [Narrow α σ]

/-- What a layer shows at a canvas pixel: its pixel there, if the layer covers the place and the
pixel has more than no alpha. -/
def shown? (c : Composite α σ) (x y : Int) (l : Layer α σ) : Option (Pixel σ) :=
  if l.box.Mem x y ∧ ¬ (c.layerPixel l x y).alpha ≤ ofInt 0 then some (c.layerPixel l x y)
  else none

/-- The pixels that the layers show at a canvas pixel, from the lowest layer to the highest. -/
def shownAt (c : Composite α σ) (x y : Int) : List (Pixel σ) := c.layers.filterMap (c.shown? x y)

/-- The pixel of the composite at a place on the canvas: the highest pixel shown in draft mode,
and all of them blended otherwise. -/
def look (c : Composite α σ) (x y : Int) : Pixel σ :=
  if c.draft then (c.shownAt x y).getLast?.getD (.clear c.bands)
  else ((c.shownAt x y).foldl Blended.add (.clear c.bands)).pixel

variable {β : Type}

private def stroke (c : Composite α σ) (put : β → Pixel σ → β) (l : Layer α σ) (x y : Int)
    (b : β) : β :=
  if (c.layerPixel l x y).alpha ≤ ofInt 0 then b else put b (c.layerPixel l x y)

private theorem modify_stroke (c : Composite α σ) (put : β → Pixel σ → β) (l : Layer α σ)
    (x y : Int) (cells : Array β) (i : Nat) :
    (if (c.layerPixel l x y).alpha ≤ ofInt 0 then cells
      else cells.modify i fun b => put b (c.layerPixel l x y)) =
      cells.modify i (c.stroke put l x y) := by
  by_cases h : (c.layerPixel l x y).alpha ≤ ofInt 0
  · have hid : c.stroke put l x y = id := by
      funext b
      exact if_pos h
    rw [if_pos h, hid]
    apply Array.ext
    · exact Array.size_modify.symm
    · intro j hj hj'
      rw [Array.getElem_modify]
      split <;> rfl
  · have hput : c.stroke put l x y = fun b => put b (c.layerPixel l x y) := by
      funext b
      exact if_neg h
    rw [if_neg h, hput]

private theorem paint_eq_sweep (c : Composite α σ) (put : β → Pixel σ → β) (canvas : PixelBox)
    (cells : Array β) (l : Layer α σ) {o : PixelBox} (h : l.box.inter? canvas = some o) :
    c.paint put canvas cells l =
      sweep canvas.width.toNat (o.minX - canvas.minX).toNat (o.minY - canvas.minY).toNat
        o.width.toNat o.height.toNat
        (fun dx dy => c.stroke put l (o.minX + dx) (o.minY + dy)) cells := by
  obtain ⟨ho, -⟩ := PixelBox.inter?_eq_some h
  have hleft : canvas.minX ≤ o.minX := by rw [ho]; exact Int.le_max_right ..
  have htop : canvas.minY ≤ o.minY := by rw [ho]; exact Int.le_max_right ..
  have hcolumn (dx : Nat) :
      (o.minX + dx - canvas.minX).toNat = (o.minX - canvas.minX).toNat + dx := by omega
  have hrow (dy : Nat) :
      (o.minY + dy - canvas.minY).toNat = (o.minY - canvas.minY).toNat + dy := by omega
  simp only [paint, h, modify_stroke, hcolumn, hrow]
  rfl

private theorem getElem?_paint (c : Composite α σ) (put : β → Pixel σ → β) (canvas : PixelBox)
    (cells : Array β) (l : Layer α σ) {i j : Nat} (hi : i < canvas.width.toNat)
    (hj : j < canvas.height.toNat) :
    (c.paint put canvas cells l)[j * canvas.width.toNat + i]? =
      (cells[j * canvas.width.toNat + i]?).map fun b =>
        match c.shown? (canvas.minX + i) (canvas.minY + j) l with
        | some p => put b p
        | none => b := by
  have hcanvas : canvas.Mem (canvas.minX + i) (canvas.minY + j) := by
    simp only [PixelBox.Mem, PixelBox.width, PixelBox.height] at hi hj ⊢
    omega
  cases h : l.box.inter? canvas with
  | none =>
    have hout : ¬ l.box.Mem (canvas.minX + i) (canvas.minY + j) :=
      fun hl => PixelBox.inter?_eq_none h hl hcanvas
    have hshown : c.shown? (canvas.minX + i) (canvas.minY + j) l = none :=
      if_neg fun hl => hout hl.1
    simp only [paint, h, hshown, Option.map_id_fun', id_eq]
  | some o =>
    obtain ⟨ho, hw, hh⟩ := PixelBox.inter?_eq_some h
    have hmem : o.Mem (canvas.minX + i) (canvas.minY + j) ↔
        l.box.Mem (canvas.minX + i) (canvas.minY + j) := by
      rw [ho, PixelBox.mem_crop]
      exact and_iff_left hcanvas
    have hin : canvas.minX ≤ o.minX ∧ o.maxX ≤ canvas.maxX ∧ canvas.minY ≤ o.minY := by
      simp only [ho, PixelBox.crop] at hw ⊢
      omega
    -- Columns and rows of the sweep are counted from the overlap, those of the cells from the box.
    rw [c.paint_eq_sweep put canvas cells l h,
      getElem?_sweep _ _ (by simp only [PixelBox.width]; omega) hi]
    by_cases hl : l.box.Mem (canvas.minX + i) (canvas.minY + j)
    · have hbox := hmem.mpr hl
      simp only [PixelBox.Mem] at hbox
      rw [if_pos (by simp only [PixelBox.width, PixelBox.height]; omega)]
      have hx : o.minX + ((i - (o.minX - canvas.minX).toNat : Nat) : Int) = canvas.minX + i := by
        omega
      have hy : o.minY + ((j - (o.minY - canvas.minY).toNat : Nat) : Int) = canvas.minY + j := by
        omega
      rw [hx, hy]
      congr 1
      funext b
      by_cases hp : (c.layerPixel l (canvas.minX + i) (canvas.minY + j)).alpha ≤ ofInt 0
      · simp only [stroke, shown?, hp, hl, not_true, and_false, if_true, if_false]
      · simp only [stroke, shown?, hp, hl, not_false_eq_true, and_true, if_true, if_false]
    · have hbox := mt hmem.mp hl
      simp only [PixelBox.Mem] at hbox
      rw [if_neg (by simp only [PixelBox.width, PixelBox.height]; omega)]
      have hshown : c.shown? (canvas.minX + i) (canvas.minY + j) l = none :=
        if_neg fun h => hl h.1
      simp only [hshown, Option.map_id_fun', id_eq]

theorem getElem?_paintAll (c : Composite α σ) (put : β → Pixel σ → β) (start : β)
    (canvas : PixelBox) {i j : Nat} (hi : i < canvas.width.toNat) (hj : j < canvas.height.toNat) :
    (c.paintAll put start canvas)[j * canvas.width.toNat + i]? =
      some ((c.shownAt (canvas.minX + i) (canvas.minY + j)).foldl put start) := by
  have run (ls : List (Layer α σ)) (cells : Array β) (b : β)
      (hb : cells[j * canvas.width.toNat + i]? = some b) :
      (ls.foldl (c.paint put canvas) cells)[j * canvas.width.toNat + i]? =
        some ((ls.filterMap (c.shown? (canvas.minX + i) (canvas.minY + j))).foldl put b) := by
    induction ls generalizing cells b with
    | nil => exact hb
    | cons l ls ih =>
      have hstep := c.getElem?_paint put canvas cells l hi hj
      rw [hb, Option.map_some] at hstep
      rw [List.foldl_cons, ih _ _ hstep]
      cases hs : c.shown? (canvas.minX + i) (canvas.minY + j) l <;>
        simp only [List.filterMap_cons, hs, List.foldl_cons]
  have hlt := gridIndex_lt hi hj
  refine run c.layers _ start ?_
  rw [Array.getElem?_replicate, if_pos hlt]

theorem size_paint (c : Composite α σ) (put : β → Pixel σ → β) (canvas : PixelBox)
    (cells : Array β) (l : Layer α σ) : (c.paint put canvas cells l).size = cells.size := by
  cases h : l.box.inter? canvas with
  | none => simp only [paint, h]
  | some o =>
    rw [c.paint_eq_sweep put canvas cells l h]
    exact size_sweep ..

theorem size_paintAll (c : Composite α σ) (put : β → Pixel σ → β) (start : β)
    (canvas : PixelBox) :
    (c.paintAll put start canvas).size = canvas.width.toNat * canvas.height.toNat := by
  have run (ls : List (Layer α σ)) (cells : Array β) :
      (ls.foldl (c.paint put canvas) cells).size = cells.size := by
    induction ls generalizing cells with
    | nil => rfl
    | cons l ls ih => rw [List.foldl_cons, ih, size_paint]
  rw [paintAll, run, Array.size_replicate]

private theorem foldl_last {γ : Type} (ps : List γ) (start : γ) :
    ps.foldl (fun _ p => p) start = ps.getLast?.getD start := by
  induction ps generalizing start with
  | nil => rfl
  | cons p ps ih =>
    rw [List.foldl_cons, ih, List.getLast?_cons]
    cases ps.getLast? <;> rfl

theorem size_region (c : Composite α σ) (region : PixelBox) :
    (c.region region).pixels.size = region.width.toNat * region.height.toNat := by
  rw [← c.width_canvasBox, ← c.height_canvasBox]
  simp only [Composite.region]
  split
  · exact c.size_paintAll ..
  · rw [Array.size_map]
    exact c.size_paintAll ..

/-- A pixel of a region is what the composite looks like at its place on the canvas. -/
theorem pixel_region_eq_look (c : Composite α σ) (region : PixelBox) {i j : Nat}
    (hi : i < region.width.toNat) (hj : j < region.height.toNat) :
    (c.region region).pixel i j =
      c.look (region.minX + c.origin.1 + i) (region.minY + c.origin.2 + j) := by
  have hw := c.width_canvasBox region
  have hh := c.height_canvasBox region
  have hcell (γ : Type) (put : γ → Pixel σ → γ) (start : γ) :=
    c.getElem?_paintAll put start (c.canvasBox region) (hw ▸ hi) (hh ▸ hj)
  rw [hw] at hcell
  simp only [Raster.pixel, Raster.pixel?, Composite.region, look]
  by_cases hd : c.draft = true
  · rw [if_pos hd, if_pos hd, hcell, Option.getD_some, foldl_last]
    rfl
  · rw [if_neg hd, if_neg hd, Array.getElem?_map, hcell, Option.map_some, Option.getD_some]
    rfl

end
end Composite

namespace TileSource

/-- A region has the size of its box, and shows at each place the same pixel, whatever the box
is. -/
structure Pointwise {σ : Type} [Arith σ] (source : TileSource σ)
    (look : Int → Int → Pixel σ) : Prop where
  width (b : PixelBox) : (source.region b).width = b.width.toNat
  height (b : PixelBox) : (source.region b).height = b.height.toNat
  size (b : PixelBox) : (source.region b).pixels.size = b.width.toNat * b.height.toNat
  pixel (b : PixelBox) {i j : Nat} (hi : i < b.width.toNat) (hj : j < b.height.toNat) :
    (source.region b).pixel i j = look (b.minX + i) (b.minY + j)

variable {α σ : Type} [Cartography α] [Arith σ] [Narrow α σ]

theorem pointwise_raster (r : Raster σ) :
    r.tileSource.Pointwise fun x y =>
      if r.box.Mem x y then r.pixel x.toNat y.toNat else .clear r.bands where
  width _ := rfl
  height _ := rfl
  size _ := Raster.size_tabulate ..
  pixel _ _ _ hi hj := Raster.pixel_tabulate hi hj

theorem pointwise_composite (c : Composite α σ) :
    c.tileSource.Pointwise fun x y => c.look (x + c.origin.1) (y + c.origin.2) where
  width _ := rfl
  height _ := rfl
  size := c.size_region
  pixel b i j hi hj := by
    have hx : b.minX + i + c.origin.1 = b.minX + c.origin.1 + i := by omega
    have hy : b.minY + j + c.origin.2 = b.minY + c.origin.2 + j := by omega
    rw [hx, hy]
    exact c.pixel_region_eq_look b hi hj

end TileSource
end TilePyramid
