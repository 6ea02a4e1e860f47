import TilePyramid.Proofs.DegreeGrids
import TilePyramid.Proofs.GridTransforms

/-!
# Images on the grid of the canvas

An image whose pixels are pixels of the canvas is not resampled. Canvas pixels are asked for at
their centres, which come back to centres of image pixels; there one of the four pixels around has
the whole share, whatever lies beyond the edge. A composite of the image alone weighs that pixel by
its alpha and divides by it again. What has no alpha is clear in the end, whatever its colour was.
-/
namespace TilePyramid

open ExactArith

/-- The pixel, or a clear one if it has no alpha. -/
def Pixel.visible {σ : Type} [Arith σ] (bands : Nat) (p : Pixel σ) : Pixel σ :=
  if ofInt 0 < p.alpha then p else .clear bands

/-- The image with nothing but zeros where it has no alpha. -/
def Raster.visible {σ : Type} [Arith σ] (r : Raster σ) : Raster σ := r.map (Pixel.visible r.bands)

section
variable {σ : Type} [Arith σ]

theorem Pixel.visible_visible (bands : Nat) (p : Pixel σ) :
    (p.visible bands).visible bands = p.visible bands := by
  by_cases h : ofInt 0 < p.alpha
  · simp only [visible, h, if_true]
  · simp only [visible, h, if_false, clear, ite_self]

theorem Pixel.length_colour_visible {bands : Nat} {p : Pixel σ} (h : p.colour.length = bands) :
    (p.visible bands).colour.length = bands := by
  rw [visible]
  split
  · exact h
  · exact List.length_replicate

theorem Raster.pixel_visible (r : Raster σ) (x y : Nat) :
    r.visible.pixel x y = (r.pixel x y).visible r.bands := by
  have hclear : (Pixel.clear r.bands : Pixel σ).visible r.bands = .clear r.bands := ite_self _
  have hmap : r.visible.pixel? x y = (r.pixel? x y).map (Pixel.visible r.bands) :=
    Array.getElem?_map
  rw [pixel, pixel, hmap]
  cases r.pixel? x y with
  | none => exact hclear.symm
  | some p => rfl

theorem Raster.WellFormed.pixel_mem {r : Raster σ} (hr : r.WellFormed) {x y : Nat}
    (hx : x < r.width) (hy : y < r.height) : r.pixel x y ∈ r.pixels := by
  have hlt : y * r.width + x < r.pixels.size := hr.1 ▸ gridIndex_lt hx hy
  rw [pixel, pixel?, Array.getElem?_eq_getElem hlt]
  exact Array.getElem_mem hlt

variable [ExactArith σ]

omit [Arith σ] [ExactArith σ] in
private theorem zipWith_replicate_length {τ : Type} (f : τ → σ → σ) (a : τ) (vs : List σ) :
    List.zipWith f (List.replicate vs.length a) vs = vs.map (f a) := by
  induction vs with
  | nil => rfl
  | cons v vs ih =>
    rw [List.length_cons, List.replicate_succ, List.zipWith_cons_cons, ih, List.map_cons]

private theorem mean_single {w : σ} (hw : value w ≠ 0) (vs : List σ) :
    (List.zipWith (fun c v => c + v * w) (List.replicate vs.length (ofInt 0)) vs).map (· / w) =
      vs := by
  have hv (v : σ) : (ofInt 0 + v * w) / w = v := value_injective (by simp [hw])
  rw [zipWith_replicate_length, List.map_map]
  exact (List.map_congr_left fun v _ => hv v).trans (List.map_id _)

private theorem sum_weightless {w : σ} (hw : value w = 0) (vs : List σ) :
    List.zipWith (fun c v => c + v * w) (List.replicate vs.length (ofInt 0)) vs =
      List.replicate vs.length (ofInt 0) := by
  have hv (v : σ) : ofInt 0 + v * w = ofInt 0 := value_injective (by simp [hw])
  rw [zipWith_replicate_length]
  exact (List.map_congr_left fun v _ => hv v).trans List.map_const'

theorem zero_lt_iff_not_le (v : σ) : ofInt 0 < v ↔ ¬ v ≤ ofInt 0 := by
  rw [lt_iff, le_iff, not_le]

theorem Weighted.pixel_single {p : Pixel σ} (halpha : ofInt 0 ≤ p.alpha) :
    Weighted.pixel ⟨List.zipWith (fun c v => c + v * p.alpha)
        (List.replicate p.colour.length (ofInt 0)) p.colour, p.alpha⟩ =
      p.visible p.colour.length := by
  rw [pixel, Pixel.visible]
  split
  · next h =>
    rw [lt_iff, value_ofInt, Int.cast_zero] at h
    rw [mean_single h.ne']
  · next h =>
    have hzero : p.alpha = ofInt 0 :=
      value_injective (le_antisymm (not_lt.mp (mt (lt_iff _ _).mpr h)) ((le_iff _ _).mp halpha))
    rw [sum_weightless (by rw [hzero]; simp), hzero]
    rfl

theorem Blended.pixel_clear (bands : Nat) : (clear bands : Blended σ).pixel = .clear bands := by
  have hzero : ¬ (ofInt 0 : σ) < ofInt 0 := by rw [lt_iff]; exact lt_irrefl _
  exact congrArg (Pixel.mk · (ofInt 0)) (if_neg hzero)

theorem Blended.pixel_single {p : Pixel σ} (halpha : ofInt 0 < p.alpha) :
    ((Blended.clear p.colour.length).add p).pixel = p := by
  have hweight : ofInt 0 + p.alpha = p.alpha := value_injective (by simp)
  have hgreater : Arith.greater (ofInt 0) p.alpha = p.alpha :=
    value_injective ((value_greater _ _).trans (max_eq_right ((lt_iff _ _).mp halpha).le))
  have hne : value p.alpha ≠ 0 := by
    rw [lt_iff, value_ofInt, Int.cast_zero] at halpha
    exact halpha.ne'
  simp only [clear, add, pixel, hweight, hgreater, if_pos halpha, mean_single hne]

end

section
variable {α σ : Type} [Arith α] [Arith σ] [ExactRounding α] [ExactRounding σ] [Narrow α σ]

theorem snap_ofInt (n : Int) : snap (ofInt n : α) = ofInt n := by
  have hround : Arith.round (ofInt n : α) = ofInt n :=
    value_injective (by rw [ExactRounding.value_round, value_ofInt, nearest_intCast])
  rw [snap, hround, ite_self]

theorem EdgeMode.place?_of_lt (e : EdgeMode) {width height x y : Nat} (hx : x < width)
    (hy : y < height) : e.place? width height x y = some (x, y) := by
  have hcolumn : (x : Int) % width = x := Int.emod_eq_of_lt (by omega) (by omega)
  have hindex {i size : Nat} (h : i < size) : clampIndex size i = i := by
    rw [clampIndex]
    omega
  cases e with
  | zero => simp [place?, hx, hy]
  | constant => simp [place?, hindex hx, hindex hy]
  | cylindrical =>
    simp only [place?, hindex hy, Int.toNat_natCast, Option.some.injEq, Prod.mk.injEq, and_true]
    exact congrArg Int.toNat hcolumn

omit [ExactRounding σ] in
private theorem taps_zero [ExactArith σ] (x y : Int) :
    taps x y (ofInt 0 : σ) (ofInt 0) =
      [(x, y, ofInt 1), (nextIndex x, y, ofInt 0), (x, nextIndex y, ofInt 0),
        (nextIndex x, nextIndex y, ofInt 0)] := by
  have hfirst : (ofInt 1 - ofInt 0 : σ) * (ofInt 1 - ofInt 0) = ofInt 1 :=
    value_injective (by simp)
  have hright : (ofInt 0 : σ) * (ofInt 1 - ofInt 0) = ofInt 0 := value_injective (by simp)
  have hbelow : (ofInt 1 - ofInt 0 : σ) * ofInt 0 = ofInt 0 := value_injective (by simp)
  have hlast : (ofInt 0 : σ) * ofInt 0 = ofInt 0 := value_injective (by simp)
  rw [taps, hfirst, hright, hbelow, hlast]

omit [ExactRounding σ] in
private theorem foldl_taps_zero [ExactArith σ] (r : Raster σ) (edge : EdgeMode) (x y : Int)
    (start : Weighted σ) :
    (taps x y (ofInt 0 : σ) (ofInt 0)).foldl (addTap r edge) start =
      addTap r edge start (x, y, ofInt 1) := by
  have hnothing (sum : Weighted σ) (a b : Int) : addTap r edge sum (a, b, ofInt 0) = sum :=
    if_pos ((le_iff _ _).mpr le_rfl)
  rw [taps_zero, List.foldl_cons, List.foldl_cons, List.foldl_cons, List.foldl_cons, List.foldl_nil,
    hnothing, hnothing, hnothing]

theorem Raster.sample_ofInt [ExactNarrow α σ] {r : Raster σ} (edge : EdgeMode) {x y : Nat}
    (hx : x < r.width) (hy : y < r.height)
    (hindexed : (PixelBox.ofImage r.width r.height).IsIndexed)
    (hcolour : (r.pixel x y).colour.length = r.bands) (halpha : ofInt 0 ≤ (r.pixel x y).alpha) :
    r.sample edge (ofInt x : α) (ofInt y) = (r.pixel x y).visible r.bands := by
  have hempty : r.isEmpty = false := by
    simp only [isEmpty, Bool.or_eq_false_iff, decide_eq_false_iff_not]
    omega
  have hfloor (n : Nat) : Arith.floor (ofInt n : α) = ofInt n := value_injective (by simp)
  have hfraction (n : Nat) : (narrow (ofInt n - ofInt n : α) : σ) = ofInt 0 :=
    value_injective (by rw [ExactNarrow.value_narrow]; simp)
  simp only [PixelBox.IsIndexed, PixelBox.ofImage, PixelBox.ofSize, List.forall_mem_cons]
    at hindexed
  have hcolumn : Arith.toInt (ofInt x : α) = x :=
    ExactRounding.toInt_ofInt _ (by omega) (by omega)
  have hrow : Arith.toInt (ofInt y : α) = y :=
    ExactRounding.toInt_ofInt _ (by omega) (by omega)
  have hwhole : addTap r edge ⟨List.replicate r.bands (ofInt 0), ofInt 0⟩ (x, y, ofInt 1) =
      ⟨List.zipWith (fun c v => c + v * (r.pixel x y).alpha) (List.replicate r.bands (ofInt 0))
        (r.pixel x y).colour, (r.pixel x y).alpha⟩ := by
    have hshare : ¬ (ofInt 1 : σ) ≤ ofInt 0 := by rw [le_iff]; simp
    have hweight : ofInt 1 * (r.pixel x y).alpha = (r.pixel x y).alpha :=
      value_injective (by simp)
    have hsum : ofInt 0 + (r.pixel x y).alpha = (r.pixel x y).alpha := value_injective (by simp)
    simp only [addTap, if_neg hshare, edge.place?_of_lt hx hy, hweight, hsum]
  have hsingle := Weighted.pixel_single halpha
  rw [hcolour] at hsingle
  simp only [sample, hempty, ExactArith.isFinite, Bool.not_true, Bool.or_false,
    Bool.false_eq_true, if_false, snap_ofInt, hfloor, hfraction, hcolumn, hrow, foldl_taps_zero,
    hwhole, hsingle]

end

section
variable {α σ : Type} [Cartography α] [Arith σ]

theorem Adjustments.apply_nothing (r : Raster σ) :
    (⟨none, none, none⟩ : Adjustments σ).apply r ⟨r.channel, none⟩ = r := by
  have hsame : r.toChannel r.channel = r := if_pos rfl
  simp only [apply, hsame, reduceCtorEq, if_false]

namespace Placement

/-- An image whose transform is a shift is placed by it, whatever lies beyond its edge. -/
theorem place_of_shifts [ExactCartography α] (input : PlacementInput α σ)
    {target : GeoReference α} {k l : Int}
    (h : (GridTransform.between input.georef target).Shifts k l)
    (hbox : (PixelBox.ofImage input.source.cols input.source.rows).isEmpty = false)
    (himage : (PixelBox.ofImage input.source.cols input.source.rows).IsIndexed)
    (hindexed : (PixelBox.ofSize k l input.source.cols input.source.rows).IsIndexed)
    (adjustments : Adjustments σ) :
    ∃ edge, place input target adjustments = .ok
      { name := input.source.name
        image := adjustments.apply input.source.raster ⟨input.channel, input.nodata⟩
        transform := .between input.georef target
        edge := edge
        shift := (ofInt 0, ofInt 0)
        box := .ofSize k l input.source.cols input.source.rows } := by
  have hmoved : (PixelBox.ofImage input.source.cols input.source.rows).translate k l =
      .ofSize k l input.source.cols input.source.rows := by
    simp only [PixelBox.ofImage, PixelBox.ofSize, PixelBox.translate, PixelBox.mk.injEq]
    omega
  have hforward := h.forwardBox hbox (by rwa [hmoved])
  rw [hmoved] at hforward
  have hplaced : ¬ (wrapIndex (PixelBox.ofSize k l input.source.cols input.source.rows).width ≤ 0
      ∨ wrapIndex (PixelBox.ofSize k l input.source.cols input.source.rows).height ≤ 0) := by
    simp only [PixelBox.isEmpty_eq_false_iff, PixelBox.IsIndexed, PixelBox.ofImage, PixelBox.ofSize,
      List.forall_mem_cons] at hbox himage
    simp only [PixelBox.width, PixelBox.height, PixelBox.ofSize, add_sub_cancel_left]
    rw [wrapIndex_eq (by omega) (by omega), wrapIndex_eq (by omega) (by omega)]
    omega
  obtain ⟨edge, -, hplace⟩ := place_of_fault?_eq_none input
    (h.fault?_eq_none input.source.cols input.source.rows) adjustments
  refine ⟨edge, hplace.trans ?_⟩
  simp only [hforward, if_neg hplaced]

variable [ExactRounding α] [Narrow α σ]

theorem sample_of_shifts {p : Placement α σ}
    (h : p.transform.Shifts p.box.minX p.box.minY) (hshift : p.shift = (ofInt 0, ofInt 0))
    (x y : Int) : p.sample x y = p.image.sample p.edge (ofInt x : α) (ofInt y) := by
  have hcentre (n m : Int) :
      ofInt (n + m) + ofInt 1 / ofInt 2 - ofInt n + ofInt 0 - ofInt 1 / ofInt 2 = (ofInt m : α) :=
    value_injective (by simp; ring)
  simp only [sample, h.reverse, hshift, hcentre]

end Placement

namespace Composite

theorem look_insert [ExactArith σ] [Narrow α σ] (draft : Bool) (view : Option PixelBox)
    (p : Placement α σ) (x y : Int) {u v : Int}
    (hcolour : (PixelBox.ofSize 0 0 p.box.width p.box.height).Mem u v →
      (p.sample u v).colour.length = p.image.bands) :
    ({ (empty draft).insert p x y with view := view } : Composite α σ).look (u + x) (v + y) =
      if (PixelBox.ofSize 0 0 p.box.width p.box.height).Mem u v then
        (p.sample u v).visible p.image.bands
      else .clear p.image.bands := by
  let c : Composite α σ := { (empty draft).insert p x y with view := view }
  have hlayer : c.layerPixel ⟨p, x, y⟩ (u + x) (v + y) = p.sample u v := by
    rw [layerPixel, Int.add_sub_cancel, Int.add_sub_cancel]
    exact if_neg (lt_irrefl _)
  have hbox : (Layer.box ⟨p, x, y⟩).Mem (u + x) (v + y) ↔
      (PixelBox.ofSize 0 0 p.box.width p.box.height).Mem u v := by
    simp only [Layer.box, PixelBox.ofSize, PixelBox.Mem]
    omega
  have hlist : c.shownAt (u + x) (v + y) = (c.shown? (u + x) (v + y) ⟨p, x, y⟩).toList := by
    change [(⟨p, x, y⟩ : Layer α σ)].filterMap (c.shown? (u + x) (v + y)) = _
    rw [List.filterMap_cons]
    cases c.shown? (u + x) (v + y) ⟨p, x, y⟩ <;> rfl
  -- What is not shown is clear in both modes: a fold over nothing has no weight to divide by.
  by_cases hshown : (PixelBox.ofSize 0 0 p.box.width p.box.height).Mem u v ∧
      ¬ (p.sample u v).alpha ≤ ofInt 0
  · have halpha := (zero_lt_iff_not_le _).mpr hshown.2
    have hsome : c.shown? (u + x) (v + y) ⟨p, x, y⟩ = some (p.sample u v) := by
      rw [shown?, hlayer, if_pos ⟨hbox.mpr hshown.1, hshown.2⟩]
    rw [look, hlist, hsome, if_pos hshown.1, Pixel.visible, if_pos halpha]
    split
    · rfl
    · have hsingle := Blended.pixel_single halpha
      rw [hcolour hshown.1] at hsingle
      exact hsingle
  · have hnone : c.shown? (u + x) (v + y) ⟨p, x, y⟩ = none := by
      rw [shown?, hlayer, if_neg fun h => hshown ⟨hbox.mp h.1, h.2⟩]
    have hclear : c.look (u + x) (v + y) = .clear p.image.bands := by
      rw [look, hlist, hnone]
      split
      · rfl
      · exact Blended.pixel_clear _
    rw [hclear]
    split
    · next hin =>
      rw [Pixel.visible, if_neg fun halpha => hshown ⟨hin, (zero_lt_iff_not_le _).mp halpha⟩]
    · rfl

variable [ExactArith σ] [Narrow α σ] {p : Placement α σ} {r : Raster σ}

private theorem look_insert_shown (hr : r.WellFormed) (hwidth : p.box.width = r.width)
    (hheight : p.box.height = r.height) (hbands : p.image.bands = r.bands)
    (hsample : ∀ i < r.width, ∀ j < r.height, p.sample i j = (r.pixel i j).visible r.bands)
    (draft : Bool) (view : Option PixelBox) (x y u v : Int) :
    ({ (empty draft).insert p x y with view := view } : Composite α σ).look (u + x) (v + y) =
      if r.box.Mem u v then r.visible.pixel u.toNat v.toNat else .clear r.bands := by
  have hbox : PixelBox.ofSize 0 0 p.box.width p.box.height = r.box := by
    rw [hwidth, hheight]
    rfl
  have hshown (h : r.box.Mem u v) :
      p.sample u v = (r.pixel u.toNat v.toNat).visible r.bands ∧
        (p.sample u v).colour.length = p.image.bands := by
    simp only [PixelBox.Mem, Raster.box, PixelBox.ofImage, PixelBox.ofSize] at h
    have hu : u.toNat < r.width := by omega
    have hv : v.toNat < r.height := by omega
    have hpixel := hsample _ hu _ hv
    rw [Int.toNat_of_nonneg h.1, Int.toNat_of_nonneg h.2.2.1] at hpixel
    rw [hpixel, hbands]
    exact ⟨rfl, Pixel.length_colour_visible (hr.2 _ (hr.pixel_mem hu hv))⟩
  rw [look_insert draft view p x y fun h => (hshown (hbox ▸ h)).2, hbox, hbands]
  split
  · next hin => rw [(hshown hin).1, Pixel.visible_visible, Raster.pixel_visible]
  · rfl

theorem region_insert (hr : r.WellFormed) (hwidth : p.box.width = r.width)
    (hheight : p.box.height = r.height) (hbands : p.image.bands = r.bands)
    (hchannel : p.image.channel = r.channel)
    (hsample : ∀ i < r.width, ∀ j < r.height, p.sample i j = (r.pixel i j).visible r.bands)
    (draft : Bool) (view : Option PixelBox) (x y : Int) (region : PixelBox) :
    let c : Composite α σ := { (empty draft).insert p x y with view := view }
    c.region region = r.visible.region (region.translate (c.origin.1 - x) (c.origin.2 - y)) := by
  intro c
  have htranslate (dx dy : Int) : (region.translate dx dy).width = region.width ∧
      (region.translate dx dy).height = region.height := by
    simp only [PixelBox.translate, PixelBox.width, PixelBox.height]
    omega
  refine (Raster.eq_tabulate (c.size_region region)).trans ?_
  simp only [Raster.region, (htranslate _ _).1, (htranslate _ _).2]
  change Raster.tabulate region.width.toNat region.height.toNat p.image.bands p.image.channel _ = _
  rw [hbands, hchannel]
  refine Raster.tabulate_congr fun i hi j hj => ?_
  have hcolumn : region.minX + c.origin.1 + i = region.minX + (c.origin.1 - x) + i + x := by omega
  have hrow : region.minY + c.origin.2 + j = region.minY + (c.origin.2 - y) + j + y := by omega
  rw [c.pixel_region_eq_look region hi hj, hcolumn, hrow]
  exact look_insert_shown hr hwidth hheight hbands hsample draft view x y _ _

end Composite

/-- An image on the grid of the canvas, with no adjustments and no nodata, passes through as it is,
also if it is an image of the whole globe. Corners of boxes are indices of 64 bits. -/
theorem Placement.place_onGrid [ExactCartography α] [ExactRounding σ] [Narrow α σ]
    [ExactNarrow α σ] {definition definition' : String} {datum datum' : Datum α}
    {stepX stepY originX originY : α} {k l : Int} {target georef : GeoReference α}
    (htarget : GeoReference.make definition datum (.steps stepX stepY originX originY) = .ok target)
    (htargetDegrees : target.isDegrees = true)
    (hgeoref : GeoReference.make definition' datum'
      (.steps stepX stepY (originX + ofInt k * stepX) (originY + ofInt l * stepY)) = .ok georef)
    (hdegrees : georef.isDegrees = true) {source : Source α σ} (hraster : source.raster.WellFormed)
    (hcols : 1 ≤ source.cols) (hrows : 1 ≤ source.rows)
    (halpha : ∀ p ∈ source.raster.pixels, ofInt 0 ≤ p.alpha)
    (himage : (PixelBox.ofImage source.cols source.rows).IsIndexed)
    (hplaced : (PixelBox.ofSize k l source.cols source.rows).IsIndexed) :
    ∃ p, place ⟨source, georef, source.raster.channel, none⟩ target ⟨none, none, none⟩ = .ok p ∧
      p.box = .ofSize k l source.cols source.rows ∧
      (∀ i < source.cols, ∀ j < source.rows,
        p.sample i j = (source.raster.pixel i j).visible source.raster.bands) ∧
      p.materialize = source.raster.visible ∧
      ∀ (draft : Bool) (view : Option PixelBox) (x y : Int) (region : PixelBox),
        let c : Composite α σ := { (Composite.empty draft).insert p x y with view := view }
        c.region region =
          source.raster.visible.region (region.translate (c.origin.1 - x) (c.origin.2 - y)) := by
  have hsource := GeoReference.isAffine_make hgeoref hdegrees
  have hcanvas := GeoReference.isAffine_make htarget htargetDegrees
  have hshifts : (GridTransform.between georef target).Shifts k l := by
    refine GridTransform.shifts_between hsource hcanvas fun x y => ?_
    rw [(GeoReference.make_eq_ok hgeoref).1, (GeoReference.make_eq_ok htarget).1]
    simp only [Affine.apply, Affine.steps]
    apply Prod.ext <;> apply value_injective (α := α) <;> simp <;> ring
  have hbox : (PixelBox.ofImage source.cols source.rows).isEmpty = false := by
    rw [PixelBox.isEmpty_eq_false_iff]
    simp only [PixelBox.ofImage, PixelBox.ofSize]
    omega
  obtain ⟨edge, hplace⟩ := place_of_shifts ⟨source, georef, source.raster.channel, none⟩
    hshifts hbox himage hplaced ⟨none, none, none⟩
  rw [Adjustments.apply_nothing] at hplace
  let p : Placement α σ :=
    ⟨source.name, source.raster, .between georef target, edge, (ofInt 0, ofInt 0),
      .ofSize k l source.cols source.rows⟩
  have hwidth : p.box.width = source.cols := add_sub_cancel_left _ _
  have hheight : p.box.height = source.rows := add_sub_cancel_left _ _
  have hsample (i : Nat) (hi : i < source.cols) (j : Nat) (hj : j < source.rows) :
      p.sample i j = (source.raster.pixel i j).visible source.raster.bands := by
    have hpixel := hraster.pixel_mem hi hj
    exact (sample_of_shifts (p := p) hshifts rfl i j).trans
      (Raster.sample_ofInt edge hi hj himage (hraster.2 _ hpixel) (halpha _ hpixel))
  refine ⟨p, hplace, rfl, hsample, ?_, fun draft view x y region =>
    Composite.region_insert hraster hwidth hheight rfl rfl hsample draft view x y region⟩
  have hvisible : source.raster.visible.pixels.size = source.cols * source.rows :=
    Array.size_map.trans hraster.1
  refine Eq.trans ?_ (Raster.eq_tabulate hvisible).symm
  rw [materialize, hwidth, hheight]
  refine Raster.tabulate_congr fun i hi j hj => ?_
  rw [hsample i hi j hj, Raster.pixel_visible]

end

/-- Two pixels, the second without alpha, three columns to the right of the canvas corner and two
rows above it. -/
theorem Placement.place_onGrid_pair :
    let pair : Source Rat Rat :=
      { name := "pair"
        raster := ⟨2, 1, 1, .u8, #[⟨[7], 255⟩, ⟨[9], 0⟩]⟩
        nodata := none
        georef := none }
    ∃ target georef : GeoReference Rat,
      GeoReference.ofDegrees (.steps (1 / 2) (-1 / 2) (-180) 90) .wgs84 = .ok target ∧
      GeoReference.ofDegrees (.steps (1 / 2) (-1 / 2) (-180 + ofInt 3 * (1 / 2))
        (90 + ofInt (-2) * (-1 / 2))) .wgs84 = .ok georef ∧
      ∃ p, place ⟨pair, georef, .u8, none⟩ target ⟨none, none, none⟩ = .ok p ∧
        p.box = .ofSize 3 (-2) 2 1 ∧
        p.materialize = ⟨2, 1, 1, .u8, #[⟨[7], 255⟩, ⟨[0], 0⟩]⟩ := by
  intro pair
  have hright : value (1 / 2 : Rat) ≠ 0 := by decide +kernel
  have hdown : value (-1 / 2 : Rat) ≠ 0 := by decide +kernel
  have hmade (west north : Rat) : ∃ g : GeoReference Rat,
      GeoReference.ofDegrees (.steps (1 / 2) (-1 / 2) west north) .wgs84 = .ok g :=
    GeoReference.exists_ofDegrees_eq_ok hright hdown .wgs84
  obtain ⟨target, htarget⟩ := hmade (-180) 90
  obtain ⟨georef, hgeoref⟩ := hmade (-180 + ofInt 3 * (1 / 2)) (90 + ofInt (-2) * (-1 / 2))
  have htargetDegrees : target.isDegrees = true := by
    rw [GeoReference.isDegrees, (GeoReference.ofDegrees_eq_ok htarget).2]
    rfl
  have hdegrees : georef.isDegrees = true := by
    rw [GeoReference.isDegrees, (GeoReference.ofDegrees_eq_ok hgeoref).2]
    rfl
  have hraster : pair.raster.WellFormed := by simp [Raster.WellFormed, pair]
  obtain ⟨p, hplace, hbox, -, himage, -⟩ := place_onGrid htarget htargetDegrees hgeoref hdegrees
    hraster (by decide) (by decide) (by decide +kernel) (by decide) (by decide)
  exact ⟨target, georef, htarget, hgeoref, p, hplace, hbox, himage.trans (by decide +kernel)⟩

end TilePyramid
