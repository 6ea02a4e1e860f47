import TilePyramid.Proofs.Blending
import TilePyramid.Proofs.ColourBounds
import TilePyramid.Proofs.InsertionOrder
import TilePyramid.Proofs.RasterShapes

/-!
# The order of layers that are blended

Without rounding, a blend adds up colours and weights and keeps the largest alpha, so that two
layers may change places. The weight that a pixel is divided by is the sum of the alphas of the
layers that were added to it, and it is above zero as soon as there is one. Main statement: layers
of one format, lying on each other as they may, are blended to the same composite in every order,
and each of its pixels is the mean of the layers there.
-/
namespace TilePyramid

open ExactArith

section steps
variable {β γ : Type}

theorem update?_comm {f g : β → β} (h : ∀ b, f (g b) = g (f b)) (cells : Array β) (i j : Nat) :
    (update? cells i f).bind (update? · j g) = (update? cells j g).bind (update? · i f) := by
  have hmodify : (cells.modify i f).modify j g = (cells.modify j g).modify i f := by
    apply Array.ext_getElem?
    intro k
    simp only [Array.getElem?_modify]
    by_cases hi : i = k <;> by_cases hj : j = k <;> cases cells[k]? <;> simp [hi, hj, h]
  by_cases hi : i < cells.size <;> by_cases hj : j < cells.size <;>
    simp [update?, hi, hj, Array.size_modify, hmodify]

theorem foldlM_perm {f : β → γ → Option β}
    (hcomm : ∀ b x y, (f b x).bind (f · y) = (f b y).bind (f · x)) {l l' : List γ} (h : l.Perm l')
    (b : β) : l.foldlM f b = l'.foldlM f b := by
  induction h generalizing b with
  | nil => rfl
  | cons x _ ih => simp only [List.foldlM_cons, ih]
  | swap x y l =>
    simp only [List.foldlM_cons, Option.bind_eq_bind]
    rw [← Option.bind_assoc, ← Option.bind_assoc, hcomm]
  | trans _ _ ih ih' => exact (ih b).trans (ih' b)

end steps

variable {σ : Type} [Arith σ]

/-- The value of a band, zero where there is none. -/
def Pixel.band (p : Pixel σ) (i : Nat) : σ := p.colour.getD i (ofInt 0)

variable [ExactArith σ]

theorem value_getD_zipWith {sums vs : List σ} (h : sums.length = vs.length) (w : σ) (i : Nat) :
    value ((List.zipWith (fun c v => c + v * w) sums vs).getD i (ofInt 0)) =
      value (sums.getD i (ofInt 0)) + value (vs.getD i (ofInt 0)) * value w := by
  by_cases hi : i < vs.length
  · simp [List.getD_eq_getElem?_getD, h, hi]
  · simp [List.getD_eq_getElem?_getD, h, not_lt.mp hi]

/-- The mean of pixels weighted by alpha, with the largest of their alphas. -/
structure Pixel.IsMean (bands : Nat) (ps : List (Pixel σ)) (p : Pixel σ) : Prop where
  length : p.colour.length = bands
  band (i : Nat) : value (p.band i) =
    (ps.map fun q => value (q.band i) * value q.alpha).sum / (ps.map fun q => value q.alpha).sum
  alpha_mem : ∃ q ∈ ps, q.alpha = p.alpha
  alpha_le : ∀ q ∈ ps, value q.alpha ≤ value p.alpha

private theorem greater_right_comm (a b c : σ) :
    Arith.greater (Arith.greater a b) c = Arith.greater (Arith.greater a c) b := by
  apply value_injective
  simp only [value_greater]
  exact max_right_comm _ _ _

namespace Blended

private theorem zipWith_right_comm (sums vs ws : List σ) (a b : σ) :
    List.zipWith (fun c w => c + w * b) (List.zipWith (fun c v => c + v * a) sums vs) ws =
      List.zipWith (fun c v => c + v * a) (List.zipWith (fun c w => c + w * b) sums ws) vs := by
  have hcomm (c v w : σ) : c + v * a + w * b = c + w * b + v * a := by
    apply value_injective
    simp only [value_add]
    exact add_right_comm _ _ _
  apply List.ext_getElem?
  intro i
  simp only [List.getElem?_zipWith]
  cases sums[i]? <;> cases vs[i]? <;> cases ws[i]? <;> simp [hcomm]

theorem add_add_comm (b : Blended σ) (p q : Pixel σ) : (b.add p).add q = (b.add q).add p := by
  have hweight : b.weight + p.alpha + q.alpha = b.weight + q.alpha + p.alpha := by
    apply value_injective
    simp only [value_add]
    exact add_right_comm _ _ _
  simp only [add, mk.injEq]
  exact ⟨zipWith_right_comm _ _ _ _ _, hweight, greater_right_comm _ _ _⟩

theorem foldl_add_perm {ps qs : List (Pixel σ)} (h : ps.Perm qs) (b : Blended σ) :
    ps.foldl add b = qs.foldl add b :=
  h.foldl_eq' (fun p _ q _ b => b.add_add_comm p q) b

variable {bands : Nat} {ps : List (Pixel σ)}

theorem value_weight_foldl (ps : List (Pixel σ)) (b : Blended σ) :
    value (ps.foldl add b).weight = value b.weight + (ps.map fun p => value p.alpha).sum := by
  induction ps generalizing b with
  | nil => simp
  | cons p ps ih =>
    rw [List.foldl_cons, ih, add, value_add, List.map_cons, List.sum_cons, add_assoc]

private theorem value_band_add {b : Blended σ} {p : Pixel σ} (hb : b.colour.length = bands)
    (hp : p.colour.length = bands) (i : Nat) :
    value ((b.add p).colour.getD i (ofInt 0)) =
      value (b.colour.getD i (ofInt 0)) + value (p.band i) * value p.alpha :=
  value_getD_zipWith (hb.trans hp.symm) p.alpha i

theorem value_band_foldl (hps : ∀ p ∈ ps, p.colour.length = bands) {b : Blended σ}
    (hb : b.colour.length = bands) (i : Nat) :
    value ((ps.foldl add b).colour.getD i (ofInt 0)) =
      value (b.colour.getD i (ofInt 0)) +
        (ps.map fun p => value (p.band i) * value p.alpha).sum := by
  induction ps generalizing b with
  | nil => simp
  | cons p ps ih =>
    have hp := hps p List.mem_cons_self
    rw [List.foldl_cons, ih (fun q hq => hps q (List.mem_cons_of_mem _ hq)) (length_add hb hp),
      value_band_add hb hp, List.map_cons, List.sum_cons, add_assoc]

theorem alpha_foldl (ps : List (Pixel σ)) (b : Blended σ) :
    let alpha := (ps.foldl add b).alpha
    (alpha = b.alpha ∨ ∃ p ∈ ps, p.alpha = alpha) ∧
      value b.alpha ≤ value alpha ∧ ∀ p ∈ ps, value p.alpha ≤ value alpha := by
  induction ps generalizing b with
  | nil => exact ⟨.inl rfl, le_rfl, by simp⟩
  | cons p ps ih =>
    obtain ⟨hmem, hle, hothers⟩ := ih (b.add p)
    have hgreater : value (b.add p).alpha = max (value b.alpha) (value p.alpha) :=
      value_greater _ _
    rw [hgreater] at hle
    refine ⟨?_, (le_max_left _ _).trans hle,
      List.forall_mem_cons.mpr ⟨(le_max_right _ _).trans hle, hothers⟩⟩
    obtain hsame | ⟨q, hq, hsame⟩ := hmem
    · rcases max_choice (value b.alpha) (value p.alpha) with hmax | hmax
      · exact .inl (hsame.trans (value_injective (hgreater.trans hmax)))
      · refine .inr ⟨p, List.mem_cons_self, ?_⟩
        exact (hsame.trans (value_injective (hgreater.trans hmax))).symm
    · exact .inr ⟨q, List.mem_cons_of_mem _ hq, hsame⟩

private theorem value_getD_div (vs : List σ) (w : σ) (i : Nat) :
    value ((vs.map (· / w)).getD i (ofInt 0)) = value (vs.getD i (ofInt 0)) / value w := by
  by_cases hi : i < vs.length
  · simp [List.getD_eq_getElem?_getD, hi]
  · simp [List.getD_eq_getElem?_getD, not_lt.mp hi]

private theorem sum_alpha_pos {ps : List (Pixel σ)} (hne : ps ≠ [])
    (hpos : ∀ p ∈ ps, 0 < value p.alpha) : 0 < (ps.map fun p => value p.alpha).sum := by
  apply List.sum_pos
  · intro a ha
    obtain ⟨p, hp, rfl⟩ := List.mem_map.mp ha
    exact hpos p hp
  · simpa using hne

/-- Pixels with alphas above zero are blended to their mean. -/
theorem isMean_foldl_add {ps : List (Pixel σ)} (hne : ps ≠ [])
    (hps : ∀ p ∈ ps, p.colour.length = bands) (hpos : ∀ p ∈ ps, 0 < value p.alpha) :
    (ps.foldl add (clear bands)).pixel.IsMean bands ps := by
  have hclear : (clear bands : Blended σ).colour.length = bands := List.length_replicate
  have hzero (i : Nat) : value ((clear bands : Blended σ).colour.getD i (ofInt 0)) = 0 := by
    simp [clear, List.getD_eq_getElem?_getD]
  have hweight : value (ps.foldl add (clear bands)).weight = (ps.map fun p => value p.alpha).sum := by
    rw [value_weight_foldl, clear, value_ofInt, Int.cast_zero, zero_add]
  have hdivides : ofInt 0 < (ps.foldl add (clear bands)).weight := by
    rw [zero_lt_iff_value, hweight]
    exact sum_alpha_pos hne hpos
  obtain ⟨hmem, -, hle⟩ := alpha_foldl ps (clear bands)
  rw [pixel, if_pos hdivides]
  constructor
  case length =>
    rw [List.length_map]
    exact length_foldl_add hps hclear
  case band =>
    intro i
    rw [Pixel.band, value_getD_div, value_band_foldl hps hclear, hzero, zero_add, hweight]
  case alpha_mem =>
    refine hmem.resolve_left fun hnone => ?_
    obtain ⟨p, hp⟩ := List.exists_mem_of_ne_nil ps hne
    have hp' := (hpos p hp).trans_le (hle p hp)
    rw [hnone, clear, value_ofInt, Int.cast_zero] at hp'
    exact lt_irrefl _ hp'
  case alpha_le => exact hle

end Blended

namespace Composite

variable {α : Type} [Cartography α] [Narrow α σ]

theorem SameLayers.look_of_blend {c d : Composite α σ} (h : c.SameLayers d)
    (hblend : c.draft = false) (x y : Int) : c.look x y = d.look x y := by
  rw [Composite.look, Composite.look, ← h.draft, hblend, ← h.bands]
  exact congrArg Blended.pixel (Blended.foldl_add_perm (h.shownAt_perm x y) _)

theorem paint?_comm (c : Composite α σ) (canvas : PixelBox) (width : Nat)
    (cells : Array (Blended σ)) (l l' : Layer α σ) :
    (c.paint? Blended.add canvas width cells l).bind (c.paint? Blended.add canvas width · l') =
      (c.paint? Blended.add canvas width cells l').bind
        (c.paint? Blended.add canvas width · l) := by
  have hrun (l l' : Layer α σ) : (c.paint? Blended.add canvas width cells l).bind
      (c.paint? Blended.add canvas width · l') =
        (c.strokes canvas l ++ c.strokes canvas l').foldlM (stroke? Blended.add canvas width)
          cells := by
    rw [List.foldlM_append]
    rfl
  rw [hrun, hrun]
  apply foldlM_perm _ List.perm_append_comm
  intro cells s t
  exact update?_comm (fun b => b.add_add_comm _ _) _ _ _

theorem SameLayers.read?_of_blend {c d : Composite α σ} (h : c.SameLayers d) (hc : c.IsUniform)
    (hblend : c.draft = false) (region : PixelBox) : c.read? region = d.read? region := by
  have hpaint : c.paint? (β := Blended σ) = d.paint? := by
    funext put canvas width cells l
    rw [paint?, paint?, strokes, strokes]
    simp only [layerPixel, h.bands]
  have hcanvas : c.canvasBox region = d.canvasBox region := by
    rw [canvasBox, canvasBox, h.origin]
  have hlayers (canvas : PixelBox) (width : Nat) (cells : Array (Blended σ)) :=
    foldlM_perm (d.paint?_comm canvas width) h.layers cells
  simp only [read?, hc.hasMoreBands, (h.isUniform hc).hasMoreBands, ← h.draft, hblend, h.bands,
    h.channel, ← hcanvas, hpaint, hlayers, Bool.false_eq_true, if_false]

theorem IsUniform.look_of_blend {c : Composite α σ} (hc : c.IsUniform) (hblend : c.draft = false)
    (hwell : ∀ l ∈ c.layers, l.placement.image.WellFormed) (x y : Int) :
    let shown := c.layers.filterMap (Layer.sampleAt? x y)
    (∀ p ∈ shown, 0 < value p.alpha) ∧ (shown = [] → c.look x y = .clear c.bands) ∧
      (shown ≠ [] → (c.look x y).IsMean c.bands shown) := by
  intro shown
  have hshown : c.shownAt x y = shown := shownAt_eq_filterMap (fun l hl => (hc l hl).bands) x y
  have hlook : c.look x y = (shown.foldl Blended.add (.clear c.bands)).pixel := by
    rw [look, if_neg (by simp [hblend]), hshown]
  have hpos : ∀ p ∈ shown, 0 < value p.alpha := by
    intro p hp
    rw [← hshown] at hp
    obtain ⟨l, -, hl⟩ := List.mem_filterMap.mp hp
    have halpha := not_alpha_le_zero_of_shown hl
    rwa [le_iff, value_ofInt, Int.cast_zero, not_le] at halpha
  refine ⟨hpos, fun hnone => ?_, fun hsome => ?_⟩
  · have hweight : ¬ (ofInt 0 : σ) < ofInt 0 := mt (lt_iff _ _).mp (lt_irrefl _)
    rw [hlook, hnone, List.foldl_nil, Blended.pixel, Blended.clear, if_neg hweight]
    rfl
  · rw [hlook]
    apply Blended.isMean_foldl_add hsome _ hpos
    intro p hp
    rw [← hshown] at hp
    obtain ⟨l, hl, -, rfl⟩ := hc.exists_of_mem_shownAt hp
    rw [← (hc l hl).bands]
    exact Placement.length_sample (hwell l hl) _ _

/-- Layers of one format are blended to the same composite in every order, before a view is set and
after, and every region is read alike. Each pixel of a region that has a raster and a place of 64
bits is the mean of the layers that have an alpha above zero there, weighted by it, with the
largest of these alphas; it is clear where there are none. -/
theorem blend_perm {ls ls' : List (Layer α σ)} (h : ls.Perm ls') {bands : Nat} {channel : Channel}
    (hformat : ∀ l ∈ ls, l.placement.image.HasFormat bands channel)
    (hwell : ∀ l ∈ ls, l.placement.image.WellFormed) (hindexed : ∀ l ∈ ls, l.box.IsIndexed)
    (view : Option PixelBox) :
    let c := { ofLayers false ls with view := view }
    let d := { ofLayers false ls' with view := view }
    c.LooksLike d ∧ (∀ region, c.read? region = d.read? region) ∧
      ∀ region, c.IsCounted region →
        ∃ r, c.read? region = some r ∧ r.width = region.width.toNat ∧
          r.height = region.height.toNat ∧ ∀ i j : Nat, i < r.width → j < r.height →
            let shown := ls.filterMap
              (Layer.sampleAt? (region.minX + c.origin.1 + i) (region.minY + c.origin.2 + j))
            (∀ p ∈ shown, 0 < value p.alpha) ∧ (shown = [] → r.pixel i j = .clear c.bands) ∧
              (shown ≠ [] → (r.pixel i j).IsMean c.bands shown) := by
  intro c d
  have hblend : c.draft = false := draft_ofLayers false ls
  have hlayers : c.layers = ls := layers_ofLayers false ls
  have hsame : c.SameLayers d := (sameLayers_ofLayers false h hformat).withView view
  have hc : c.IsUniform := isUniform_ofLayers false hformat
  have hboxes : ∀ l ∈ c.layers, l.box.IsIndexed := by rwa [hlayers]
  refine ⟨hsame.looksLike_of_look hc hboxes (hsame.look_of_blend hblend),
    hsame.read?_of_blend hc hblend, fun region hregion => ?_⟩
  refine ⟨c.region region, read?_eq_some hboxes hregion (hc.isReadable region), rfl, rfl, ?_⟩
  intro i j hi hj
  rw [c.pixel_region_eq_look region hi hj, ← hlayers]
  exact hc.look_of_blend hblend (by rwa [hlayers]) _ _

/-- Three images of two pixels. All of them lie on pixel 1, with different alphas. -/
def threeBlended : List (Layer Rat Rat) :=
  [(0, #[⟨[10], 100⟩, ⟨[20], 50⟩]), (0, #[⟨[40], 50⟩, ⟨[50], 150⟩]),
      (1, #[⟨[90], 100⟩, ⟨[70], 0⟩])].map fun (x, pixels) =>
    { placement := .exact { width := 2, height := 1, bands := 1, channel := .u8, pixels := pixels }
      x := x
      y := 0 }

theorem blend_perm_three :
    threeBlended.Perm threeBlended.reverse ∧
      (ofLayers false threeBlended).LooksLike (ofLayers false threeBlended.reverse) ∧
      ∃ r, (ofLayers false threeBlended).read? (.ofImage 3 1) = some r ∧
        (r.pixel 1 0).IsMean 1 [⟨[20], 50⟩, ⟨[50], 150⟩, ⟨[90], 100⟩] := by
  have hperm : threeBlended.Perm threeBlended.reverse := (List.reverse_perm _).symm
  have hformat : ∀ l ∈ threeBlended, l.placement.image.HasFormat 1 .u8 := by
    intro l hl
    obtain ⟨_, -, rfl⟩ := List.mem_map.mp hl
    exact ⟨rfl, rfl⟩
  have hwell : ∀ l ∈ threeBlended, l.placement.image.WellFormed := by
    simp only [Raster.WellFormed]
    decide
  have hindexed : ∀ l ∈ threeBlended, l.box.IsIndexed := by decide +kernel
  have hshown : threeBlended.filterMap (Layer.sampleAt? 1 0) =
      [⟨[20], 50⟩, ⟨[50], 150⟩, ⟨[90], 100⟩] := by decide +kernel
  obtain ⟨hlooks, -, hreads⟩ := blend_perm hperm hformat hwell hindexed none
  obtain ⟨r, hread, hwidth, hheight, hpixels⟩ := hreads (.ofImage 3 1) (by decide +kernel)
  obtain ⟨-, -, hmean⟩ := hpixels 1 0 (by rw [hwidth]; decide) (by rw [hheight]; decide)
  refine ⟨hperm, hlooks, r, hread, ?_⟩
  have h := hmean (by change threeBlended.filterMap (Layer.sampleAt? 1 0) ≠ []; simp [hshown])
  change Pixel.IsMean 1 (threeBlended.filterMap (Layer.sampleAt? 1 0)) _ at h
  rwa [hshown] at h

/-- Opaque images of one pixel, each with its value and its place. -/
def onePixels (ps : List (Rat × Int × Int)) : List (Layer Rat Rat) :=
  ps.map fun (v, x, y) =>
    { placement :=
        .exact { width := 1, height := 1, bands := 1, channel := .u8, pixels := #[⟨[v], 255⟩] }
      x := x
      y := y }

/-- Two pixels, the second one in the row above the first and a column further right. -/
def slantedBlended : List (Layer Rat Rat) := onePixels [(9, 0, 1), (7, 1, 0)]

/-- One pixel at the last place that has a place of 64 bits after it, with a view from the second
column. -/
def farBlended : Composite Rat Rat :=
  { ofLayers false (onePixels [(7, 2 ^ 63 - 2, 0)]) with view := some (.ofSize 1 0 1 1) }

/-- A region that is too wide for 32 bits has one column, in which both images come to lie on each
other. One that is too large for a buffer is not read. And one that ends beyond 64 bits on the
canvas wraps around there, and shows nothing. -/
theorem blend_ne_mean_wide :
    ((∀ l ∈ slantedBlended, l.placement.image.bands = 1 ∧ l.placement.image.channel = .u8) ∧
      slantedBlended.filterMap (Layer.sampleAt? 0 1) = [⟨[9], 255⟩] ∧
      (∃ r, (ofLayers false slantedBlended).read? (.ofImage (2 ^ 32 + 1) 2) = some r ∧
        ¬ (r.pixel 0 1).IsMean 1 [⟨[9], 255⟩]) ∧
      (ofLayers false slantedBlended).read? (.ofImage (2 ^ 32 - 1) (2 ^ 32 - 1)) = none) ∧
    farBlended.layers.filterMap (Layer.sampleAt? (2 ^ 63 - 2) 0) = [⟨[7], 255⟩] ∧
      ∃ r, farBlended.read? (.ofSize (2 ^ 63 - 3) 0 2 1) = some r ∧
        ¬ (r.pixel 0 0).IsMean 1 [⟨[7], 255⟩] := by
  have hwide : (ofLayers false slantedBlended).read? (.ofImage (2 ^ 32 + 1) 2) =
      some ⟨1, 2, 1, .u8, #[⟨[0], 0⟩, ⟨[8], 255⟩]⟩ := by decide +kernel
  have hfar : farBlended.read? (.ofSize (2 ^ 63 - 3) 0 2 1) =
      some ⟨2, 1, 1, .u8, #[⟨[0], 0⟩, ⟨[0], 0⟩]⟩ := by decide +kernel
  refine ⟨⟨by decide, by decide +kernel, ⟨_, hwide, fun hmean => ?_⟩, by decide +kernel⟩,
    by decide +kernel, _, hfar, fun hmean => ?_⟩
  · have hband := hmean.band 0
    revert hband
    decide +kernel
  · have hband := hmean.band 0
    revert hband
    decide +kernel

end Composite
end TilePyramid
