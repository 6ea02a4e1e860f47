import TilePyramid.Proofs.Blending
import TilePyramid.Proofs.ExactPlacement
import TilePyramid.Proofs.Layering

/-!
# Images across the date line

A canvas of one turn shows images that are placed on a strip of two turns. An image that reaches
past the end of the turn is put on the canvas once more, one turn to the left, so that a pixel of
the canvas shows what lies at its place or one turn further right. Later images hide earlier ones,
and an image at its own place hides its own copy. The first image settles the bands, and images
with fewer bands show nothing.
-/
namespace TilePyramid

variable {α σ : Type}

/-- The layers of an image on a canvas of one turn. -/
def wrappedLayers (turn : Int) (p : Placement α σ) : List (Layer α σ) :=
  (Composite.wrappedColumns p.box turn turn).map fun x => ⟨p, x, p.box.minY⟩

/-- The bands that a sequence of images settles. -/
def settledBands (ps : List (Placement α σ)) : Nat := ps.head?.elim 3 fun p => p.image.bands

/-- An image that has a column has one layer or two. -/
theorem length_wrappedLayers (turn : Int) {p : Placement α σ} (h : p.box.minX < p.box.maxX) :
    (wrappedLayers turn p).length = 1 ∨ (wrappedLayers turn p).length = 2 := by
  rw [wrappedLayers, List.length_map, Composite.wrappedColumns]
  split <;> split
  · exact .inr rfl
  · exact .inl rfl
  · exact .inl rfl
  · omega

namespace Composite

theorem layers_insert (c : Composite α σ) (p : Placement α σ) (x y : Int) :
    (c.insert p x y).layers = c.layers ++ [⟨p, x, y⟩] := by
  rw [insert]
  split
  · next h => rw [List.isEmpty_iff.mp h]; rfl
  · rfl

theorem layers_insertWrapped (c : Composite α σ) (p : Placement α σ) (total cols : Int) :
    (c.insertWrapped p total cols).layers =
      c.layers ++ (wrappedColumns p.box total cols).map fun x => ⟨p, x, p.box.minY⟩ := by
  rw [insertWrapped]
  generalize wrappedColumns p.box total cols = columns
  induction columns generalizing c with
  | nil => rw [List.foldl_nil, List.map_nil, List.append_nil]
  | cons x columns ih =>
    rw [List.foldl_cons, ih, layers_insert, List.append_assoc]
    rfl

/-- The bands of a composite are those of its lowest layer, and three as long as it has none. -/
def HasFirstBands (c : Composite α σ) : Prop :=
  c.bands = c.layers.head?.elim 3 fun l => l.placement.image.bands

theorem foldl_insertWrapped (ps : List (Placement α σ)) (turn : Int) (draft : Bool) :
    let c : Composite α σ := ps.foldl (fun c p => c.insertWrapped p turn turn) (.empty draft)
    c.layers = ps.flatMap (wrappedLayers turn) ∧ c.HasFirstBands ∧ c.draft = draft := by
  intro c
  have hc : c = ofLayers draft (ps.flatMap (wrappedLayers turn)) :=
    foldl_insertWrapped_eq ps turn turn draft
  rw [hc, HasFirstBands, layers_ofLayers, draft_ofLayers]
  refine ⟨rfl, ?_, rfl⟩
  cases ps.flatMap (wrappedLayers turn) with
  | nil => rfl
  | cons l ls =>
    rw [ofLayers_cons]
    rfl

end Composite

private theorem bands_wrapped {ps : List (Placement α σ)} {turn : Int}
    (hbox : ∀ p ∈ ps, p.box.minX < p.box.maxX) {c : Composite α σ} (hc : c.HasFirstBands)
    (hlayers : c.layers = ps.flatMap (wrappedLayers turn)) : c.bands = settledBands ps := by
  rw [hc, hlayers]
  cases ps with
  | nil => rfl
  | cons p ps =>
    have hlength := length_wrappedLayers turn (hbox p List.mem_cons_self)
    rw [List.flatMap_cons]
    cases hp : wrappedLayers turn p with
    | nil =>
      rw [hp, List.length_nil] at hlength
      omega
    | cons l ls =>
      have hl : l ∈ wrappedLayers turn p := hp ▸ List.mem_cons_self
      obtain ⟨_, -, rfl⟩ := List.mem_map.mp hl
      rfl

section
variable [Cartography α] [Narrow α Float32]

/-- The sample of a placed image at a pixel of its box, unless its alpha is zero or less. -/
def Placement.sampleAt? (x y : Int) (p : Placement α Float32) : Option (Pixel Float32) :=
  if p.box.Mem x y ∧ ¬ (p.sample (x - p.box.minX) (y - p.box.minY)).alpha ≤ ofInt 0 then
    some (p.sample (x - p.box.minX) (y - p.box.minY))
  else none

/-- The sample of the latest image that has one at a pixel of the first turn or one turn further
right. -/
def latestSample? (turn : Int) (ps : List (Placement α Float32)) (x y : Int) :
    Option (Pixel Float32) :=
  ps.reverse.findSome? fun p => (p.sampleAt? x y).or (p.sampleAt? (x + turn) y)

theorem Layer.sampleAt?_moved (p : Placement α Float32) (d x y : Int) :
    Layer.sampleAt? x y ⟨p, p.box.minX - d, p.box.minY⟩ = p.sampleAt? (x + d) y := by
  have hx : x - (p.box.minX - d) = x + d - p.box.minX := by omega
  have hbox : (Layer.box ⟨p, p.box.minX - d, p.box.minY⟩).Mem x y ↔ p.box.Mem (x + d) y := by
    simp only [Layer.box, PixelBox.ofSize, PixelBox.Mem, PixelBox.width, PixelBox.height]
    omega
  simp only [Layer.sampleAt?, Placement.sampleAt?, hx, hbox]

private theorem getLast?_wrappedLayers {turn : Int} (p : Placement α Float32) {x : Int}
    (hx : 0 ≤ x) (hturn : x < turn) (y : Int) :
    ((wrappedLayers turn p).filterMap (Layer.sampleAt? x y)).getLast? =
      (p.sampleAt? x y).or (p.sampleAt? (x + turn) y) := by
  have hmoved := Layer.sampleAt?_moved p turn x y
  have hstill : Layer.sampleAt? x y ⟨p, p.box.minX, p.box.minY⟩ = p.sampleAt? x y := by
    simpa only [Int.sub_zero, Int.add_zero] using Layer.sampleAt?_moved p 0 x y
  have hshort (h : ¬ turn < p.box.maxX) : p.sampleAt? (x + turn) y = none :=
    if_neg fun hmem => by
      simp only [PixelBox.Mem] at hmem
      omega
  have hlate (h : ¬ p.box.minX < turn) : p.sampleAt? x y = none :=
    if_neg fun hmem => by
      simp only [PixelBox.Mem] at hmem
      omega
  rw [wrappedLayers, Composite.wrappedColumns]
  split <;> split
  · simp only [List.cons_append, List.nil_append, List.map_cons, List.map_nil, List.filterMap_cons,
      List.filterMap_nil, hmoved, hstill]
    cases p.sampleAt? x y <;> cases p.sampleAt? (x + turn) y <;> rfl
  · next hstart =>
    simp only [List.append_nil, List.map_cons, List.map_nil, List.filterMap_cons,
      List.filterMap_nil, hmoved, hlate hstart]
    cases p.sampleAt? (x + turn) y <;> rfl
  · next hpast _ =>
    simp only [List.nil_append, List.map_cons, List.map_nil, List.filterMap_cons,
      List.filterMap_nil, hstill, hshort hpast]
    cases p.sampleAt? x y <;> rfl
  · next hpast hstart =>
    rw [hshort hpast, hlate hstart]
    rfl

private theorem shownAt_wrapped {ps : List (Placement α Float32)} {c : Composite α Float32}
    (hbands : ∀ p ∈ ps, p.image.bands ≤ c.bands) {turn : Int}
    (hlayers : c.layers = ps.flatMap (wrappedLayers turn)) (x y : Int) :
    c.shownAt x y = (ps.filter fun p => p.image.bands = c.bands).flatMap fun p =>
      (wrappedLayers turn p).filterMap (Layer.sampleAt? x y) := by
  have hlayer {p : Placement α Float32} {l : Layer α Float32} (hl : l ∈ wrappedLayers turn p) :
      l.placement = p := by
    obtain ⟨_, -, rfl⟩ := List.mem_map.mp hl
    rfl
  rw [Composite.shownAt, hlayers, List.filterMap_flatMap]
  -- The images are taken one by one from here on, and the composite keeps all of its layers.
  clear hlayers
  induction ps with
  | nil => rfl
  | cons p ps ih =>
    rw [List.flatMap_cons, ih fun q hq => hbands q (List.mem_cons_of_mem _ hq)]
    rcases Nat.lt_or_eq_of_le (hbands p List.mem_cons_self) with hfewer | hequal
    · have hnone : (wrappedLayers turn p).filterMap (c.shown? x y) = [] :=
        List.filterMap_eq_nil_iff.mpr fun l hl =>
          Composite.shown?_eq_none (by rw [hlayer hl]; exact hfewer) x y
      rw [hnone, List.filter_cons_of_neg (by simpa using hfewer.ne), List.nil_append]
    · have hshown : (wrappedLayers turn p).filterMap (c.shown? x y) =
          (wrappedLayers turn p).filterMap (Layer.sampleAt? x y) :=
        List.filterMap_congr fun l hl =>
          Composite.shown?_eq_sampleAt? (by rw [hlayer hl]; exact hequal) x y
      rw [hshown, List.filter_cons_of_pos (by simpa using hequal), List.flatMap_cons]

/-- Images put on a canvas of one turn, one after the other, in draft mode. Each has one layer or
two, and a pixel of the canvas shows the latest image with the bands of the first one that has a
sample there or one turn further right. No image may have more bands than the first one. -/
theorem pixel_region_wrapped {ps : List (Placement α Float32)} (turn : Int)
    (hbox : ∀ p ∈ ps, p.box.minX < p.box.maxX)
    (hbands : ∀ p ∈ ps, p.image.bands ≤ settledBands ps) :
    let c : Composite α Float32 :=
      ps.foldl (fun c p => c.insertWrapped p turn turn) (.empty true)
    (c.layers = ps.flatMap (wrappedLayers turn) ∧
      ∀ p ∈ ps, (wrappedLayers turn p).length = 1 ∨ (wrappedLayers turn p).length = 2) ∧
    ∀ (view : Option PixelBox) (region : PixelBox) (i j : Nat) (x y : Int),
      i < region.width.toNat → j < region.height.toNat →
      x = region.minX + (Composite.origin { c with view := view }).1 + i →
      y = region.minY + (Composite.origin { c with view := view }).2 + j →
      0 ≤ x → x < turn →
        (Composite.region { c with view := view } region).pixel i j =
          (latestSample? turn (ps.filter fun p => p.image.bands = settledBands ps) x y).getD
            (.clear (settledBands ps)) := by
  intro c
  obtain ⟨hlayers, hfirst, hdraft⟩ := Composite.foldl_insertWrapped ps turn true
  have hc : c.bands = settledBands ps := bands_wrapped hbox hfirst hlayers
  refine ⟨⟨hlayers, fun p hp => length_wrappedLayers turn (hbox p hp)⟩, ?_⟩
  intro view region i j x y hi hj hpx hpy hx hturn
  have hlook := Composite.pixel_region_eq_look { c with view := view } region hi hj
  rw [← hpx, ← hpy] at hlook
  have hshown := shownAt_wrapped (c := { c with view := view }) (hc ▸ hbands) hlayers x y
  have hlast : (Composite.shownAt { c with view := view } x y).getLast? =
      latestSample? turn (ps.filter fun p => p.image.bands = c.bands) x y := by
    rw [hshown, List.getLast?_flatMap, latestSample?]
    congr 1
    funext p
    exact getLast?_wrappedLayers p hx hturn y
  rw [hlook, Composite.look, if_pos hdraft, hlast, ← hc]

end

/-- A grey pixel put over a coloured one. -/
def greyOverColour : List (Placement Rat Float32) :=
  [.onePixel .u8 [ofInt 10, ofInt 20, ofInt 30] (ofInt 255), .onePixel .u8 [ofInt 90] (ofInt 255)]

theorem pixel_region_wrapped_grey :
    (∀ p ∈ greyOverColour, p.box.minX < p.box.maxX) ∧
      (∀ p ∈ greyOverColour, p.image.bands ≤ settledBands greyOverColour) ∧
      (Composite.region (greyOverColour.foldl (fun c p => c.insertWrapped p 360 360) (.empty true))
          (.ofImage 1 1)).pixel 0 0 =
        (latestSample? 360 (greyOverColour.filter fun p => p.image.bands = 3) 0 0).getD
          (.clear 3) := by
  have hbox : ∀ p ∈ greyOverColour, p.box.minX < p.box.maxX := by decide
  have hbands : ∀ p ∈ greyOverColour, p.image.bands ≤ settledBands greyOverColour := by decide
  obtain ⟨-, hpixel⟩ := pixel_region_wrapped 360 hbox hbands
  exact ⟨hbox, hbands,
    hpixel none (.ofImage 1 1) 0 0 0 0 (by decide) (by decide) rfl rfl (by decide) (by decide)⟩

/-- The latest image at a pixel need not be the one that is shown: the grey image has fewer bands
than the first one. -/
theorem region_ne_latestSample :
    (∀ p ∈ greyOverColour, 0 ≤ p.box.minX ∧ p.box.minX < p.box.maxX ∧ p.box.maxX ≤ 2 * 360 ∧
        p.box.minY < p.box.maxY) ∧
      (Composite.region (greyOverColour.foldl (fun c p => c.insertWrapped p 360 360) (.empty true))
          (.ofImage 1 1)).pixel 0 0 ≠ (latestSample? 360 greyOverColour 0 0).getD (.clear 3) := by
  decide +kernel

end TilePyramid
