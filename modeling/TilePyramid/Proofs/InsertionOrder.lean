import TilePyramid.Proofs.ExactPlacement
import TilePyramid.Proofs.Layering
import TilePyramid.Proofs.WordReads
import TilePyramid.Pyramid.Generator

/-!
# The order of layers that lie apart

Layers of one format that share no pixel may be put on a canvas in any order. The box around them
does not depend on the order, since a union of boxes takes the outermost sides, and at each pixel
of the canvas there is at most one layer to show something. So nothing that is read from the
composite, in regions with sides of 32 bits, tells in which order its layers came, whether it is
blended or not, before a view is set and after.
-/
namespace TilePyramid

variable {α σ : Type}

/-- No pixel lies in both layers. -/
def Layer.IsApart (l l' : Layer α σ) : Prop := ∀ x y, ¬ (l.box.Mem x y ∧ l'.box.Mem x y)

namespace PixelBox

theorem union_comm (a b : PixelBox) : a.union b = b.union a := by
  simp only [union, mk.injEq]
  omega

theorem union_right_comm (a b c : PixelBox) : (a.union b).union c = (a.union c).union b := by
  simp only [union, mk.injEq]
  omega

end PixelBox

namespace Composite

/-- The smallest box around layers on a canvas. -/
def hull : List (Layer α σ) → PixelBox
  | [] => .empty
  | l :: ls => ls.foldl (fun b l => b.union l.box) l.box

private theorem foldl_union_perm {ls ls' : List (Layer α σ)} (h : ls.Perm ls') (b : PixelBox) :
    ls.foldl (fun b l => b.union l.box) b = ls'.foldl (fun b l => b.union l.box) b := by
  apply h.foldl_eq'
  intro l _ l' _ b
  exact b.union_right_comm l.box l'.box

theorem hull_perm {ls ls' : List (Layer α σ)} (h : ls.Perm ls') : hull ls = hull ls' := by
  induction h with
  | nil => rfl
  | cons l h => exact foldl_union_perm h l.box
  | swap l l' ls =>
    simp only [hull, List.foldl_cons]
    rw [PixelBox.union_comm]
  | trans _ _ ih ih' => exact ih.trans ih'

theorem box_eq_hull (c : Composite α σ) (h : c.layers ≠ []) :
    c.box = (hull c.layers).translate (-c.origin.1) (-c.origin.2) := by
  rw [box]
  cases hlayers : c.layers with
  | nil => exact absurd hlayers h
  | cons l ls => rfl

section
variable [Cartography α] [Arith σ] [Narrow α σ]

/-- Two composites of which the same is read in every region with sides of 32 bits. The read ends
wherever the region has a raster. -/
structure LooksLike (c d : Composite α σ) : Prop where
  box : c.box = d.box
  cols : c.cols = d.cols
  rows : c.rows = d.rows
  bands : c.bands = d.bands
  channel : c.channel = d.channel
  read (b : PixelBox) (hb : b.HasWordSides) : c.read? b = d.read? b
  ends (b : PixelBox) (hb : b.HasRaster c.bands) : ∃ r, c.read? b = some r

/-- Composites that differ in the order of their layers alone. -/
structure SameLayers (c d : Composite α σ) : Prop where
  layers : c.layers.Perm d.layers
  draft : c.draft = d.draft
  view : c.view = d.view
  bands : c.bands = d.bands
  channel : c.channel = d.channel

variable {c d : Composite α σ}

omit [Cartography α] [Arith σ] [Narrow α σ] in
theorem SameLayers.origin (h : c.SameLayers d) : c.origin = d.origin := by
  rw [Composite.origin, Composite.origin, h.view]

omit [Cartography α] [Arith σ] [Narrow α σ] in
theorem SameLayers.box (h : c.SameLayers d) : c.box = d.box := by
  by_cases hc : c.layers = []
  · have hd : d.layers = [] := List.nil_perm.mp (hc ▸ h.layers)
    rw [Composite.box, Composite.box, hc, hd]
  · have hd : d.layers ≠ [] := fun hd => hc (List.perm_nil.mp (hd ▸ h.layers))
    rw [box_eq_hull c hc, box_eq_hull d hd, hull_perm h.layers, h.origin]

theorem SameLayers.shown? (h : c.SameLayers d) (x y : Int) : c.shown? x y = d.shown? x y := by
  funext l
  rw [Composite.shown?, Composite.shown?, layerPixel, layerPixel, h.bands]

theorem mem_box_of_shown {l : Layer α σ} {x y : Int} {p : Pixel σ} (h : c.shown? x y l = some p) :
    l.box.Mem x y := by
  rw [Composite.shown?] at h
  split at h
  · next hl => exact hl.1
  · cases h

theorem length_shownAt_le_one (hapart : c.layers.Pairwise Layer.IsApart) (x y : Int) :
    (c.shownAt x y).length ≤ 1 := by
  have hnone : (c.shownAt x y).Pairwise fun _ _ => False := by
    apply hapart.filterMap
    intro l l' hll' p hp p' hp'
    exact hll' x y ⟨mem_box_of_shown hp, mem_box_of_shown hp'⟩
  cases hps : c.shownAt x y with
  | nil => exact Nat.zero_le 1
  | cons p ps =>
    rw [hps, List.pairwise_cons] at hnone
    cases ps with
    | nil => exact Nat.le_refl 1
    | cons q qs => exact (hnone.1 q List.mem_cons_self).elim

theorem SameLayers.shownAt_perm (h : c.SameLayers d) (x y : Int) :
    (c.shownAt x y).Perm (d.shownAt x y) := by
  rw [shownAt, shownAt, h.shown?]
  exact h.layers.filterMap _

theorem SameLayers.look (h : c.SameLayers d) (hapart : c.layers.Pairwise Layer.IsApart)
    (x y : Int) : c.look x y = d.look x y := by
  have hperm := h.shownAt_perm x y
  have hone := length_shownAt_le_one hapart x y
  have hsame : c.shownAt x y = d.shownAt x y := by
    cases hps : c.shownAt x y with
    | nil => exact (List.nil_perm.mp (hps ▸ hperm)).symm
    | cons p ps =>
      rw [hps, List.length_cons] at hone
      obtain rfl : ps = [] := List.length_eq_zero_iff.mp (by omega)
      exact List.singleton_perm.mp (hps ▸ hperm)
  rw [Composite.look, Composite.look, hsame, h.draft, h.bands]

theorem SameLayers.region (h : c.SameLayers d) (hlook : ∀ x y, c.look x y = d.look x y)
    (b : PixelBox) : c.region b = d.region b := by
  rw [Raster.eq_tabulate (c.size_region b), Raster.eq_tabulate (d.size_region b)]
  change Raster.tabulate b.width.toNat b.height.toNat c.bands c.channel (c.region b).pixel =
    .tabulate b.width.toNat b.height.toNat d.bands d.channel (d.region b).pixel
  rw [h.bands, h.channel]
  apply Raster.tabulate_congr
  intro i hi j hj
  rw [c.pixel_region_eq_look b hi hj, d.pixel_region_eq_look b hi hj, h.origin]
  exact hlook _ _

omit [Cartography α] [Arith σ] [Narrow α σ] in
theorem SameLayers.extent (h : c.SameLayers d) : c.extent = d.extent := by
  rw [Composite.extent, Composite.extent, h.view, h.box]

omit [Cartography α] [Arith σ] [Narrow α σ] in
theorem SameLayers.isUniform (h : c.SameLayers d) (hc : c.IsUniform) : d.IsUniform := by
  intro l hl
  rw [← h.bands, ← h.channel]
  exact hc l (h.layers.mem_iff.mpr hl)

omit [Cartography α] [Arith σ] [Narrow α σ] in
theorem SameLayers.withView (h : c.SameLayers d) (view : Option PixelBox) :
    SameLayers { c with view := view } { d with view := view } :=
  ⟨h.layers, h.draft, rfl, h.bands, h.channel⟩

theorem SameLayers.wrappedRegion (h : c.SameLayers d) (hlook : ∀ x y, c.look x y = d.look x y)
    (b : PixelBox) : c.wrappedRegion b = d.wrappedRegion b := by
  have hcleared : c.withoutLayers = d.withoutLayers := by
    rw [withoutLayers, withoutLayers, h.draft, h.bands, h.channel]
  have hcanvas : c.canvasBox b = d.canvasBox b := by rw [canvasBox, canvasBox, h.origin]
  have hviewless : c.withoutView.region = d.withoutView.region :=
    funext ((h.withView none).region hlook)
  rw [Composite.wrappedRegion, Composite.wrappedRegion, hcleared, hcanvas, hviewless]

/-- Composites of the same layers look the same if each of their pixels does. -/
theorem SameLayers.looksLike_of_look (h : c.SameLayers d) (hc : c.IsUniform)
    (hlayers : ∀ l ∈ c.layers, l.box.IsIndexed) (hlook : ∀ x y, c.look x y = d.look x y) :
    c.LooksLike d := by
  constructor
  case box => exact h.box
  case cols => rw [cols, cols, h.extent]
  case rows => rw [rows, rows, h.extent]
  case bands => exact h.bands
  case channel => exact h.channel
  case read =>
    intro b hb
    by_cases hraster : b.HasRaster c.bands
    · have hlayers' : ∀ l ∈ d.layers, l.box.IsIndexed := fun l hl =>
        hlayers l (h.layers.mem_iff.mpr hl)
      rw [read?_eq_wrappedRegion hlayers hraster (hc.hasMoreBands _), h.wrappedRegion hlook b,
        read?_eq_wrappedRegion hlayers' (h.bands ▸ hraster) ((h.isUniform hc).hasMoreBands _)]
    · rw [read?_eq_none hb hraster, read?_eq_none hb (h.bands ▸ hraster)]
  case ends => exact fun b hb => ⟨_, read?_eq_wrappedRegion hlayers hb (hc.hasMoreBands _)⟩

theorem SameLayers.tileSource_of_look (h : c.SameLayers d)
    (hlook : ∀ x y, c.look x y = d.look x y) : c.tileSource = d.tileSource := by
  have hcols : c.cols = d.cols := by rw [cols, cols, h.extent]
  have hrows : c.rows = d.rows := by rw [rows, rows, h.extent]
  simp only [Composite.tileSource, TileSource.mk.injEq]
  exact ⟨hcols, hrows, h.bands, h.channel, funext (h.region hlook)⟩

omit [Cartography α] [Arith σ] [Narrow α σ] in
theorem sameLayers_ofLayers (draft : Bool) {ls ls' : List (Layer α σ)} (h : ls.Perm ls')
    {bands : Nat} {channel : Channel}
    (hformat : ∀ l ∈ ls, l.placement.image.HasFormat bands channel) :
    (ofLayers draft ls).SameLayers (ofLayers draft ls') := by
  by_cases hnil : ls = []
  · subst hnil
    obtain rfl : ls' = [] := List.nil_perm.mp h
    exact ⟨.refl _, rfl, rfl, rfl, rfl⟩
  · have hnil' : ls' ≠ [] := fun h' => hnil (List.perm_nil.mp (h' ▸ h))
    obtain ⟨hbands, hchannel⟩ := format_ofLayers draft hformat hnil
    obtain ⟨hbands', hchannel'⟩ :=
      format_ofLayers draft (fun l hl => hformat l (h.mem_iff.mpr hl)) hnil'
    constructor
    case layers => simpa using h
    case draft => simp
    case view => simp
    case bands => rw [hbands, hbands']
    case channel => rw [hchannel, hchannel']

/-- Layers of one format that share no pixel make the same composite in every order: its box and
its size, what is read in every region with sides of 32 bits, and the tiles that are cut from it,
before a view is set and after. A view that is refused is refused in every order. -/
theorem ofLayers_perm (draft : Bool) {ls ls' : List (Layer α σ)} (h : ls.Perm ls') {bands : Nat}
    {channel : Channel} (hformat : ∀ l ∈ ls, l.placement.image.HasFormat bands channel)
    (hindexed : ∀ l ∈ ls, l.box.IsIndexed) (hapart : ls.Pairwise Layer.IsApart) :
    (ofLayers draft ls).LooksLike (ofLayers draft ls') ∧
      (∀ g : Generator α,
        g.plan (ofLayers draft ls).tileSource = g.plan (ofLayers draft ls').tileSource) ∧
      ∀ box, match (ofLayers draft ls).prepare box, (ofLayers draft ls').prepare box with
        | .ok view, .ok view' => view.LooksLike view' ∧
            ∀ g : Generator α, g.plan view.tileSource = g.plan view'.tileSource
        | .error e, .error e' => e = e'
        | _, _ => False := by
  have hsame := sameLayers_ofLayers draft h hformat
  have huniform : (ofLayers draft ls).IsUniform := isUniform_ofLayers draft hformat
  have hlayers : (ofLayers draft ls).layers.Pairwise Layer.IsApart := by rwa [layers_ofLayers]
  have hboxes : ∀ l ∈ (ofLayers draft ls).layers, l.box.IsIndexed := by rwa [layers_ofLayers]
  have hlook := hsame.look hlayers
  refine ⟨hsame.looksLike_of_look huniform hboxes hlook, fun g => ?_, fun box => ?_⟩
  · rw [hsame.tileSource_of_look hlook]
  · by_cases hbox : box.isEmpty
    · simp only [prepare, hbox, if_true]
    · simp only [prepare, hbox, Bool.false_eq_true, if_false]
      have hview := hsame.withView (some box)
      have hlook := hview.look hlayers
      refine ⟨hview.looksLike_of_look huniform hboxes hlook, fun g => ?_⟩
      rw [hview.tileSource_of_look hlook]

end

/-- Three pixels at places of their own. -/
def threeApart : List (Layer Rat Float32) :=
  [⟨.onePixel .u8 [ofInt 7] (ofInt 255), 0, 0⟩, ⟨.onePixel .u8 [ofInt 9] (ofInt 128), 2, 1⟩,
    ⟨.onePixel .u8 [ofInt 4] (ofInt 255), -1, 0⟩]

theorem ofLayers_perm_three :
    threeApart.Perm threeApart.reverse ∧
      (∀ l ∈ threeApart, l.placement.image.HasFormat 1 .u8) ∧
      (∀ l ∈ threeApart, l.box.IsIndexed) ∧ threeApart.Pairwise Layer.IsApart ∧
      (ofLayers false threeApart).LooksLike (ofLayers false threeApart.reverse) := by
  have hperm : threeApart.Perm threeApart.reverse := (List.reverse_perm _).symm
  have hformat : ∀ l ∈ threeApart, l.placement.image.HasFormat 1 .u8 := by
    simp only [threeApart, List.forall_mem_cons]
    exact ⟨⟨rfl, rfl⟩, ⟨rfl, rfl⟩, ⟨rfl, rfl⟩, List.forall_mem_nil _⟩
  have hapart : threeApart.Pairwise Layer.IsApart := by
    simp only [threeApart, List.pairwise_cons, List.forall_mem_cons, Layer.IsApart, Layer.box,
      Placement.onePixel, Placement.still, PixelBox.ofImage, PixelBox.ofSize, PixelBox.width,
      PixelBox.height, PixelBox.Mem]
    refine ⟨⟨?_, ?_, List.forall_mem_nil _⟩, ⟨?_, List.forall_mem_nil _⟩,
      List.forall_mem_nil _, List.Pairwise.nil⟩ <;> omega
  have hindexed : ∀ l ∈ threeApart, l.box.IsIndexed := by decide +kernel
  exact ⟨hperm, hformat, hindexed, hapart,
    (ofLayers_perm false hperm hformat hindexed hapart).1⟩

/-- In a region that is too wide for 32 bits, layers that lie apart are read into one cell, and the
later one stays. -/
theorem read_ofLayers_ne_wide :
    (Layer.slantedPair.Perm Layer.slantedPair.reverse ∧
      (∀ l ∈ Layer.slantedPair, l.placement.image.HasFormat 1 .u8) ∧
      Layer.slantedPair.Pairwise Layer.IsApart) ∧
    (ofLayers true Layer.slantedPair).read? (.ofImage (2 ^ 32 + 1) 2) ≠
      (ofLayers true Layer.slantedPair.reverse).read? (.ofImage (2 ^ 32 + 1) 2) := by
  refine ⟨⟨(List.reverse_perm _).symm, ?_, ?_⟩, ?_⟩
  · simp only [Layer.slantedPair, List.forall_mem_cons]
    exact ⟨⟨rfl, rfl⟩, ⟨rfl, rfl⟩, List.forall_mem_nil _⟩
  · simp only [Layer.slantedPair, List.pairwise_cons, List.forall_mem_cons, Layer.IsApart,
      Layer.box, Placement.onePixel, Placement.still, PixelBox.ofImage, PixelBox.ofSize,
      PixelBox.width, PixelBox.height, PixelBox.Mem]
    refine ⟨⟨?_, List.forall_mem_nil _⟩, List.forall_mem_nil _, List.Pairwise.nil⟩
    omega
  · decide +kernel

end Composite
end TilePyramid
