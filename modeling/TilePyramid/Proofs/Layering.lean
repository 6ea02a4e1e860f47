import TilePyramid.Proofs.Regions

/-!
# Composites as lists of layers

A composite is told by its layers in their order, its mode and its view. The lowest layer settles
the bands and the channel, so that layers of one format make a composite of that format.
-/
namespace TilePyramid

/-- The raster has this many bands, and this channel. -/
structure Raster.HasFormat {σ : Type} (r : Raster σ) (bands : Nat) (channel : Channel) : Prop where
  bands : r.bands = bands
  channel : r.channel = channel

namespace Composite

variable {α σ : Type}

/-- The composite of layers that were put on top of each other one after the other. -/
def ofLayers (draft : Bool) (ls : List (Layer α σ)) : Composite α σ :=
  ls.foldl (fun c l => c.insert l.placement l.x l.y) (.empty draft)

/-- All layers have the bands and the channel of the composite. -/
def IsUniform (c : Composite α σ) : Prop :=
  ∀ l ∈ c.layers, l.placement.image.HasFormat c.bands c.channel

theorem foldl_insert {c : Composite α σ} (hc : c.layers ≠ []) (ls : List (Layer α σ)) :
    ls.foldl (fun c l => c.insert l.placement l.x l.y) c = { c with layers := c.layers ++ ls } := by
  induction ls generalizing c with
  | nil => rw [List.append_nil]; rfl
  | cons l ls ih =>
    have hstep : c.insert l.placement l.x l.y = { c with layers := c.layers ++ [l] } := by
      rw [insert, if_neg (by simpa using hc)]
    rw [List.foldl_cons, hstep, ih (by simp)]
    simp only [List.append_assoc, List.singleton_append]

theorem ofLayers_cons (draft : Bool) (l : Layer α σ) (ls : List (Layer α σ)) :
    ofLayers draft (l :: ls) =
      { layers := l :: ls
        draft := draft
        view := none
        bands := l.placement.image.bands
        channel := l.placement.image.channel } := by
  have hfirst : (insert (empty draft) l.placement l.x l.y).layers ≠ [] := List.cons_ne_nil _ _
  rw [ofLayers, List.foldl_cons, foldl_insert hfirst]
  rfl

@[simp] theorem layers_ofLayers (draft : Bool) (ls : List (Layer α σ)) :
    (ofLayers draft ls).layers = ls := by
  cases ls with
  | nil => rfl
  | cons l ls => rw [ofLayers_cons]

@[simp] theorem draft_ofLayers (draft : Bool) (ls : List (Layer α σ)) :
    (ofLayers draft ls).draft = draft := by
  cases ls with
  | nil => rfl
  | cons l ls => rw [ofLayers_cons]

@[simp] theorem view_ofLayers (draft : Bool) (ls : List (Layer α σ)) :
    (ofLayers draft ls).view = none := by
  cases ls with
  | nil => rfl
  | cons l ls => rw [ofLayers_cons]

theorem format_ofLayers (draft : Bool) {ls : List (Layer α σ)} {bands : Nat} {channel : Channel}
    (h : ∀ l ∈ ls, l.placement.image.HasFormat bands channel) (hne : ls ≠ []) :
    (ofLayers draft ls).bands = bands ∧ (ofLayers draft ls).channel = channel := by
  cases ls with
  | nil => exact absurd rfl hne
  | cons l ls =>
    have hl := h l List.mem_cons_self
    rw [ofLayers_cons]
    exact ⟨hl.bands, hl.channel⟩

theorem isUniform_ofLayers (draft : Bool) {ls : List (Layer α σ)} {bands : Nat} {channel : Channel}
    (h : ∀ l ∈ ls, l.placement.image.HasFormat bands channel) :
    (ofLayers draft ls).IsUniform := by
  intro l hl
  rw [layers_ofLayers] at hl
  obtain ⟨hbands, hchannel⟩ := format_ofLayers draft h (List.ne_nil_of_mem hl)
  rw [hbands, hchannel]
  exact h l hl

theorem foldl_insertWrapped_eq (ps : List (Placement α σ)) (total cols : Int) (draft : Bool) :
    ps.foldl (fun c p => c.insertWrapped p total cols) (.empty draft) =
      ofLayers draft (ps.flatMap fun p =>
        (wrappedColumns p.box total cols).map fun x => ⟨p, x, p.box.minY⟩) := by
  simp only [ofLayers, List.foldl_flatMap, List.foldl_map]
  rfl

theorem IsUniform.isReadable {c : Composite α σ} (hc : c.IsUniform) (region : PixelBox) :
    c.isReadable region = true :=
  isReadable_of_bands_le (fun l hl => Nat.le_of_eq (hc l hl).bands) region

theorem IsUniform.hasMoreBands {c : Composite α σ} (hc : c.IsUniform) (canvas : PixelBox) :
    c.hasMoreBands canvas = false := by
  rw [Composite.hasMoreBands, List.any_eq_false]
  intro l hl
  simp [(hc l hl).bands]

section
variable [Cartography α] [Arith σ] [Narrow α σ]

theorem IsUniform.layerPixel {c : Composite α σ} (hc : c.IsUniform) {l : Layer α σ}
    (hl : l ∈ c.layers) (x y : Int) :
    c.layerPixel l x y = l.placement.sample (x - l.x) (y - l.y) :=
  if_neg (Nat.not_lt_of_le (Nat.le_of_eq (hc l hl).bands.symm))

theorem IsUniform.exists_of_mem_shownAt {c : Composite α σ} (hc : c.IsUniform) {x y : Int}
    {p : Pixel σ} (hp : p ∈ c.shownAt x y) :
    ∃ l ∈ c.layers, l.box.Mem x y ∧ p = l.placement.sample (x - l.x) (y - l.y) := by
  obtain ⟨l, hl, hshown⟩ := List.mem_filterMap.mp hp
  rw [shown?, hc.layerPixel hl] at hshown
  split at hshown
  · next h => exact ⟨l, hl, h.1, (Option.some.inj hshown).symm⟩
  · cases hshown

end
end Composite
end TilePyramid
