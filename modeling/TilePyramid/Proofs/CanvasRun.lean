import TilePyramid.Proofs.AlignedBox
import TilePyramid.Proofs.ExactPlacement
import TilePyramid.Proofs.Layering
import TilePyramid.Proofs.Resolving

/-!
# Runs on a canvas

The stages of a run on a canvas, and why none of them comes out empty: the output box holds the
part of the data that lies on the canvas, so the view has pixels, the data has pixels within the
view, and the pyramid has a root. The only error for missing pixels is that of the alignment.
-/
namespace TilePyramid

namespace PixelBox

theorem contains_crop {b bounds : PixelBox} (h : (b.crop bounds).isEmpty = false) :
    bounds.contains (b.crop bounds) = true := by
  obtain ⟨hw, hh⟩ := isEmpty_eq_false_iff.mp h
  rw [contains_iff]
  simp only [crop] at hw hh ⊢
  omega

theorem crop_eq_self {b bounds : PixelBox} (hb : b.isEmpty = false)
    (h : bounds.contains b = true) : b.crop bounds = b := by
  obtain ⟨hw, hh⟩ := isEmpty_eq_false_iff.mp hb
  obtain ⟨hx, hy, hright, hbottom⟩ := contains_iff.mp h
  rw [crop, max_eq_left hx, max_eq_left hy, min_eq_left hright, min_eq_left hbottom,
    max_eq_left hw.le, max_eq_left hh.le]

theorem isEmpty_crop_empty (bounds : PixelBox) : (empty.crop bounds).isEmpty = true := by
  by_contra hne
  obtain ⟨hw, -⟩ := isEmpty_eq_false_iff.mp (Bool.eq_false_of_not_eq_true hne)
  simp only [crop, empty] at hw
  omega

theorem isEmpty_of_contains {b inner : PixelBox} (hinner : inner.isEmpty = false)
    (h : b.contains inner = true) : b.isEmpty = false := by
  obtain ⟨hw, hh⟩ := isEmpty_eq_false_iff.mp hinner
  obtain ⟨hx, hy, hright, hbottom⟩ := contains_iff.mp h
  exact isEmpty_eq_false_iff.mpr (by omega)

theorem align_ne_emptyOutput (b : PixelBox) (total cols rows : Int) (wholeCells : Bool) :
    b.align total cols rows wholeCells ≠ .error .emptyOutput := by
  rw [align, cropToCanvas]
  by_cases hout : (b.crop (ofSize 0 0 cols rows)).isEmpty = true <;> simp [hout, Except.map]

theorem crop_view_isEmpty {b bounds view : PixelBox} (hb : (b.crop bounds).isEmpty = false)
    (hview : view.contains (b.crop bounds) = true) :
    ((b.translate (-view.minX) (-view.minY)).crop
      (.ofImage view.width.toNat view.height.toNat)).isEmpty = false := by
  obtain ⟨hw, hh⟩ := isEmpty_eq_false_iff.mp hb
  obtain ⟨hx, hy, hright, hbottom⟩ := contains_iff.mp hview
  apply isEmpty_eq_false_iff.mpr
  simp only [crop, translate, ofImage, ofSize, width, height] at hw hh hx hy hright hbottom ⊢
  omega

end PixelBox

namespace Composite

variable {α σ : Type}

theorem prepare_eq_ok {c view : Composite α σ} {box : PixelBox} (h : c.prepare box = .ok view) :
    box.isEmpty = false ∧ view = { c with view := some box } := by
  rw [prepare] at h
  split at h
  · cases h
  · next hbox =>
    obtain rfl := Except.ok.inj h
    exact ⟨by simpa only [Bool.not_eq_true] using hbox, rfl⟩

theorem box_view {c : Composite α σ} (hview : c.view = none) (hbox : c.box ≠ .empty)
    (view : PixelBox) :
    box { c with view := some view } = c.box.translate (-view.minX) (-view.minY) := by
  cases hlayers : c.layers with
  | nil =>
    rw [box, hlayers] at hbox
    exact absurd rfl hbox
  | cons l ls =>
    simp only [box, hlayers, origin, hview, PixelBox.translate, neg_zero, add_zero]

end Composite

namespace Options

variable {α σ : Type} [Arith α]

theorem bounded_frame (o : Options α σ) :
    o.bounded.tileSize = o.tileSize ∧ o.bounded.aspectRatio = o.aspectRatio ∧
      o.bounded.globalResolution = o.globalResolution ∧ o.bounded.mode = o.mode ∧
      o.bounded.projection = o.projection := by
  rw [bounded]
  split <;> exact ⟨rfl, rfl, rfl, rfl, rfl⟩

theorem inputFiles_bounded (o : Options α σ) : o.bounded.inputFiles = o.inputFiles := by
  cases hglobe : o.wholeGlobe <;> simp [bounded, hglobe]

variable [NumberText α]

theorem inputFault?_eq_none {o : Options α σ} (h : o.inputFault? = none) :
    o.tileSize ≠ 0 ∧ o.aspectRatio ≠ 0 ∧
      ∀ n, o.globalResolution = some n → isPowerOfTwo n = true := by
  rw [inputFault?] at h
  split at h
  · cases h
  · split at h
    · cases h
    · next htile =>
      split at h
      · cases h
      · next hratio =>
        refine ⟨htile, hratio, fun n hn => ?_⟩
        cases hpow : isPowerOfTwo n with
        | true => rfl
        | false =>
          rw [hn, Option.filter_some_pos (by rw [hpow]; rfl)] at h
          cases h

theorem validate_eq_none_iff {o checked : Options α σ} : o.validate = (checked, none) ↔
    o.inputFault? = none ∧ o.named.boundsFault? = none ∧ o.named.bounded.modeFault? = none ∧
      checked = o.named.bounded := by
  simp only [validate]
  cases hinput : o.inputFault? with
  | some fault => simp
  | none =>
    cases hbounds : o.named.boundsFault? with
    | some fault => simp
    | none =>
      simp only [Prod.mk.injEq, true_and]
      exact ⟨fun h => ⟨h.2, h.1.symm⟩, fun h => ⟨h.2.symm, h.1⟩⟩

theorem validate_eq_none {o checked : Options α σ} (h : o.validate = (checked, none)) :
    checked.tileSize = o.tileSize ∧ checked.globalResolution = o.globalResolution ∧
      checked.mode = o.mode ∧ checked.projection = o.projection ∧ o.tileSize ≠ 0 ∧
      o.aspectRatio ≠ 0 ∧ ∀ n, o.globalResolution = some n → isPowerOfTwo n = true := by
  obtain ⟨hinput, -, -, rfl⟩ := validate_eq_none_iff.mp h
  obtain ⟨htile, -, hforced, hmode, hprojection⟩ := o.named.bounded_frame
  exact ⟨htile, hforced, hmode, hprojection, inputFault?_eq_none hinput⟩

end Options

namespace Mosaic

section
variable {α σ : Type} [Arith α] [NumberText α]

/-- The inputs of a run: those of its options, or the names of its sources if there are none. -/
def inputsOf (o : Options α σ) (sources : List (Source α σ)) : List Path :=
  if o.inputFiles.isEmpty then sources.map fun s => ⟨s.name⟩ else o.inputFiles

theorem checkedOptions_eq_ok_iff {o checked : Options α σ} {sources : List (Source α σ)} :
    checkedOptions o sources = .ok checked ↔
      { o with inputFiles := inputsOf o sources }.validate = (checked, none) ∧
        sources.length = checked.inputFiles.length := by
  rw [checkedOptions]
  split
  · next hvalid =>
    change Options.validate { o with inputFiles := inputsOf o sources } = _ at hvalid
    simp [hvalid]
  · next hvalid =>
    change Options.validate { o with inputFiles := inputsOf o sources } = _ at hvalid
    rw [hvalid]
    split
    · next hcount =>
      constructor
      · intro h
        obtain rfl := Except.ok.inj h
        exact ⟨rfl, hcount.symm⟩
      · rintro ⟨h, -⟩
        exact congrArg Except.ok (Prod.mk.inj h).1
    · next hcount =>
      refine iff_of_false (by simp) ?_
      rintro ⟨h, hlength⟩
      obtain rfl := (Prod.mk.inj h).1
      exact hcount hlength.symm

/-- What checked options share with those that were asked for, and what the check has found. -/
theorem checkedOptions_eq_ok {o checked : Options α σ} {sources : List (Source α σ)}
    (h : checkedOptions o sources = .ok checked) :
    checked.tileSize = o.tileSize ∧ checked.globalResolution = o.globalResolution ∧
      checked.mode = o.mode ∧ checked.projection = o.projection ∧ o.tileSize ≠ 0 ∧
      o.aspectRatio ≠ 0 ∧ ∀ n, o.globalResolution = some n → isPowerOfTwo n = true := by
  have hchecked := Options.validate_eq_none (checkedOptions_eq_ok_iff.mp h).1
  exact hchecked

theorem isPlain_checkedOptions {o checked : Options α σ} {sources : List (Source α σ)}
    (h : checkedOptions o sources = .ok checked) : checked.isPlain = o.isPlain := by
  obtain ⟨-, -, hmode, hprojection, -⟩ := checkedOptions_eq_ok h
  rw [Options.isPlain, hmode, hprojection]
  rfl

theorem tileSize_checkedOptions {o checked : Options α σ} {sources : List (Source α σ)}
    (h : checkedOptions o sources = .ok checked) : checked.tileSize ≠ 0 := by
  obtain ⟨htile, -, -, -, hpos, -⟩ := checkedOptions_eq_ok h
  exact htile ▸ hpos

theorem checkedOptions_ne_emptyOutput (o : Options α σ) (sources : List (Source α σ)) :
    checkedOptions o sources ≠ .error .emptyOutput := by
  rw [checkedOptions]
  split
  · simp
  · split <;> simp

end

/-- The layers of a run are its placed images, wherever they go. -/
theorem compose_eq_ofLayers {α σ : Type} (o : Options α σ) (r : Resolution α)
    (placed : List (Placement α σ)) :
    compose o r placed = .ofLayers (!o.multiband) (placed.flatMap fun p =>
      (Composite.wrappedColumns p.box r.total r.cols).map fun x => ⟨p, x, p.box.minY⟩) :=
  Composite.foldl_insertWrapped_eq placed r.total r.cols _

theorem align?_outputBox {α σ : Type} [Cartography α] {o : Options α σ}
    {sources : List (Source α σ)} {r : Resolution α} (h : Resolution.resolve o sources = .ok r)
    (c : Composite α σ) :
    c.box.align? r.total r.cols r.rows o.mode.wholeCells = some (outputBox o r c) := by
  obtain ⟨hcols, htotal⟩ := Resolution.cols_bounds h
  exact c.box.align?_eq_some (by omega) r.cols r.rows o.mode.wholeCells

theorem view_compose {α σ : Type} (o : Options α σ) (r : Resolution α)
    (ps : List (Placement α σ)) : (compose o r ps).view = none := by
  rw [compose_eq_ofLayers, Composite.view_ofLayers]

section
variable {α σ : Type} [Cartography α] [Arith σ]

theorem placements_ne_emptyOutput (o : Options α σ) (sources : List (Source α σ))
    (r : Resolution α) (range : Option (ValueRange σ)) :
    placements o sources r range ≠ .error .emptyOutput := by
  refine mapM_ne_error fun input _ => ?_
  rw [Placement.place]
  split
  · simp
  · refine bind_ne_error ?_ fun _ _ => by simp
    rw [Placement.edgeAndShift]
    split
    · simp
    · split
      · simp
      · split <;> simp

end

section
variable {α σ : Type}

/-- The part of the layers that lies within the view of a composite. -/
def dataBox (view : Composite α σ) : PixelBox := view.box.crop (.ofImage view.cols view.rows)

/-- The output box has pixels and holds the part of the composite that lies on the canvas; the
view that is set to it has columns and rows, in 32 bits, and data among them. -/
structure FillsView (r : Resolution α) (c view : Composite α σ) (aligned : PixelBox) :
    Prop where
  nonempty : aligned.isEmpty = false
  holds : aligned.contains (c.box.crop (.ofSize 0 0 r.cols r.rows)) = true
  cols : 0 < view.cols ∧ view.cols < 2 ^ 32
  rows : 0 < view.rows ∧ view.rows < 2 ^ 32
  data_nonempty : (dataBox view).isEmpty = false
  data_inside : (PixelBox.ofImage view.cols view.rows).contains (dataBox view) = true

theorem exists_fillsView {o : Options α σ} {r : Resolution α} {k : Nat} (hk : k ≤ 31)
    (htotal : r.total = 2 ^ k) (hrows : r.rows = 2 ^ k) (hcols : r.cols ≤ 2 ^ k)
    {c : Composite α σ} (hview : c.view = none) {aligned : PixelBox}
    (h : outputBox o r c = .ok aligned) :
    ∃ view, c.prepare aligned = .ok view ∧ FillsView r c view aligned := by
  rw [outputBox, hrows, htotal] at h
  obtain ⟨hdata, hholds, hwidth, hheight, -⟩ := PixelBox.align_eq_ok hcols h
  have hne := PixelBox.isEmpty_of_contains hdata hholds
  obtain ⟨hw, hh⟩ := PixelBox.isEmpty_eq_false_iff.mp hne
  have hbox : c.box ≠ .empty := by
    intro hempty
    rw [hempty, PixelBox.isEmpty_crop_empty] at hdata
    cases hdata
  have hlimit : (2 : Int) ^ k ≤ 2 ^ 31 := pow_le_pow_right₀ (by decide) hk
  let view : Composite α σ := { c with view := some aligned }
  have hdataBox : dataBox view = (c.box.translate (-aligned.minX) (-aligned.minY)).crop
      (.ofImage aligned.width.toNat aligned.height.toNat) := by
    rw [dataBox, Composite.box_view hview hbox]
    rfl
  have hshows : (dataBox view).isEmpty = false := by
    rw [hdataBox]
    exact PixelBox.crop_view_isEmpty hdata hholds
  refine ⟨view, if_neg (by rw [hne]; decide), hne, ?_, ?_, ?_, hshows, ?_⟩
  · rw [hrows]
    exact hholds
  · change 0 < aligned.width.toNat ∧ aligned.width.toNat < 2 ^ 32
    simp only [PixelBox.width] at hwidth ⊢
    omega
  · change 0 < aligned.height.toNat ∧ aligned.height.toNat < 2 ^ 32
    simp only [PixelBox.height] at hheight ⊢
    omega
  · exact PixelBox.contains_crop hshows

variable [Cartography α] [Arith σ] [Narrow α σ]

theorem treePlan_outcome_ne_emptyOutput {o : Options α σ} (htile : o.tileSize ≠ 0)
    {r : Resolution α} {c view : Composite α σ} {aligned : PixelBox}
    (h : FillsView r c view aligned) (settings : ViewerSettings α) :
    (treePlan o view.tileSource settings (dataBox view)).outcome ≠ .error .emptyOutput := by
  refine Generator.plan_outcome_ne_emptyOutput ?_ ?_
  · intro tileSize ht
    change (if o.tileSize = 0 then none else some o.tileSize) = some tileSize at ht
    rw [if_neg htile] at ht
    obtain rfl := Option.some.inj ht
    exact Nat.pos_of_ne_zero htile
  · change ((dataBox view).crop (.ofImage view.cols view.rows)).isEmpty = false
    rw [PixelBox.crop_eq_self h.data_nonempty h.data_inside]
    exact h.data_nonempty

theorem mosaicPlan_outcome_ne_emptyOutput {o : Options α σ} (htile : o.tileSize ≠ 0)
    (hforced : ∀ n, o.globalResolution = some n → isPowerOfTwo n = true ∧ n < 2 ^ 32)
    (sources : List (Source α σ)) (range : Option (ValueRange σ)) :
    (mosaicPlan o sources range).outcome ≠ .error .emptyOutput := by
  simp only [mosaicPlan, Plan.outcome_bind, Plan.outcome_ofExcept]
  refine bind_ne_error (Resolution.resolve_ne_emptyOutput o sources) fun r hr => ?_
  refine bind_ne_error (placements_ne_emptyOutput o sources r range) fun placed _ => ?_
  obtain ⟨k, htotal, hrows, -, hcols, hk⟩ :=
    Resolution.exists_size_eq_two_pow hr fun n hn => (hforced n hn).1
  refine bind_ne_error (PixelBox.align_ne_emptyOutput _ _ _ _ _) fun aligned haligned => ?_
  obtain ⟨view, hview, hfills⟩ := exists_fillsView (hk fun n hn => (hforced n hn).2) htotal hrows
    hcols (view_compose o r placed) haligned
  refine bind_ne_error ?_ fun view' hview' => ?_
  · rw [hview]
    simp
  obtain rfl : view' = view := Except.ok.inj (hview'.symm.trans hview)
  refine bind_ne_error (by simp) fun _ _ => ?_
  have hpixels : ¬ (decide (view'.cols = 0) || decide (view'.rows = 0)) = true := by
    rw [decide_eq_false hfills.cols.1.ne', decide_eq_false hfills.rows.1.ne']
    decide
  rw [if_neg hpixels]
  simp only [Plan.outcome_bind, Plan.outcome_ofExcept]
  refine bind_ne_error (mapError_configuration_ne_emptyOutput _) fun settings _ => ?_
  exact bind_ne_error (treePlan_outcome_ne_emptyOutput htile hfills settings) fun _ _ => by simp

/-- Whatever the inputs measure, a turn has a power of two of pixels, at most `2 ^ 31` if a forced
resolution fits 32 bits, and at least one column is left on the canvas. Once the inputs are placed,
nothing that has pixels on the canvas comes out empty: neither the output box, nor the view, nor the
data in it, nor the pyramid. -/
theorem plan_output_nonempty {o : Options α σ}
    (hbits : ∀ n, o.globalResolution = some n → n < 2 ^ 32) (sources : List (Source α σ))
    (range : Option (ValueRange σ)) :
    (∀ checked, checkedOptions o sources = .ok checked →
      ∀ r, Resolution.resolve checked sources = .ok r →
        (∃ k ≤ 31, r.total = 2 ^ k) ∧ 1 ≤ r.cols ∧ r.cols ≤ r.total ∧
          ∀ placed, placements checked sources r range = .ok placed →
            ∀ aligned, outputBox checked r (compose checked r placed) = .ok aligned →
              ∃ view, (compose checked r placed).prepare aligned = .ok view ∧
                FillsView r (compose checked r placed) view aligned) ∧
      (o.isPlain = false → (plan o sources range).outcome ≠ .error .emptyOutput) := by
  constructor
  · intro checked hchecked r hr
    obtain ⟨-, hglobal, -, -, -, -, hpower⟩ := checkedOptions_eq_ok hchecked
    obtain ⟨k, htotal, hrows, hpos, hcols, hk⟩ :=
      Resolution.exists_size_eq_two_pow hr (hglobal ▸ hpower)
    have hk : k ≤ 31 := hk (hglobal ▸ hbits)
    refine ⟨⟨k, hk, htotal⟩, hpos, htotal ▸ hcols, fun placed _ aligned haligned => ?_⟩
    exact exists_fillsView hk htotal hrows hcols (view_compose checked r placed) haligned
  · intro hcanvas
    simp only [plan, Plan.outcome_bind, Plan.outcome_ofExcept]
    refine bind_ne_error (checkedOptions_ne_emptyOutput o sources) fun checked hchecked => ?_
    obtain ⟨htile, hglobal, -, -, hpos, -, hpower⟩ := checkedOptions_eq_ok hchecked
    refine bind_ne_error ?_ fun _ _ => ?_
    · rw [checkRange]
      split <;> simp
    · rw [isPlain_checkedOptions hchecked, hcanvas]
      refine mosaicPlan_outcome_ne_emptyOutput (htile ▸ hpos) ?_ sources range
      intro n hn
      rw [hglobal] at hn
      exact ⟨hpower n hn, hbits n hn⟩

end

/-- Four pixels around a corner of four cells: the box of the output is the whole canvas. -/
theorem plan_output_nonempty_square :
    (∀ n, (Options.globeRun 2 8).globalResolution = some n → n < 2 ^ 32) ∧
      (Options.globeRun 2 8).isPlain = false ∧
        (plan (.globeRun 2 8) [.clearSquare 2 45 (-45) 45] none).outcome ≠ .error .emptyOutput ∧
          ((plan (.globeRun 2 8) [.clearSquare 2 45 (-45) 45] none).outcome.toOption.map
            fun s => (s.aligned, s.data)) = some (⟨0, 0, 8, 8⟩, ⟨3, 3, 5, 5⟩) := by
  have hbits : ∀ n, (Options.globeRun 2 8).globalResolution = some n → n < 2 ^ 32 := by
    intro n hn
    obtain rfl : 8 = n := Option.some.inj hn
    decide
  have hcanvas : (Options.globeRun 2 8).isPlain = false := rfl
  refine ⟨hbits, hcanvas, ?_, by decide +kernel⟩
  exact (plan_output_nonempty hbits [.clearSquare 2 45 (-45) 45] none).2 hcanvas

end Mosaic
end TilePyramid
