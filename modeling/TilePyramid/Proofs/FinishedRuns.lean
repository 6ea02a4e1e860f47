import TilePyramid.Proofs.AdjustedPixels
import TilePyramid.Proofs.CanvasRun

/-!
# Runs that have ended well

A run that ends well has passed all of its stages, and its last one is a generator whose plan is the
rest of the run. Main statement: such a run writes the tiles of the tree it returns, each at its
path, and the metadata that the format has for that tree.
-/
namespace TilePyramid

/-- A plan writes a pyramid: the tree is one of cells, every node of it has its tile, and the
metadata files are those of the tree. -/
structure Plan.Writes {α σ β : Type} [Arith α] [NumberText α] (p : Plan α σ β)
    (info : PyramidInfo) (format : Format α) (root : TileTree) : Prop where
  cells : ∃ kept, IsCellTree info.tileSize info.maxLevel kept root
  tiles : p.tiles.map Prod.fst = root.postorder.map fun n => info.tilePath format.mode n.value
  files : format.metadata info root = .ok p.files

theorem Plan.Writes.of_eq {α σ β γ : Type} [Arith α] [NumberText α] {p : Plan α σ β}
    {q : Plan α σ γ} {info : PyramidInfo} {format : Format α} {root : TileTree}
    (h : q.Writes info format root) (htiles : p.tiles = q.tiles) (hfiles : p.files = q.files) :
    p.Writes info format root where
  cells := h.cells
  tiles := htiles ▸ h.tiles
  files := hfiles ▸ h.files

theorem Generator.plan_writes {α σ : Type} [Arith α] [NumberText α] [Arith σ] {g : Generator α}
    {source : TileSource σ} {root : TileTree} {tileSize : Nat} (ht : g.tileSize = some tileSize)
    (hpos : 0 < tileSize) (h : (g.plan source).outcome = .ok root) :
    ∃ fileType format, g.fileType = some fileType ∧ g.format = some format ∧
      (g.plan source).Writes (g.infoOf source tileSize fileType) format root := by
  have hcells := plan_isCellTree ht hpos h
  obtain ⟨rendered, fileType, format, hfileType, hformat, -, hroot, htiles⟩ :=
    exists_render_of_plan ht h
  refine ⟨fileType, format, hfileType, hformat, ⟨_, hcells⟩, ?_, ?_⟩
  · rw [htiles, hroot, Tree.postorder_map, List.map_map, List.map_map]
    refine List.map_congr_left fun n _ => ?_
    rw [Function.comp_apply, Function.comp_apply, Tree.value_map]
  · obtain ⟨-, fileType', format', hfileType', hformat', hcut⟩ := plan_outcome_eq_ok ht h
    obtain rfl := Option.some.inj (hfileType.symm.trans hfileType')
    obtain rfl := Option.some.inj (hformat.symm.trans hformat')
    rw [hcut] at h ⊢
    exact cut_files_eq_ok h

/-- The measures of the pyramid that options ask for. -/
def Options.pyramidOf {α σ : Type} (o : Options α σ) (image : TileSource σ) : PyramidInfo where
  name := o.name
  fileType := o.outputFileType
  tileSize := o.tileSize
  maxLevel := maxLevelFor (max image.cols image.rows) o.tileSize
  cols := image.cols
  rows := image.rows

theorem Adjustments.size_apply {σ : Type} [Arith σ] (a : Adjustments σ) (r : Raster σ)
    (target : Target σ) :
    (a.apply r target).width = r.width ∧ (a.apply r target).height = r.height := by
  rw [a.apply_eq]
  exact ⟨rfl, rfl⟩

theorem Options.inputFiles_ne_nil {α σ : Type} [Arith α] [NumberText α] {o checked : Options α σ}
    (h : o.validate = (checked, none)) : checked.inputFiles ≠ [] := by
  obtain ⟨hinput, -, -, rfl⟩ := validate_eq_none_iff.mp h
  rw [inputFiles_bounded]
  rw [inputFault?] at hinput
  split at hinput
  · cases hinput
  · next hsome => exact fun hnil => hsome (List.isEmpty_iff.mpr hnil)

theorem mapError_eq_ok {ε ε' β : Type} {f : ε → ε'} {x : Except ε β} {b : β}
    (h : x.mapError f = .ok b) : x = .ok b := by
  cases x with
  | error e => cases h
  | ok b' => exact congrArg Except.ok (Except.ok.inj h)

namespace Mosaic

theorem sources_ne_nil {α σ : Type} [Arith α] [NumberText α] {o checked : Options α σ}
    {sources : List (Source α σ)} (h : checkedOptions o sources = .ok checked) : sources ≠ [] := by
  obtain ⟨hvalid, hcount⟩ := checkedOptions_eq_ok_iff.mp h
  rintro rfl
  exact Options.inputFiles_ne_nil hvalid (List.length_eq_zero_iff.mp hcount.symm)

section
variable {α σ : Type} [Cartography α] [Arith σ]

theorem treePlan_writes {o : Options α σ} (htile : o.tileSize ≠ 0) {image : TileSource σ}
    {settings : ViewerSettings α} {crop : PixelBox} {root : TileTree}
    (h : (treePlan o image settings crop).outcome = .ok root) :
    (treePlan o image settings crop).Writes (o.pyramidOf image) settings.format root := by
  obtain ⟨fileType, format, hfileType, hformat, hwrites⟩ :=
    Generator.plan_writes (if_neg htile) (Nat.pos_of_ne_zero htile) h
  obtain rfl := Option.some.inj hformat
  obtain rfl : o.outputFileType = fileType := by
    change (if o.outputFileType.isEmpty then none else some o.outputFileType) = _ at hfileType
    split at hfileType
    · cases hfileType
    · exact Option.some.inj hfileType
  exact hwrites

/-- The stages of a run of one source without a canvas, and what the run has written. -/
structure PlainRun (o : Options α σ) (s : Source α σ) (range : Option (ValueRange σ))
    (summary : Summary α) (image : TileSource σ) (settings : ViewerSettings α) : Prop where
  aligned_eq : summary.aligned = .ofImage image.cols image.rows
  data_eq : summary.data = summary.aligned
  dataDegrees_eq : summary.dataDegrees = GeoReference.globe
  settings_eq : ViewerSettings.ofOptions o GeoReference.globe = .ok settings
  treePlan_eq : (treePlan o image settings (.ofImage s.cols s.rows)).outcome = .ok summary.root
  actions_eq : (plainPlan o s range).actions =
    (treePlan o image settings (.ofImage s.cols s.rows)).actions
  tiles_eq : (plainPlan o s range).tiles =
    (treePlan o image settings (.ofImage s.cols s.rows)).tiles
  files_eq : (plainPlan o s range).files =
    (treePlan o image settings (.ofImage s.cols s.rows)).files

theorem exists_plainRun {o : Options α σ} {s : Source α σ} {range : Option (ValueRange σ)}
    {summary : Summary α} (h : (plainPlan o s range).outcome = .ok summary) :
    ∃ image settings, PlainRun o s range summary image settings := by
  have hrun := plainPlan.eq_1 o s range
  rw [hrun] at h
  obtain ⟨-, -, hstage, h⟩ := Plan.ofExcept_bind_eq_ok h
  rw [hstage] at hrun
  dsimp only at h hrun
  obtain ⟨settings, hsettings, hstage, h⟩ := Plan.ofExcept_bind_eq_ok h
  rw [hstage] at hrun
  obtain ⟨root, hroot, h, hactions⟩ := Plan.bind_actions_eq_ok h
  rw [← hrun] at hactions
  obtain rfl := Except.ok.inj h
  have hwritten := hactions.trans (List.append_nil _)
  obtain ⟨hcols, hrows⟩ := Adjustments.size_apply (.ofOptions o range) s.raster
    ⟨o.channel.getD s.raster.channel, o.nodata.or s.nodata⟩
  have hsize : PixelBox.ofImage s.cols s.rows = .ofImage _ _ := congrArg₂ _ hcols.symm hrows.symm
  exact ⟨_, settings, hsize, rfl, rfl, mapError_eq_ok hsettings, hroot, hwritten,
    congrArg (List.filterMap Action.tile?) hwritten,
    congrArg (List.filterMap Action.file?) hwritten⟩

theorem planPlain_eq_plainPlan {o : Options α σ} {s : Source α σ} {range : Option (ValueRange σ)}
    {summary : Summary α} (h : (planPlain o s range).outcome = .ok summary) :
    ∃ checked, checkedOptions o [s] = .ok checked ∧
      planPlain o s range = plainPlan checked s range := by
  have hrun := planPlain.eq_1 o s range
  rw [hrun] at h
  obtain ⟨checked, hchecked, hstage, h⟩ := Plan.ofExcept_bind_eq_ok h
  rw [hstage] at hrun
  obtain ⟨-, -, hstage, -⟩ := Plan.ofExcept_bind_eq_ok h
  rw [hstage] at hrun
  exact ⟨checked, hchecked, hrun⟩

variable [Narrow α σ]

/-- The stages of a run on a canvas, and what the run has written. -/
structure CanvasRun (o : Options α σ) (sources : List (Source α σ))
    (range : Option (ValueRange σ)) (summary : Summary α) (r : Resolution α)
    (placed : List (Placement α σ)) (view : Composite α σ) (settings : ViewerSettings α) :
    Prop where
  resolve_eq : Resolution.resolve o sources = .ok r
  placements_eq : placements o sources r range = .ok placed
  outputBox_eq : outputBox o r (compose o r placed) = .ok summary.aligned
  prepare_eq : (compose o r placed).prepare summary.aligned = .ok view
  settings_eq :
    ViewerSettings.ofOptions o (.ofCanvas summary.aligned r.cols r.rows) = .ok settings
  treePlan_eq : (treePlan o view.tileSource settings (dataBox view)).outcome = .ok summary.root
  data_eq : summary.data = dataBox view
  dataDegrees_eq : summary.dataDegrees =
    .ofCanvas (summary.data.translate summary.aligned.minX summary.aligned.minY) r.cols r.rows
  actions_eq : (mosaicPlan o sources range).actions =
    (Plan.within (ofInt 0) prepareShare (Plan.report (α := α) (σ := σ) (ofInt 1))).actions ++
      ((treePlan o view.tileSource settings (dataBox view)).within prepareShare (ofInt 1)).actions
  tiles_eq : (mosaicPlan o sources range).tiles =
    (treePlan o view.tileSource settings (dataBox view)).tiles
  files_eq : (mosaicPlan o sources range).files =
    (treePlan o view.tileSource settings (dataBox view)).files

theorem exists_canvasRun {o : Options α σ} {sources : List (Source α σ)}
    {range : Option (ValueRange σ)} {summary : Summary α}
    (h : (mosaicPlan o sources range).outcome = .ok summary) :
    ∃ r placed view settings, CanvasRun o sources range summary r placed view settings := by
  have hrun := mosaicPlan.eq_1 o sources range
  -- The outcome is peeled stage by stage in `h`; `hrun` keeps the plan with the same stages taken,
  -- since its actions are read at the end.
  rw [hrun] at h
  obtain ⟨r, hr, hstage, h⟩ := Plan.ofExcept_bind_eq_ok h
  rw [hstage] at hrun
  obtain ⟨placed, hplaced, hstage, h⟩ := Plan.ofExcept_bind_eq_ok h
  rw [hstage] at hrun
  dsimp only at h hrun
  obtain ⟨aligned, haligned, hstage, h⟩ := Plan.ofExcept_bind_eq_ok h
  rw [hstage] at hrun
  obtain ⟨view, hview, hstage, h⟩ := Plan.ofExcept_bind_eq_ok h
  rw [hstage] at hrun
  obtain ⟨_, -, h, hreport⟩ := Plan.bind_actions_eq_ok h
  rw [← hrun] at hreport
  split at h
  · cases h
  · next hpixels =>
    rw [if_neg hpixels] at hreport
    obtain ⟨settings, hsettings, hstage, h⟩ := Plan.ofExcept_bind_eq_ok h
    rw [hstage] at hreport
    obtain ⟨root, hroot, h, hactions⟩ := Plan.bind_actions_eq_ok h
    rw [hactions] at hreport
    obtain rfl := Except.ok.inj h
    have hdone := hreport.trans (congrArg _ (List.append_nil _))
    -- The run adds nothing to the generator but reports of its progress.
    have hwritten {δ : Type} {f : Action α σ → Option δ} (hf : ∀ x, f (.report x) = none) :
        (mosaicPlan o sources range).actions.filterMap f =
          (treePlan o view.tileSource settings (dataBox view)).actions.filterMap f := by
      have hprepared : (Plan.within (ofInt 0) prepareShare
          (Plan.report (α := α) (σ := σ) (ofInt 1))).actions.filterMap f = [] := by
        rw [Plan.within, Plan.filterMap_shareActions hf]
        exact List.filterMap_eq_nil_iff.mpr fun a ha => List.mem_singleton.mp ha ▸ hf _
      rw [hdone, List.filterMap_append, hprepared, Plan.within, Plan.filterMap_shareActions hf]
      rfl
    exact ⟨r, placed, view, settings, hr, hplaced, haligned, hview, mapError_eq_ok hsettings,
      hroot, rfl, rfl, hdone, hwritten fun _ => rfl, hwritten fun _ => rfl⟩

theorem plan_eq_mosaicPlan {o : Options α σ} (hcanvas : o.isPlain = false)
    {sources : List (Source α σ)} {range : Option (ValueRange σ)} {summary : Summary α}
    (h : (plan o sources range).outcome = .ok summary) :
    ∃ checked, checkedOptions o sources = .ok checked ∧
      plan o sources range = mosaicPlan checked sources range := by
  have hrun := plan.eq_1 o sources range
  rw [hrun] at h
  obtain ⟨checked, hchecked, hstage, h⟩ := Plan.ofExcept_bind_eq_ok h
  rw [hstage] at hrun
  obtain ⟨-, -, hstage, -⟩ := Plan.ofExcept_bind_eq_ok h
  rw [hstage, (isPlain_checkedOptions hchecked).trans hcanvas] at hrun
  exact ⟨checked, hchecked, hrun⟩

theorem plan_eq_plainPlan {o : Options α σ} (hplain : o.isPlain = true)
    {sources : List (Source α σ)} {range : Option (ValueRange σ)} {summary : Summary α}
    (h : (plan o sources range).outcome = .ok summary) :
    ∃ checked s, checkedOptions o sources = .ok checked ∧
      plan o sources range = plainPlan checked s range := by
  have hrun := plan.eq_1 o sources range
  rw [hrun] at h
  obtain ⟨checked, hchecked, hstage, h⟩ := Plan.ofExcept_bind_eq_ok h
  rw [hstage] at hrun
  obtain ⟨-, -, hstage, -⟩ := Plan.ofExcept_bind_eq_ok h
  rw [hstage, (isPlain_checkedOptions hchecked).trans hplain] at hrun
  obtain ⟨s, rest, rfl⟩ := List.exists_cons_of_ne_nil (sources_ne_nil hchecked)
  exact ⟨checked, s, hchecked, hrun⟩

theorem exists_canvasRun_of_plan {o : Options α σ} (hcanvas : o.isPlain = false)
    {sources : List (Source α σ)} {range : Option (ValueRange σ)} {summary : Summary α}
    (h : (plan o sources range).outcome = .ok summary) :
    ∃ checked r placed view settings, checkedOptions o sources = .ok checked ∧
      CanvasRun checked sources range summary r placed view settings ∧
        (plan o sources range).Writes (checked.pyramidOf view.tileSource) settings.format
          summary.root := by
  obtain ⟨checked, hchecked, hrun⟩ := plan_eq_mosaicPlan hcanvas h
  rw [hrun] at h ⊢
  obtain ⟨r, placed, view, settings, hstages⟩ := exists_canvasRun h
  have htile := tileSize_checkedOptions hchecked
  exact ⟨checked, r, placed, view, settings, hchecked, hstages,
    (treePlan_writes htile hstages.treePlan_eq).of_eq hstages.tiles_eq hstages.files_eq⟩

theorem exists_plainRun_of_plan {o : Options α σ} (hplain : o.isPlain = true)
    {sources : List (Source α σ)} {range : Option (ValueRange σ)} {summary : Summary α}
    (h : (plan o sources range).outcome = .ok summary) :
    ∃ checked s image settings, checkedOptions o sources = .ok checked ∧
      PlainRun checked s range summary image settings ∧
        (plan o sources range).Writes (checked.pyramidOf image) settings.format summary.root := by
  obtain ⟨checked, s, hchecked, hrun⟩ := plan_eq_plainPlan hplain h
  rw [hrun] at h ⊢
  obtain ⟨image, settings, hstages⟩ := exists_plainRun h
  have htile := tileSize_checkedOptions hchecked
  exact ⟨checked, s, image, settings, hchecked, hstages,
    (treePlan_writes htile hstages.treePlan_eq).of_eq hstages.tiles_eq hstages.files_eq⟩

/-- Whatever the options ask for, a run that ends well has written one pyramid. -/
theorem exists_writes_of_plan {o : Options α σ} {sources : List (Source α σ)}
    {range : Option (ValueRange σ)} {summary : Summary α}
    (h : (plan o sources range).outcome = .ok summary) :
    ∃ checked image extent settings, checkedOptions o sources = .ok checked ∧
      ViewerSettings.ofOptions checked extent = .ok settings ∧
        (plan o sources range).Writes (checked.pyramidOf image) settings.format summary.root := by
  cases hplain : o.isPlain with
  | true =>
    obtain ⟨checked, s, image, settings, hchecked, hstages, hwrites⟩ :=
      exists_plainRun_of_plan hplain h
    exact ⟨checked, image, _, settings, hchecked, hstages.settings_eq, hwrites⟩
  | false =>
    obtain ⟨checked, r, placed, view, settings, hchecked, hstages, hwrites⟩ :=
      exists_canvasRun_of_plan hplain h
    exact ⟨checked, _, _, settings, hchecked, hstages.settings_eq, hwrites⟩

/-- With a writer that takes everything, a run ends as it is planned to. -/
theorem exists_recorded_run {β : Type} (o : Options α σ) (sources : List (Source α σ))
    (range : Option (ValueRange σ)) (f : Summary α → β) (b : β)
    (h : (plan o sources range).outcome.toOption.map f = some b) :
    ∃ summary, (((plan o sources range).execute TileWriter.recorder fun _ => pure ()).run []).1 =
      .ok summary ∧ f summary = b := by
  obtain ⟨summary, hrun, hf⟩ := Option.map_eq_some_iff.mp h
  rw [Plan.execute_of_accepts TileWriter.recorder_accepts, eq_ok_of_toOption hrun]
  exact ⟨summary, rfl, hf⟩

end
end Mosaic
end TilePyramid
