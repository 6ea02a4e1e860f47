import TilePyramid.Proofs.CheckedOptions
import TilePyramid.Proofs.UntouchedStores

/-!
# Faults that are found late

The last stage of a run stamps the format of its viewer on a generator and starts it. The check of
the options has made sure of the tile size and of all that the viewer needs, but it lets an empty
file type pass. Main statement: the file type is the only option that a run can still fail for once
its image is there, and it does so exactly if it is empty.
-/
namespace TilePyramid

theorem bind_pure_eq_error_iff {ε β γ : Type} {x : Except ε β} {f : β → γ} {e : ε} :
    (x >>= fun b => pure (f b)) = .error e ↔ x = .error e := by
  cases x with
  | error e' =>
    constructor <;> exact fun h => congrArg _ (Except.error.inj h)
  | ok b => exact iff_of_false (pure_ne_error _ _) (by simp)

theorem ViewerSettings.exists_ofOptions {α σ : Type} {o : Options α σ} (h : o.modeFault? = none)
    (extent : DegreeBox α) :
    ∃ settings, ofOptions o extent = .ok settings ∧ settings.mode = o.mode := by
  have hmodule (hneeds : o.mode = .celestia ∨ o.mode = .uniview) :
      ∃ name, o.moduleName = some name := by
    cases hname : o.moduleName with
    | some name => exact ⟨name, rfl⟩
    | none => rcases hneeds with hmode | hmode <;> simp [Options.modeFault?, hmode, hname] at h
  cases hmode : o.mode with
  | uniview =>
    obtain ⟨name, hname⟩ := hmodule (.inr hmode)
    exact ⟨.uniview o.terrain name, by simp [ofOptions, moduleName, hmode, hname, Except.map], rfl⟩
  | celestia =>
    obtain ⟨name, hname⟩ := hmodule (.inl hmode)
    exact ⟨.celestia name, by simp [ofOptions, moduleName, hmode, hname, Except.map], rfl⟩
  | _ => exact ⟨_, by rw [ofOptions, hmode], rfl⟩

theorem PixelBox.align_eq_error {b : PixelBox} {total cols rows : Int} {wholeCells : Bool}
    {e : Error} (h : b.align total cols rows wholeCells = .error e) :
    ∃ width height, e = .emptyComposite width height := by
  rw [align, cropToCanvas] at h
  by_cases hout : (b.crop (ofSize 0 0 cols rows)).isEmpty = true
  · rw [if_pos hout] at h
    exact ⟨_, _, (Except.error.inj h).symm⟩
  · rw [if_neg hout] at h
    cases h

namespace Generator

variable {α σ : Type} [Arith α] [NumberText α] [Arith σ]

theorem plan_outcome_ne_configuration {g : Generator α} {tileSize : Nat} {fileType : String}
    {format : Format α} (h : g.IsConfigured tileSize fileType format)
    (hmetadata : ∀ info root, ∃ files, format.metadata info root = .ok files)
    (source : TileSource σ) (fault : ConfigFault) :
    (g.plan source).outcome ≠ .error (.configuration fault) := by
  cases hwindow : (g.window source).isEmpty with
  | true =>
    rw [plan_of_isEmpty_window h hwindow]
    simp
  | false =>
    obtain ⟨rendered, hrender⟩ := exists_render_of_window h hwindow
    obtain ⟨files, hfiles⟩ := hmetadata (g.infoOf source tileSize fileType)
      (rendered.map RenderedTile.tile)
    obtain ⟨hwhole, -⟩ := cut_of_render (g.infoOf source tileSize fileType) format hrender
    rw [plan_of_window h hwindow, (hwhole files hfiles).2]
    simp

end Generator

namespace Options

variable {α σ : Type}

/-- The generator that the last stage of a run starts. -/
def generator (o : Options α σ) (settings : ViewerSettings α) (crop : PixelBox) : Generator α :=
  Generator.new o.name |>.setTileSize o.tileSize |>.setFileType o.outputFileType |>.setCrop crop
    |>.setFormat settings.format

theorem generator_state (o : Options α σ) (settings : ViewerSettings α) (crop : PixelBox) :
    (o.generator settings crop).state =
      if o.tileSize ≠ 0 ∧ o.outputFileType ≠ "" then .configured else .unconfigured := by
  by_cases htile : o.tileSize = 0 <;> by_cases htype : o.outputFileType = "" <;>
    simp [generator, Generator.new, Generator.setTileSize, Generator.setFileType,
      Generator.setCrop, Generator.setFormat, Generator.refresh, Generator.isReady, htile, htype]

theorem isConfigured_generator {o : Options α σ} (htile : o.tileSize ≠ 0)
    (htype : o.outputFileType ≠ "") (settings : ViewerSettings α) (crop : PixelBox) :
    (o.generator settings crop).IsConfigured o.tileSize o.outputFileType settings.format where
  state_eq := by rw [generator_state, if_pos ⟨htile, htype⟩]
  tileSize_eq := if_neg htile
  tileSize_pos := Nat.pos_of_ne_zero htile
  fileType_eq := if_neg (by simpa using htype)
  format_eq := rfl

/-- A run of one image that no file type is asked for. -/
def untypedRun : Options Rat Float32 := { Options.globeRun 1 8 with outputFileType := "" }

end Options

namespace Mosaic

section
variable {α σ : Type} [Cartography α]

theorem isEmpty_of_outputBox {o : Options α σ} {sources : List (Source α σ)} {r : Resolution α}
    {c : Composite α σ} {aligned : PixelBox} (hr : Resolution.resolve o sources = .ok r)
    (hpower : ∀ n, o.globalResolution = some n → isPowerOfTwo n = true)
    (h : outputBox o r c = .ok aligned) : aligned.isEmpty = false := by
  obtain ⟨k, htotal, hrows, -, hcols, -⟩ := Resolution.exists_size_eq_two_pow hr hpower
  rw [outputBox, htotal, hrows] at h
  obtain ⟨hdata, hholds, -⟩ := PixelBox.align_eq_ok hcols h
  exact PixelBox.isEmpty_of_contains hdata hholds

end

variable {α σ : Type} [Cartography α] [Arith σ]

theorem treePlan_eq (o : Options α σ) (image : TileSource σ) (settings : ViewerSettings α)
    (crop : PixelBox) :
    treePlan o image settings crop = (o.generator settings crop).plan image := rfl

theorem treePlan_outcome_eq_configuration_iff {o : Options α σ} (htile : o.tileSize ≠ 0)
    (image : TileSource σ) (settings : ViewerSettings α) (crop : PixelBox) {fault : ConfigFault} :
    (treePlan o image settings crop).outcome = .error (.configuration fault) ↔
      fault = .generatorBusy .unconfigured ∧ o.outputFileType = "" := by
  rw [treePlan_eq]
  by_cases htype : o.outputFileType = ""
  · have hstate : (o.generator settings crop).state = .unconfigured := by
      rw [Options.generator_state, if_neg fun h => h.2 htype]
    rw [Generator.plan, if_pos (by rw [hstate]; decide), hstate]
    simp [htype, eq_comm]
  · have hready := Options.isConfigured_generator htile htype settings crop
    refine iff_of_false ?_ fun h => htype h.2
    exact Generator.plan_outcome_ne_configuration hready settings.exists_metadata image fault

/-- What the last stage of a run finds of its options. The format has all that its metadata is made
of, and the generator that is stamped with it can be started unless the file type is empty. -/
structure IsStamped (o : Options α σ) (settings : ViewerSettings α) : Prop where
  mode_eq : settings.mode = o.mode
  exists_metadata : ∀ info root, ∃ files, settings.format.metadata info root = .ok files
  treePlan_eq : ∀ (image : TileSource σ) crop,
    treePlan o image settings crop = (o.generator settings crop).plan image
  state_eq_iff : ∀ crop,
    (o.generator settings crop).state = .configured ↔ o.outputFileType ≠ ""

theorem exists_isStamped {o checked : Options α σ} (hvalid : o.validate = (checked, none))
    (extent : DegreeBox α) :
    ∃ settings, ViewerSettings.ofOptions checked extent = .ok settings ∧
      IsStamped checked settings := by
  obtain ⟨-, -, hmode, hchecked⟩ := Options.validate_eq_none_iff.mp hvalid
  rw [← hchecked] at hmode
  obtain ⟨settings, hsettings, hsame⟩ := ViewerSettings.exists_ofOptions hmode extent
  obtain ⟨htile, -, -, -, hpos, -⟩ := Options.validate_eq_none hvalid
  rw [← htile] at hpos
  refine ⟨settings, hsettings, hsame, settings.exists_metadata, fun _ _ => rfl, fun crop => ?_⟩
  rw [Options.generator_state]
  by_cases htype : checked.outputFileType = "" <;> simp [hpos, htype]

/-- A run without a canvas fails as the generator does, once its source has a georeference. -/
theorem plainPlan_outcome_eq_error_iff {o : Options α σ} {s : Source α σ}
    (range : Option (ValueRange σ)) {g : GeoReference α} {settings : ViewerSettings α}
    (hgeoref : Resolution.orGlobe s s.georef = .ok g)
    (hsettings : ViewerSettings.ofOptions o GeoReference.globe = .ok settings) :
    ∃ image, ∀ e, (plainPlan o s range).outcome = .error e ↔
      (treePlan o image settings (.ofImage s.cols s.rows)).outcome = .error e := by
  let target : Adjustments.Target σ := ⟨o.channel.getD s.raster.channel, o.nodata.or s.nodata⟩
  refine ⟨((Adjustments.ofOptions o range).apply s.raster target).tileSource, fun e => ?_⟩
  rw [plainPlan, hgeoref, Plan.ofExcept_ok_bind, hsettings]
  simp only [Except.mapError, Plan.ofExcept_ok_bind, Plan.outcome_bind]
  exact bind_pure_eq_error_iff

variable [Narrow α σ]

/-- A run on a canvas fails as the generator does, once the box of its output is known. -/
theorem mosaicPlan_outcome_eq_error_iff {o : Options α σ} {sources : List (Source α σ)}
    {r : Resolution α} {range : Option (ValueRange σ)} {placed : List (Placement α σ)}
    {aligned : PixelBox} {settings : ViewerSettings α} (hr : Resolution.resolve o sources = .ok r)
    (hplaced : placements o sources r range = .ok placed)
    (haligned : outputBox o r (compose o r placed) = .ok aligned)
    (hne : aligned.isEmpty = false)
    (hsettings : ViewerSettings.ofOptions o (.ofCanvas aligned r.cols r.rows) = .ok settings) :
    let view : Composite α σ := { compose o r placed with view := some aligned }
    ∀ e, (mosaicPlan o sources range).outcome = .error e ↔
      (treePlan o view.tileSource settings (dataBox view)).outcome = .error e := by
  intro view e
  have hview : (compose o r placed).prepare aligned = .ok view := if_neg (by rw [hne]; decide)
  obtain ⟨hwidth, hheight⟩ := PixelBox.isEmpty_eq_false_iff.mp hne
  have hcols : view.cols ≠ 0 := by
    change aligned.width.toNat ≠ 0
    rw [PixelBox.width]
    omega
  have hrows : view.rows ≠ 0 := by
    change aligned.height.toNat ≠ 0
    rw [PixelBox.height]
    omega
  rw [mosaicPlan, hr, Plan.ofExcept_ok_bind, hplaced, Plan.ofExcept_ok_bind]
  dsimp only
  rw [haligned, Plan.ofExcept_ok_bind, hview, Plan.ofExcept_ok_bind, hsettings]
  simp only [hcols, hrows, decide_false, Bool.or_false, Bool.false_eq_true, if_false,
    Except.mapError, Plan.ofExcept_ok_bind, Plan.outcome_bind, Plan.outcome_within,
    Plan.outcome_report]
  exact bind_pure_eq_error_iff

/-- Options that have passed their check have all that the metadata of their viewer needs, and their
generator can be started exactly if the file type is not empty. With a writer that fails for want of
storage at most, a run that has its image fails for its options in no other way than that: on a
canvas once the box of the output is known, and without one in any case. -/
theorem late_fault_iff {S : Type} {o checked : Options α σ} (hvalid : o.validate = (checked, none))
    {w : TileWriter (StateM S) σ} (hw : w.FailsInStorage) (report : α → StateM S Unit)
    (store : S) :
    (∀ extent, ∃ settings, ViewerSettings.ofOptions checked extent = .ok settings ∧
      IsStamped checked settings) ∧
    (∀ sources range r placed, Resolution.resolve checked sources = .ok r →
      placements checked sources r range = .ok placed → ∀ fault,
        (((mosaicPlan checked sources range).execute w report).run store).1 =
            .error (.configuration fault) ↔
          fault = .generatorBusy .unconfigured ∧ checked.outputFileType = "" ∧
            ∃ aligned, outputBox checked r (compose checked r placed) = .ok aligned) ∧
    ∀ s range g, Resolution.orGlobe s s.georef = .ok g → ∀ fault,
      (((plainPlan checked s range).execute w report).run store).1 =
          .error (.configuration fault) ↔
        fault = .generatorBusy .unconfigured ∧ checked.outputFileType = "" := by
  obtain ⟨htile, hglobal, -, -, hpos, -, hpower⟩ := Options.validate_eq_none hvalid
  rw [← htile] at hpos
  rw [← hglobal] at hpower
  refine ⟨exists_isStamped hvalid, ?_, ?_⟩
  · intro sources range r placed hr hplaced fault
    rw [(failsEarly_mosaicPlan checked sources range).execute_eq_error_iff hw report store rfl]
    cases haligned : outputBox checked r (compose checked r placed) with
    | error e =>
      obtain ⟨width, height, rfl⟩ := PixelBox.align_eq_error haligned
      refine iff_of_false ?_ (by simp)
      rw [mosaicPlan, hr, Plan.ofExcept_ok_bind, hplaced, Plan.ofExcept_ok_bind]
      dsimp only
      rw [haligned, Plan.outcome_bind, Plan.outcome_ofExcept]
      exact bind_ne_error (by simp) (by simp)
    | ok aligned =>
      have hne := isEmpty_of_outputBox hr hpower haligned
      obtain ⟨settings, hsettings, -⟩ :=
        exists_isStamped hvalid (.ofCanvas aligned r.cols r.rows)
      rw [mosaicPlan_outcome_eq_error_iff hr hplaced haligned hne hsettings,
        treePlan_outcome_eq_configuration_iff hpos]
      simp
  · intro s range g hgeoref fault
    rw [(failsEarly_plainPlan checked s range).execute_eq_error_iff hw report store rfl]
    obtain ⟨settings, hsettings, -⟩ := exists_isStamped hvalid GeoReference.globe
    obtain ⟨image, hrun⟩ := plainPlan_outcome_eq_error_iff range hgeoref hsettings
    rw [hrun, treePlan_outcome_eq_configuration_iff hpos]

theorem exists_placed_untyped :
    ∃ checked r placed, Options.untypedRun.validate = (checked, none) ∧
      checked.outputFileType = "" ∧
        plan .untypedRun [.clearSquare 2 45 90 90] none =
          mosaicPlan checked [.clearSquare 2 45 90 90] none ∧
            Resolution.resolve checked [.clearSquare 2 45 90 90] = .ok r ∧
              placements checked [.clearSquare 2 45 90 90] r none = .ok placed ∧
                outputBox checked r (compose checked r placed) = .ok ⟨6, 2, 8, 4⟩ := by
  obtain ⟨checked, r, placed, hchecked, hr, hplaced, hbox⟩ := exists_placed .untypedRun
    [.clearSquare 2 45 90 90] none
    (fun checked r placed => (outputBox checked r (compose checked r placed)).toOption)
    (some ⟨6, 2, 8, 4⟩) (by decide +kernel)
  have hvalid : Options.untypedRun.validate = (checked, none) :=
    (checkedOptions_eq_ok_iff.mp hchecked).1
  obtain rfl : checked = Options.untypedRun.named.bounded :=
    (Options.validate_eq_none_iff.mp hvalid).2.2.2
  refine ⟨_, r, placed, hvalid, rfl, ?_, hr, hplaced, eq_ok_of_toOption hbox⟩
  rw [plan, hchecked, Plan.ofExcept_ok_bind]
  rfl

/-- A square of two pixels is cut with a file type, and is not cut without one. -/
theorem late_fault_iff_square :
    let source : Source Rat Float32 := .clearSquare 2 45 90 90
    let o : Options Rat Float32 := .globeRun 1 8
    (∃ checked, o.validate = (checked, none) ∧
      ∀ fault, (((plainPlan checked source none).execute MemoryStore.writer
        fun _ => pure ()).run .empty).1 ≠ .error (.configuration fault)) ∧
    ∃ checked r placed, Options.untypedRun.validate = (checked, none) ∧
      Resolution.resolve checked [source] = .ok r ∧
        placements checked [source] r none = .ok placed ∧
          (((mosaicPlan checked [source] none).execute MemoryStore.writer
            fun _ => pure ()).run .empty).1 =
              .error (.configuration (.generatorBusy .unconfigured)) := by
  intro source o
  have hvalid : o.validate = (o.named.bounded, none) := rfl
  have hw := MemoryStore.failsInStorage_writer (σ := Float32)
  obtain ⟨-, -, hplain⟩ := late_fault_iff hvalid hw (fun _ => pure ()) .empty
  obtain ⟨checked, r, placed, huntyped, htype, -, hr, hplaced, haligned⟩ := exists_placed_untyped
  obtain ⟨-, hcanvas, -⟩ := late_fault_iff huntyped hw (fun _ => pure ()) .empty
  refine ⟨⟨_, hvalid, fun fault hfault => ?_⟩, checked, r, placed, huntyped, hr, hplaced, ?_⟩
  · have hnone := ((hplain source none _ rfl fault).mp hfault).2
    exact absurd hnone (by decide)
  · exact (hcanvas [source] none r placed hr hplaced _).mpr ⟨rfl, htype, _, haligned⟩

/-- The check lets an empty file type pass, and the run fails for it after its source has been
placed. -/
theorem exists_late_fault :
    ∃ checked r placed, Options.untypedRun.validate = (checked, none) ∧
      Resolution.resolve checked [.clearSquare 2 45 90 90] = .ok r ∧
        placements checked [.clearSquare 2 45 90 90] r none = .ok placed ∧
          (((plan .untypedRun [.clearSquare 2 45 90 90] none).execute MemoryStore.writer
            fun _ => pure ()).run .empty).1 =
              .error (.configuration (.generatorBusy .unconfigured)) := by
  obtain ⟨checked, r, placed, hvalid, htype, hplan, hr, hplaced, haligned⟩ :=
    exists_placed_untyped
  refine ⟨checked, r, placed, hvalid, hr, hplaced, ?_⟩
  obtain ⟨settings, hsettings, -⟩ :=
    exists_isStamped (σ := Float32) hvalid (.ofCanvas ⟨6, 2, 8, 4⟩ r.cols r.rows)
  obtain ⟨htile, -, -, -, hpos, -⟩ := Options.validate_eq_none hvalid
  rw [hplan, (failsEarly_mosaicPlan _ _ _).execute_eq_error_iff
      MemoryStore.failsInStorage_writer _ _ rfl,
    mosaicPlan_outcome_eq_error_iff hr hplaced haligned rfl hsettings,
    treePlan_outcome_eq_configuration_iff (htile ▸ hpos)]
  exact ⟨rfl, htype⟩

end Mosaic
end TilePyramid
