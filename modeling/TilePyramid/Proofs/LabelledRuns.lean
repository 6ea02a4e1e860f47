import TilePyramid.Proofs.DegreeGrids
import TilePyramid.Proofs.DocumentLines
import TilePyramid.Proofs.FinishedRuns

/-!
# Degrees that a run reports

A run labels pixels twice: its canvas has a georeference, and the metadata and the report have boxes
in degrees that are worked out without it. The labels of super-overlays agree with the canvas in
every document. The report takes the rows of every canvas for 360 degrees of latitude, which is
wrong for the viewers that put 180 degrees on them.
-/
namespace TilePyramid.Mosaic

section
variable {α σ : Type} [Cartography α]

/-- The georeference of the pixels that a run cuts: that of its canvas, or that of an image of the
whole globe when there is none. -/
def IsOutputGeoref (o : Options α σ) (sources : List (Source α σ)) (summary : Summary α)
    (g : GeoReference α) : Prop :=
  if o.isPlain then
    GeoReference.ofGlobe summary.aligned.width.toNat summary.aligned.height.toNat = .ok g
  else
    ∃ checked r, checkedOptions o sources = .ok checked ∧
      Resolution.resolve checked sources = .ok r ∧ r.canvas = g

theorem isOutputGeoref_of_isPlain {o : Options α σ} (hplain : o.isPlain = true)
    {sources : List (Source α σ)} {summary : Summary α} {cols rows : Nat}
    (haligned : summary.aligned = .ofImage cols rows) {g : GeoReference α}
    (hg : GeoReference.ofGlobe cols rows = .ok g) : IsOutputGeoref o sources summary g := by
  rw [IsOutputGeoref, if_pos hplain, haligned, ← hg]
  simp [PixelBox.ofImage, PixelBox.ofSize, PixelBox.width, PixelBox.height]

theorem isOutputGeoref_canvas {o checked : Options α σ} (hplain : o.isPlain = false)
    {sources : List (Source α σ)} (hchecked : checkedOptions o sources = .ok checked)
    {r : Resolution α} (hr : Resolution.resolve checked sources = .ok r) (summary : Summary α) :
    IsOutputGeoref o sources summary r.canvas := by
  rw [IsOutputGeoref, if_neg (by rw [hplain]; decide)]
  exact ⟨checked, r, hchecked, hr, rfl⟩

variable [Arith σ]

theorem exists_mem_of_treePlan {o : Options α σ} (htile : o.tileSize ≠ 0) {image : TileSource σ}
    {settings : ViewerSettings α} {crop : PixelBox} {root : TileTree}
    (h : (treePlan o image settings crop).outcome = .ok root) :
    ∃ px py, crop.Mem px py ∧ (PixelBox.ofImage image.cols image.rows).Mem px py := by
  have hcells := Generator.plan_isCellTree (if_neg htile) (Nat.pos_of_ne_zero htile) h
  obtain ⟨-, -, -, px, py, -, hkept⟩ :=
    (hcells.occurs_iff _ _ _).mp ⟨root, root.self_mem_preorder, rfl⟩
  obtain ⟨hcrop, himage⟩ := Generator.mem_window.mp hkept
  exact ⟨px, py, hcrop _ rfl, himage⟩

theorem size_pos_of_mem {cols rows : Nat} {px py : Int}
    (h : (PixelBox.ofImage cols rows).Mem px py) : 0 < cols ∧ 0 < rows := by
  simp only [PixelBox.ofImage, PixelBox.ofSize, PixelBox.Mem] at h
  omega

end

section
variable {α σ : Type} [Cartography α] [ExactArith α] [Arith σ] [Narrow α σ]

end

section
variable {α σ : Type} [Cartography α] [ExactArith α] [Arith σ] [Narrow α σ]

open ExactArith in
theorem onCanvas_eq_iff {m : OutputMode} {b : PixelBox} {cols rows : Int} (hrows : 0 < rows)
    (hb : b.minY < b.maxY) :
    (DegreeBox.ofCanvas b cols rows : DegreeBox α) = .onCanvas m.northEdge b cols rows ↔
      m.northEdge = 180 := by
  constructor
  · intro heq
    have hrows : (rows : Rat) ≠ 0 := by exact_mod_cast hrows.ne'
    have hne : (b.minY : Rat) ≠ b.maxY := by exact_mod_cast hb.ne
    have hnorth := congrArg (fun d => value d.north) heq
    have hsouth := congrArg (fun d => value d.south) heq
    simp only [DegreeBox.ofCanvas, DegreeBox.onCanvas, value_sub, value_mul, value_div,
      value_ofInt] at hnorth hsouth
    -- Two different rows have the same latitudes on both canvases, which leaves one slope.
    have hedge : ((180 : Int) - m.northEdge : Rat) * (b.maxY - b.minY) = 0 := by
      field_simp at hnorth hsouth
      push_cast at hnorth hsouth ⊢
      linarith
    rcases mul_eq_zero.mp hedge with hzero | hzero
    · exact_mod_cast (sub_eq_zero.mp hzero).symm
    · exact absurd (sub_eq_zero.mp hzero).symm hne
  · intro hedge
    rw [hedge]
    rfl

open ExactArith in
theorem north_ofCanvas {m : OutputMode} (hedge : m.northEdge = 90) (b : PixelBox)
    (cols rows : Int) :
    (DegreeBox.ofCanvas b cols rows : DegreeBox α).north =
        ofInt 2 * (DegreeBox.onCanvas m.northEdge b cols rows).north ∧
      (DegreeBox.ofCanvas b cols rows : DegreeBox α).south =
        ofInt 2 * (DegreeBox.onCanvas m.northEdge b cols rows).south := by
  constructor <;> apply value_injective <;>
    simp only [DegreeBox.ofCanvas, DegreeBox.onCanvas, hedge, value_sub, value_mul, value_div,
      value_ofInt] <;> push_cast <;> ring

/-- On a canvas in degrees, the report has the longitudes of the data right. It has the latitudes
right if the rows of the canvas span 360 degrees, and twice as large as they are if the rows span
180. -/
theorem plan_data_degrees {S : Type} {o : Options α σ} (hmode : o.mode ≠ .gmap)
    {sources : List (Source α σ)} {range : Option (ValueRange σ)} {w : TileWriter (StateM S) σ}
    {report : α → StateM S Unit} {s : S} {summary : Summary α}
    (h : (((plan o sources range).execute w report).run s).1 = .ok summary) :
    let data := summary.data.translate summary.aligned.minX summary.aligned.minY
    ∃ g d, IsOutputGeoref o sources summary g ∧ g.Spans data d ∧
      summary.dataDegrees.west = d.west ∧ summary.dataDegrees.east = d.east ∧
        (o.isPlain = false → o.mode.northEdge = 90 →
          summary.dataDegrees.north = ofInt 2 * d.north ∧
            summary.dataDegrees.south = ofInt 2 * d.south) ∧
        (g.Spans data summary.dataDegrees ↔ o.isPlain = true ∨ o.mode.northEdge = 180) := by
  intro data
  replace h := Plan.execute_eq_ok h
  cases hplain : o.isPlain with
  | true =>
    obtain ⟨checked, s, image, settings, hchecked, hstages, hwrites⟩ :=
      exists_plainRun_of_plan hplain h
    obtain ⟨htile, -, -, -, hpos, -⟩ := checkedOptions_eq_ok hchecked
    obtain ⟨px, py, -, hmem⟩ := exists_mem_of_treePlan (htile ▸ hpos) hstages.treePlan_eq
    obtain ⟨hcols, hrows⟩ := size_pos_of_mem hmem
    obtain ⟨g, -, -, -, -, hg, -, hspans⟩ := GeoReference.exists_ofGlobe (α := α) hcols hrows
    have hdata : data = .ofImage image.cols image.rows := by
      simp [data, hstages.data_eq, hstages.aligned_eq, PixelBox.translate, PixelBox.ofImage,
        PixelBox.ofSize]
    rw [hdata, hstages.dataDegrees_eq]
    exact ⟨g, _, isOutputGeoref_of_isPlain hplain hstages.aligned_eq hg, hspans, rfl, rfl,
      fun hcanvas => absurd hcanvas (by decide), iff_of_true hspans (.inl rfl)⟩
  | false =>
    obtain ⟨checked, r, placed, view, settings, hchecked, hstages, hwrites⟩ :=
      exists_canvasRun_of_plan hplain h
    obtain ⟨htile, -, hmode', -, hpos, -⟩ := checkedOptions_eq_ok hchecked
    obtain ⟨px, py, hmem, -⟩ := exists_mem_of_treePlan (htile ▸ hpos) hstages.treePlan_eq
    obtain ⟨-, -, -, -, hcanvas⟩ := Resolution.resolve_eq_ok hstages.resolve_eq
    rw [hmode'] at hcanvas
    obtain ⟨-, hrows, -⟩ := OutputMode.canvas_eq_ok hmode hcanvas
    have hspans := OutputMode.spans_canvas hmode hcanvas data
    have hdata : data.minY < data.maxY := by
      obtain ⟨-, -, hlow, hhigh⟩ := hmem
      simp only [data, hstages.data_eq, PixelBox.translate]
      omega
    refine ⟨r.canvas, _, isOutputGeoref_canvas hplain hchecked hstages.resolve_eq summary,
      hspans, ?_⟩
    rw [hstages.dataDegrees_eq]
    refine ⟨rfl, rfl, fun _ hedge => north_ofCanvas hedge _ _ _, ?_⟩
    rw [or_iff_right (by decide), ← onCanvas_eq_iff (α := α) hrows hdata]
    exact ⟨fun hreport => hreport.unique hspans, fun heq => heq ▸ hspans⟩

end

theorem plan_data_degrees_globe :
    (Options.globeRun 1 8).mode ≠ .gmap ∧
      ∃ summary, (((plan (.globeRun 1 8) [.clearSquare 2 45 90 90] none).execute
          TileWriter.recorder fun _ => pure ()).run []).1 = .ok summary ∧
        ∃ g, IsOutputGeoref (.globeRun 1 8) [.clearSquare 2 45 90 90] summary g ∧
          g.Spans ⟨6, 2, 8, 4⟩ summary.dataDegrees := by
  refine ⟨by decide, ?_⟩
  obtain ⟨summary, hrun, hboxes⟩ := exists_recorded_run (.globeRun 1 8)
    [.clearSquare 2 45 90 90] none (fun s => (s.aligned, s.data))
    (⟨6, 2, 8, 4⟩, ⟨0, 0, 2, 2⟩) (by decide +kernel)
  obtain ⟨haligned, hdata⟩ := Prod.mk.inj hboxes
  obtain ⟨g, -, hg, -, -, -, -, hreport⟩ := plan_data_degrees (by decide) hrun
  rw [haligned, hdata] at hreport
  exact ⟨summary, hrun, g, hg, hreport.mpr (.inr rfl)⟩

/-- Two pixels between the equator and 45 degrees north on the canvas of a dome viewer. The report
has their north edge at the pole. -/
theorem dataDegrees_ne_northWest :
    (Options.domeRun 1 8).mode = .uniview ∧
      ∃ summary, (((plan (.domeRun 1 8) [.clearSquare 1 45 90 45] none).execute
          TileWriter.recorder fun _ => pure ()).run []).1 = .ok summary ∧
        summary.dataDegrees.north = 90 ∧
          ∃ g, IsOutputGeoref (.domeRun 1 8) [.clearSquare 1 45 90 45] summary g ∧
            g.pixelToDegrees (ofInt (summary.data.minX + summary.aligned.minX),
              ofInt (summary.data.minY + summary.aligned.minY)) = some (90, 45) := by
  refine ⟨rfl, ?_⟩
  obtain ⟨summary, hrun, hreport⟩ := exists_recorded_run (.domeRun 1 8) [.clearSquare 1 45 90 45]
    none (fun s => (s.aligned, s.data, s.dataDegrees.north)) (⟨6, 2, 7, 4⟩, ⟨0, 0, 1, 2⟩, 90)
    (by decide +kernel)
  simp only [Prod.mk.injEq] at hreport
  obtain ⟨haligned, hdata, hnorth⟩ := hreport
  have hcanvas : ((checkedOptions (.domeRun 1 8) [.clearSquare 1 45 90 45]).toOption.bind fun o =>
      (Resolution.resolve o [.clearSquare 1 45 90 45]).toOption.map fun r =>
        r.canvas.pixelToDegrees (6, 2)) = some (some (90, 45)) := by
    decide +kernel
  cases hchecked : checkedOptions (.domeRun 1 8) [.clearSquare 1 45 90 45] with
  | error e =>
    rw [hchecked] at hcanvas
    cases hcanvas
  | ok checked =>
    rw [hchecked] at hcanvas
    cases hr : Resolution.resolve checked [.clearSquare 1 45 90 45] with
    | error e =>
      simp only [Except.toOption, Option.bind_some, hr] at hcanvas
      cases hcanvas
    | ok r =>
      simp only [Except.toOption, Option.bind_some, hr] at hcanvas
      refine ⟨summary, hrun, hnorth, r.canvas, isOutputGeoref_canvas rfl hchecked hr summary, ?_⟩
      rw [haligned, hdata]
      exact Option.some.inj hcanvas

end TilePyramid.Mosaic
