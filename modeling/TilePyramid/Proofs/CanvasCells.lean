import TilePyramid.Proofs.FinishedRuns

/-!
# Tiles and the cells of the canvas

A globe viewer expects every tile to cover one cell of the quad-tree of the canvas. The output box
is such a cell, and the pyramid is cut from its corner. The tiles are cells as long as the box is no
smaller than a tile; in a smaller box there is one tile, and where it lies is up to the data.
-/
namespace TilePyramid

namespace PixelBox

theorem isCell_iff_of_width {b : PixelBox} {j : Nat} (hw : b.width = 2 ^ j)
    (hh : b.height = 2 ^ j) :
    (∃ k, b.IsCell k) ↔ (2 ^ j : Int) ∣ b.minX ∧ (2 ^ j : Int) ∣ b.minY := by
  constructor
  · rintro ⟨k, hcell⟩
    have hside : (2 ^ k : Int) = 2 ^ j := hcell.width.symm.trans hw
    rw [← hside]
    exact ⟨hcell.minX, hcell.minY⟩
  · rintro ⟨hx, hy⟩
    exact ⟨j, hw, hh, hx, hy⟩

theorem width_translate (b : PixelBox) (dx dy : Int) : (b.translate dx dy).width = b.width := by
  simp only [translate, width]
  omega

theorem height_translate (b : PixelBox) (dx dy : Int) :
    (b.translate dx dy).height = b.height := by
  simp only [translate, height]
  omega

theorem isCell_translate_square (j x y : Nat) (dx dy : Int) :
    (∃ k, ((square (2 ^ j) x y).translate dx dy).IsCell k) ↔
      (2 ^ j : Int) ∣ dx ∧ (2 ^ j : Int) ∣ dy := by
  have hw : ((square (2 ^ j) x y).translate dx dy).width = 2 ^ j := by
    rw [width_translate, width_square, Nat.cast_pow, Nat.cast_ofNat]
  have hh : ((square (2 ^ j) x y).translate dx dy).height = 2 ^ j := by
    rw [height_translate]
    simp only [square, ofSize, height]
    push_cast
    omega
  rw [isCell_iff_of_width hw hh]
  simp only [square, ofSize, translate]
  push_cast
  rw [Int.dvd_add_right (Int.dvd_mul_left _ _), Int.dvd_add_right (Int.dvd_mul_left _ _)]

end PixelBox

theorem IsCellTree.isCell_translate_iff {t a : Nat} {kept : Int → Int → Prop} {root : TileTree}
    (htree : IsCellTree (2 ^ t) (maxLevelFor (2 ^ a) (2 ^ t)) kept root) {dx dy : Int}
    (hx : (2 ^ a : Int) ∣ dx) (hy : (2 ^ a : Int) ∣ dy) :
    (∀ n ∈ root.preorder, ∃ k, (n.value.box.translate dx dy).IsCell k) ↔
      (2 ^ t : Int) ∣ dx ∧ (2 ^ t : Int) ∣ dy := by
  generalize hdepth : maxLevelFor (2 ^ a) (2 ^ t) = depth at htree
  have hcell (n : TileTree) (hn : n ∈ root.preorder) :
      (∃ k, (n.value.box.translate dx dy).IsCell k) ↔
        (2 ^ (t + (depth - n.value.level)) : Int) ∣ dx ∧
          (2 ^ (t + (depth - n.value.level)) : Int) ∣ dy := by
    rw [htree.tile n hn, ← PixelBox.isCell_translate_square _ n.value.x n.value.y, pow_add]
    rfl
  cases depth with
  | zero =>
    have hroot : root ∈ root.preorder := Tree.self_mem_preorder root
    constructor
    · intro h
      simpa using (hcell root hroot).mp (h root hroot)
    · intro h n hn
      simpa using (hcell n hn).mpr (by simpa using h)
  | succ depth =>
    have hshort : 2 ^ t <<< depth < 2 ^ a := by
      apply tileSize_shiftLeft_lt_of_lt_maxLevelFor
      omega
    have hle : t + (depth + 1) ≤ a := by
      rw [Nat.shiftLeft_eq, ← pow_add] at hshort
      have hlt := (Nat.pow_lt_pow_iff_right (by decide)).mp hshort
      omega
    have hdvd (j : Nat) (hj : j ≤ t + (depth + 1)) : (2 ^ j : Int) ∣ dx ∧ (2 ^ j : Int) ∣ dy := by
      have hpow : (2 ^ j : Int) ∣ 2 ^ a := pow_dvd_pow 2 (hj.trans hle)
      exact ⟨hpow.trans hx, hpow.trans hy⟩
    constructor
    · intro _
      exact hdvd t (by omega)
    · intro _ n hn
      exact (hcell n hn).mpr (hdvd _ (by omega))

namespace Mosaic

section
variable {α σ : Type} [Cartography α] [Arith σ]

variable [Narrow α σ]

/-- A run for a globe viewer cuts a cell of the canvas, of `2 ^ a` pixels on each side. -/
theorem exists_isCellTree_of_plan {o : Options α σ} (hmode : o.mode = .kml)
    (hcanvas : o.isPlain = false) {sources : List (Source α σ)} {range : Option (ValueRange σ)}
    {summary : Summary α} (h : (plan o sources range).outcome = .ok summary) :
    ∃ a kept, summary.aligned.IsCell a ∧
      IsCellTree o.tileSize (maxLevelFor (2 ^ a) o.tileSize) kept summary.root := by
  obtain ⟨checked, r, placed, view, settings, hchecked, hstages, hwrites⟩ :=
    exists_canvasRun_of_plan hcanvas h
  obtain ⟨hsize, hglobal, hmode', -, -, -, hpower⟩ := checkedOptions_eq_ok hchecked
  obtain ⟨most, htotal, hrows, -, hcols, -⟩ :=
    Resolution.exists_size_eq_two_pow hstages.resolve_eq (hglobal ▸ hpower)
  have haligned := hstages.outputBox_eq
  have hwhole : checked.mode.wholeCells = true := by
    rw [hmode', hmode]
    rfl
  rw [outputBox, hrows, htotal] at haligned
  obtain ⟨-, -, -, -, hcell⟩ := PixelBox.align_eq_ok hcols haligned
  obtain ⟨a, -, ha⟩ := hcell hwhole
  have hside : view.cols = 2 ^ a ∧ view.rows = 2 ^ a := by
    have hpow : (2 ^ a : Int).toNat = 2 ^ a := Int.toNat_pow_of_nonneg (by decide) a
    obtain ⟨-, rfl⟩ := Composite.prepare_eq_ok hstages.prepare_eq
    exact ⟨(congrArg Int.toNat ha.width).trans hpow, (congrArg Int.toNat ha.height).trans hpow⟩
  obtain ⟨kept, htree⟩ := hwrites.cells
  refine ⟨a, kept, ha, ?_⟩
  change IsCellTree checked.tileSize (maxLevelFor (max view.cols view.rows) _) _ _ at htree
  rwa [hside.1, hside.2, max_self, hsize] at htree

/-- With a tile size that is a power of two, the tiles of a run for a globe viewer are squares whose
sides are powers of two. They are cells of the canvas when the output box is as wide as a tile; in
a smaller box, they are only if the box lies at a corner of cells of the size of a tile. -/
theorem plan_tiles_isCell_iff {S : Type} {o : Options α σ} {t : Nat} (hmode : o.mode = .kml)
    (hcanvas : o.isPlain = false) (htile : o.tileSize = 2 ^ t) {sources : List (Source α σ)}
    {range : Option (ValueRange σ)} {w : TileWriter (StateM S) σ} {report : α → StateM S Unit}
    {s : S} {summary : Summary α}
    (h : (((plan o sources range).execute w report).run s).1 = .ok summary) :
    let tiles := summary.root.preorder.map fun n =>
      n.value.box.translate summary.aligned.minX summary.aligned.minY
    (∀ b ∈ tiles, ∃ k, b.width = 2 ^ k ∧ b.height = 2 ^ k) ∧
      (2 ^ t ≤ summary.aligned.width → ∀ b ∈ tiles, ∃ k, b.IsCell k) ∧
        ((∀ b ∈ tiles, ∃ k, b.IsCell k) ↔
          (2 ^ t : Int) ∣ summary.aligned.minX ∧ (2 ^ t : Int) ∣ summary.aligned.minY) := by
  intro tiles
  obtain ⟨a, kept, hcell, htree⟩ := exists_isCellTree_of_plan hmode hcanvas (Plan.execute_eq_ok h)
  rw [htile] at htree
  have hiff : (∀ b ∈ tiles, ∃ k, b.IsCell k) ↔
      (2 ^ t : Int) ∣ summary.aligned.minX ∧ (2 ^ t : Int) ∣ summary.aligned.minY := by
    simp only [tiles, List.forall_mem_map]
    exact htree.isCell_translate_iff hcell.minX hcell.minY
  refine ⟨?_, ?_, hiff⟩
  · simp only [tiles, List.forall_mem_map]
    intro n hn
    rw [htree.tile n hn, PixelBox.width_translate, PixelBox.height_translate]
    refine ⟨t + (maxLevelFor (2 ^ a) (2 ^ t) - n.value.level), ?_⟩
    simp [Tile.ofCell, PixelBox.square, PixelBox.ofSize, PixelBox.width, PixelBox.height, pow_add]
  · intro hwide
    rw [hcell.width] at hwide
    have hpow : (2 ^ t : Int) ∣ 2 ^ a :=
      pow_dvd_pow 2 ((pow_le_pow_iff_right₀ (by decide)).mp hwide)
    exact hiff.mpr ⟨hpow.trans hcell.minX, hpow.trans hcell.minY⟩

end

/-- Four pixels around a corner of four cells, in tiles of two by two: every tile is a cell. -/
theorem plan_tiles_isCell_square :
    (Options.globeRun 2 8).mode = .kml ∧ (Options.globeRun 2 8).isPlain = false ∧
      (Options.globeRun 2 8).tileSize = 2 ^ 1 ∧
        ∃ summary, (((plan (.globeRun 2 8) [.clearSquare 2 45 (-45) 45] none).execute
            TileWriter.recorder fun _ => pure ()).run []).1 = .ok summary ∧
          summary.aligned = ⟨0, 0, 8, 8⟩ ∧
            ∀ n ∈ summary.root.preorder, ∃ k, (n.value.box.translate 0 0).IsCell k := by
  refine ⟨rfl, rfl, rfl, ?_⟩
  obtain ⟨summary, hrun, haligned⟩ := exists_recorded_run (.globeRun 2 8)
    [.clearSquare 2 45 (-45) 45] none Summary.aligned ⟨0, 0, 8, 8⟩ (by decide +kernel)
  refine ⟨summary, hrun, haligned, ?_⟩
  obtain ⟨-, hwide, -⟩ := plan_tiles_isCell_iff (t := 1) rfl rfl rfl hrun
  simp only [List.forall_mem_map, haligned] at hwide
  exact hwide (by decide)

/-- One pixel in tiles of four by four: the only tile starts at the pixel, which is no multiple of
its side. -/
theorem plan_tile_not_isCell :
    (Options.globeRun 4 8).mode = .kml ∧ (Options.globeRun 4 8).isPlain = false ∧
      (Options.globeRun 4 8).tileSize = 2 ^ 2 ∧ (Options.globeRun 4 8).globalResolution = some 8 ∧
        ∃ summary, (((plan (.globeRun 4 8) [.clearSquare 1 45 (-90) 90] none).execute
            TileWriter.recorder fun _ => pure ()).run []).1 = .ok summary ∧
          ∃ n ∈ summary.root.preorder, ∀ k,
            ¬ (n.value.box.translate summary.aligned.minX summary.aligned.minY).IsCell k := by
  refine ⟨rfl, rfl, rfl, rfl, ?_⟩
  obtain ⟨summary, hrun, hboxes⟩ := exists_recorded_run (.globeRun 4 8)
    [.clearSquare 1 45 (-90) 90] none (fun s => (s.aligned, s.root.value.box))
    (⟨2, 2, 3, 3⟩, ⟨0, 0, 4, 4⟩) (by decide +kernel)
  obtain ⟨haligned, hroot⟩ := Prod.mk.inj hboxes
  refine ⟨summary, hrun, summary.root, Tree.self_mem_preorder _, fun k hcell => ?_⟩
  rw [haligned, hroot] at hcell
  have hcorner := (PixelBox.isCell_iff_of_width (j := 2) rfl rfl).mp ⟨k, hcell⟩
  exact absurd hcorner.1 (by decide)

end Mosaic
end TilePyramid
