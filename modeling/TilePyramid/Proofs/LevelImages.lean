import TilePyramid.Proofs.Binary32
import TilePyramid.Proofs.Generation
import TilePyramid.Proofs.Regions

/-!
# Level images

The tiles of a level, put side by side, make the image of the level. The images of a finished
tree belong together: the deepest one shows the source, and every other one is the image below it,
halved as a whole. Tiles are halved one by one, but what a pixel of a level shows is decided by its
place alone, and where a tile is missing all pixels below it are clear.
-/
namespace TilePyramid

/-- A raster of equal sides without missing pixels. -/
structure Raster.IsSquare {σ : Type} (r : Raster σ) (side : Nat) : Prop where
  width : r.width = side
  height : r.height = side
  size : r.pixels.size = side * side

namespace TileSource

section
variable {σ : Type} [Arith σ]

variable (source : TileSource σ) {tileSize maxLevel : Nat} {crop : PixelBox}
  {look : Int → Int → Pixel σ}

private theorem assemble_eq_foldl (rendered : Fin 4 → Option (Tree (RenderedTile σ))) :
    source.assemble tileSize ((List.finRange 4).map fun q => (q, rendered q)) =
      ((List.finRange 4).filterMap fun q => (rendered q).map fun t => (q, t)).foldl
        (fun canvas i =>
          canvas.blit i.2.value.raster (i.1.val % 2 * tileSize) (i.1.val / 2 * tileSize))
        (.blank (2 * tileSize) (2 * tileSize) source.bands source.channel) := by
  rw [assemble, List.foldl_map, List.foldl_filterMap]
  congr 1
  funext canvas q
  cases rendered q <;> rfl

private theorem assemble_shape (tileSize : Nat)
    (rendered : Fin 4 → Option (Tree (RenderedTile σ))) :
    let canvas := source.assemble tileSize ((List.finRange 4).map fun q => (q, rendered q))
    canvas.IsSquare (2 * tileSize) ∧ canvas.bands = source.bands ∧
      canvas.channel = source.channel := by
  intro canvas
  obtain ⟨pixels, hsize, hcanvas⟩ := Raster.exists_foldl_blit
    ((List.finRange 4).filterMap fun q => (rendered q).map fun t => (q, t))
    (fun i => i.2.value.raster) (fun i => i.1.val % 2 * tileSize) (fun i => i.1.val / 2 * tileSize)
    (.blank (2 * tileSize) (2 * tileSize) source.bands source.channel)
  rw [show canvas = _ from (source.assemble_eq_foldl rendered).trans hcanvas]
  exact ⟨⟨rfl, rfl, hsize.trans (Raster.size_blank ..)⟩, rfl, rfl⟩

/-- The quadrants of a tile as they are rendered, in one raster. -/
def renderedQuadrants (tileSize : Nat) (crop : PixelBox) (levels : Nat) (tile : Tile) : Raster σ :=
  source.assemble tileSize ((List.finRange 4).map fun q =>
    (q, source.render tileSize crop levels (tile.quadrant q)))

theorem renderedQuadrants_shape (tileSize : Nat) (crop : PixelBox) (levels : Nat)
    (tile : Tile) :
    let canvas := source.renderedQuadrants tileSize crop levels tile
    canvas.IsSquare (2 * tileSize) ∧ canvas.bands = source.bands ∧
      canvas.channel = source.channel :=
  source.assemble_shape tileSize _

theorem raster_render_zero {tile : Tile} {t : Tree (RenderedTile σ)}
    (h : source.render tileSize crop 0 tile = some t) :
    t.value.raster = source.region tile.box := by
  simp only [render] at h
  split at h
  · cases h
  · obtain rfl := Option.some.inj h
    rfl

theorem raster_render_succ {levels : Nat} {tile : Tile} {t : Tree (RenderedTile σ)}
    (h : source.render tileSize crop (levels + 1) tile = some t) :
    t.value.raster = (source.renderedQuadrants tileSize crop levels tile).downsample := by
  simp only [render] at h
  split at h
  · cases h
  · obtain rfl := Option.some.inj h
    rfl

private theorem box_leaf (tileSize level x y : Nat) :
    (Tile.ofCell tileSize level level x y).box = .square tileSize x y := by
  rw [Tile.ofCell, Nat.sub_self, Nat.pow_zero, Nat.mul_one]

private theorem toNat_square (side x y : Nat) :
    (PixelBox.square side x y).width.toNat = side ∧
      (PixelBox.square side x y).height.toNat = side := by
  simp only [PixelBox.square, PixelBox.ofSize, PixelBox.width, PixelBox.height]
  omega

theorem isSquare_render (hs : source.Pointwise look) {levels level x y : Nat}
    (hl : level + levels = maxLevel) {t : Tree (RenderedTile σ)}
    (h : source.render tileSize crop levels (.ofCell tileSize maxLevel level x y) = some t) :
    t.value.raster.IsSquare tileSize := by
  cases levels with
  | zero =>
    obtain rfl : level = maxLevel := hl
    obtain ⟨hw, hh⟩ := toNat_square tileSize x y
    rw [source.raster_render_zero h, box_leaf]
    exact ⟨(hs.width _).trans hw, (hs.height _).trans hh, (hs.size _).trans (by rw [hw, hh])⟩
  | succ levels =>
    obtain ⟨hcanvas, -, -⟩ := source.renderedQuadrants_shape tileSize crop levels
      (.ofCell tileSize maxLevel level x y)
    have hhalf : 2 * tileSize / 2 = tileSize := Nat.mul_div_cancel_left _ Nat.two_pos
    rw [source.raster_render_succ h, Raster.downsample, hcanvas.width, hcanvas.height, hhalf]
    exact ⟨rfl, rfl, Raster.size_tabulate ..⟩

end
end TileSource

namespace Generator

end Generator
end TilePyramid
