import TilePyramid.Pyramid.Tree
import TilePyramid.Raster.Basic

/-!
# Rendered pyramids

The tiles of the deepest level are read from the image; every other tile is its four quadrants
put side by side and halved. Tiles that share nothing with the crop box are left out.
-/
namespace TilePyramid

/-- An image that can be cut into tiles. Outside of the image a region is clear. -/
structure TileSource (σ : Type) where
  cols : Nat
  rows : Nat
  bands : Nat
  channel : Channel
  region : PixelBox → Raster σ

def Raster.tileSource {σ : Type} [Arith σ] (r : Raster σ) : TileSource σ where
  cols := r.width
  rows := r.height
  bands := r.bands
  channel := r.channel
  region := r.region

/-- The first level, from `level` on, on which tiles of the given size cover the extent. The
steps bound the search. -/
def levelCovering (extent tileSize : Nat) : Nat → Nat → Nat
  | 0, level => level
  | steps + 1, level =>
    if tileSize <<< level < extent then levelCovering extent tileSize steps (level + 1)
    else level

/-- The least level on which tiles of the given size cover the extent. -/
def maxLevelFor (extent tileSize : Nat) : Nat := levelCovering extent tileSize extent 0

/-- A tile and its pixels. -/
structure RenderedTile (σ : Type) where
  tile : Tile
  raster : Raster σ

namespace TileSource

variable {σ : Type} [Arith σ]

/-- The four quadrants in one raster of twice the size; missing ones are clear. -/
def assemble (source : TileSource σ) (tileSize : Nat)
    (quadrants : List (Fin 4 × Option (Tree (RenderedTile σ)))) : Raster σ :=
  quadrants.foldl (fun canvas q =>
    match q.2 with
    | none => canvas
    | some t =>
      canvas.blit t.value.raster (q.1.val % 2 * tileSize) (q.1.val / 2 * tileSize))
    (.blank (2 * tileSize) (2 * tileSize) source.bands source.channel)

/-- The tiles at and below `tile`, which lies `levels` above the deepest level; none when the
tile shares nothing with the crop box. -/
def render (source : TileSource σ) (tileSize : Nat) (crop : PixelBox) :
    (levels : Nat) → Tile → Option (Tree (RenderedTile σ))
  | 0, tile =>
    if (tile.box.inter? crop).isNone then none
    else some (.node ⟨tile, source.region tile.box⟩ [])
  | levels + 1, tile =>
    if (tile.box.inter? crop).isNone then none
    else
      let quadrants := (List.finRange 4).map fun q =>
        (q, source.render tileSize crop levels (tile.quadrant q))
      let raster := (source.assemble tileSize quadrants).downsample
      some (.node ⟨tile, raster⟩ (quadrants.filterMap Prod.snd))

end TileSource

/-- The tile of the whole tree. -/
def Tile.root (side : Int) : Tile where
  level := 0
  path := ""
  x := 0
  y := 0
  box := .ofSize 0 0 side side

end TilePyramid
