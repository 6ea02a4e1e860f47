import TilePyramid.Error
import TilePyramid.Raster.Basic

/-!
# Tile writers

Where tiles and metadata go. Either call may fail.
-/
namespace TilePyramid

structure TileWriter (m : Type → Type) (σ : Type) where
  writeTile : Path → Raster σ → m (Except Error Unit)
  writeMetadata : Path → String → m (Except Error Unit)

/-- The extension that selects how a tile is encoded. -/
def tileExtension (path : Path) : Except Error String :=
  match path.extension? with
  | some ext => .ok ext
  | none => .error (.codec (.noExtension path))

end TilePyramid
