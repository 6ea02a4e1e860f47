import TilePyramid.Store.PathMap
import TilePyramid.Store.Writer

/-!
# The memory store

Keeps every tile as it is, and every metadata file.
-/
namespace TilePyramid

structure MemoryStore (σ : Type) where
  tiles : PathMap (Raster σ)
  metadata : PathMap String

namespace MemoryStore

variable {σ : Type}

def empty : MemoryStore σ := ⟨.empty, .empty⟩

/-- A tile needs an extension, though nothing is encoded. -/
def writer : TileWriter (StateM (MemoryStore σ)) σ where
  writeTile path raster := do
    match tileExtension path with
    | .error e => return .error e
    | .ok _ =>
      modify fun s => { s with tiles := s.tiles.insert path raster }
      return .ok ()
  writeMetadata path text := do
    modify fun s => { s with metadata := s.metadata.insert path text }
    return .ok ()

end MemoryStore
end TilePyramid
