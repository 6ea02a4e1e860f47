import TilePyramid.Georef.Reference
import TilePyramid.Raster.Range

/-!
# Sources

The images a run reads.
-/
namespace TilePyramid

/-- An image with what is known about it: the value that stands for no data, and where it lies. -/
structure Source (α σ : Type) where
  name : String
  raster : Raster σ
  nodata : Option σ
  georef : Option (GeoReference α)

namespace Source

variable {α σ : Type}

def cols (s : Source α σ) : Nat := s.raster.width

def rows (s : Source α σ) : Nat := s.raster.height

/-- The range of the colour values of all sources. A nodata value that is given goes before the
sources' own. -/
def scan [Arith σ] (sources : List (Source α σ)) (nodata : Option σ) : Option (ValueRange σ) :=
  sources.foldl (fun range s =>
    match s.raster.valueRange (nodata.or s.nodata), range with
    | none, range => range
    | some r, none => some r
    | some r, some all => some (all.union r)) none

end Source
end TilePyramid
