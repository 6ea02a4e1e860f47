import TilePyramid.Decimal.Text

/-!
# Datums

The body a georeference lies on.
-/
namespace TilePyramid

/-- The Earth's ellipsoid, the spheres of the Moon and of Mars, or a sphere of a given radius in
metres. -/
inductive Datum (α : Type) where
  | wgs84
  | lunar
  | mars
  | sphere (radius : α)
  deriving DecidableEq, Repr, Inhabited

namespace Datum

variable {α : Type} [NumberText α]

/-- The part of a projection definition that names the body. -/
def definition : Datum α → String
  | wgs84 => "+ellps=WGS84"
  | lunar => "+a=1737400 +b=1737400"
  | mars => "+a=3396190 +b=3396190"
  | sphere radius => s!"+a={NumberText.plain radius} +b={NumberText.plain radius}"

def describe : Datum α → String
  | wgs84 => "Wgs84"
  | lunar => "Lunar"
  | mars => "Mars"
  | sphere radius => s!"Sphere({NumberText.described radius})"

end Datum
end TilePyramid
