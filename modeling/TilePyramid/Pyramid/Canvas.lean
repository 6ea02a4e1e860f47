import TilePyramid.Georef.Reference

/-!
# Canvases

The plane that all inputs of a run are placed on. Each viewer fixes its projection and its
corners; the resolution fixes how many pixels a full turn has.
-/
namespace TilePyramid

/-- The radius of the sphere of a web map, in metres. -/
def webMapRadius : Int := 6378137

/-- The projection of a web map. -/
def webMapProjection : String := "+proj=merc +lon_0=0 +k=1 +x_0=0 +y_0=0 +units=m"

namespace OutputMode

variable {α : Type} [Cartography α]

/-- A canvas in degrees: a full turn of longitude over the columns from -180 on, and `span`
degrees of latitude over the rows down from `north`. -/
def degreeCanvas (span north cols rows : Int) : Except Error (GeoReference α) :=
  GeoReference.ofDegrees
    (.steps (ofInt 360 / ofInt cols) (ofInt (-span) / ofInt rows) (ofInt (-180)) (ofInt north))
    .wgs84

/-- The square of the whole web map. -/
def webMapCanvas (cols rows : Int) : Except Error (GeoReference α) :=
  let extent : α := Cartography.pi * ofInt webMapRadius
  GeoReference.make webMapProjection (.sphere (ofInt webMapRadius))
    (.steps (ofInt 2 * extent / ofInt cols) (ofInt (-2) * extent / ofInt rows) (-extent) extent)

/-- The canvas of `cols` by `rows` pixels. -/
def canvas (m : OutputMode) (cols rows : Int) : Except Error (GeoReference α) :=
  if cols ≤ 0 || rows ≤ 0 then .error (.georeference (.emptyCanvas cols rows))
  else
    match m with
    | plain | kml | tms | gigapan => degreeCanvas 360 180 cols rows
    | uniview | celestia => degreeCanvas 180 90 cols rows
    | gmap => webMapCanvas cols rows

end OutputMode
end TilePyramid
