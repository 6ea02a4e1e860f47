import TilePyramid.Decimal.Reader
import TilePyramid.Error
import TilePyramid.Georef.Datum
import TilePyramid.Georef.Projection.Azimuthal
import TilePyramid.Georef.Projection.Conic
import TilePyramid.Georef.Projection.Cylindrical
import TilePyramid.Georef.Projection.TransverseMercator

/-!
# Projection definitions

A definition is a list of parameters such as `+proj=merc +lon_0=10`; the first of a name counts.
It is turned into a map between longitude and latitude in degrees and metres in the plane.
-/
namespace TilePyramid

/-- A map between degrees and projected coordinates. Both directions give nothing for points
outside of the projection's domain. -/
structure Projector (α : Type) where
  toPoint : α × α → Option (α × α)
  toDegrees : α × α → Option (α × α)

namespace Projection

/-- The parameters of a definition. -/
structure Definition where
  parameters : List (String × String)

namespace Definition

def ofText (text : String) : Definition where
  parameters := (Text.words text).filterMap fun w =>
    match w.toList with
    | '+' :: cs =>
      some (String.ofList (cs.takeWhile (· ≠ '=')),
        String.ofList ((cs.dropWhile (· ≠ '=')).drop 1))
    | _ => none

def text? (d : Definition) (name : String) : Option String := d.parameters.lookup name

def number? (d : Definition) (name : String) : Option Float :=
  (d.text? name).bind (Decimal.read? Float)

def number (d : Definition) (name : String) (fallback : Float) : Float :=
  (d.number? name).getD fallback

/-- An angle in degrees, returned in radians. -/
def angle (d : Definition) (name : String) : Float := radians (d.number name 0)

/-- The scale factor, under either of its names. -/
def scaleFactor (d : Definition) : Float :=
  ((d.number? "k0").orElse fun _ => d.number? "k").getD 1

end Definition

/-- A projection of the unit body, with its central meridian and false origin. -/
structure Placed where
  plane : PlaneMap
  meridian : Float
  falseEasting : Float
  falseNorthing : Float

def Placed.standard (d : Definition) (plane : PlaneMap) : Placed :=
  ⟨plane, d.angle "lon_0", d.number "x_0" 0, d.number "y_0" 0⟩

/-- The equidistant projection of a definition. Its parallel of true scale lies short of a pole. -/
def placeEquidistant (d : Definition) : Except ProjectionFault Placed :=
  let scale := (d.angle "lat_ts").cos
  if scale ≤ 0 then .error (.badParameter "lat_ts should be <= 90°")
  else .ok (.standard d (equidistant scale (d.angle "lat_0")))

/-- The Mercator projection of a definition. A parallel of true scale overrides the scale factor. -/
def placeMercator (d : Definition) (el : Ellipsoid) : Except ProjectionFault Placed :=
  match d.number? "lat_ts" with
  | none => .ok (.standard d (mercator el d.scaleFactor))
  | some lat =>
    let phi := (radians lat).abs
    if halfPi ≤ phi then .error (.badParameter "lat_ts larger than 90 degrees")
    else .ok (.standard d (mercator el (el.parallelRadius phi)))

/-- A zone of the universal grid, six degrees wide, counted from the antimeridian. -/
def placeZone (d : Definition) (el : Ellipsoid) : Except ProjectionFault Placed :=
  if el.isSphere then .error .ellipsoidNeeded
  else
    match (d.text? "zone").bind (Decimal.integer? 1 60) with
    | none => .error .badZone
    | some zone => .ok {
        plane := transverseMercator el 0.9996 0
        meridian := radians (6 * Float.ofInt zone - 183)
        falseEasting := 500000
        falseNorthing := if (d.text? "south").isSome then 10000000 else 0 }

/-- The conformal conic projection of a definition. -/
def placeConic (d : Definition) (el : Ellipsoid) : Except ProjectionFault Placed :=
  let phi1 := d.angle "lat_1"
  let phi2 := if (d.text? "lat_2").isSome then d.angle "lat_2" else phi1
  let phi0 :=
    if (d.text? "lat_0").isNone && (d.text? "lat_2").isNone then phi1 else d.angle "lat_0"
  if (phi1 + phi2).abs < tolerance then .error .oppositeParallels
  else .ok (.standard d (conformalConic el d.scaleFactor phi0 phi1 phi2))

/-- The projection of a definition on an ellipsoid; none for one that keeps angles as they are. -/
def place (d : Definition) (el : Ellipsoid) : Except ProjectionFault (Option Placed) :=
  match d.text? "proj" with
  | none => .error .missing
  | some "longlat" | some "latlong" => .ok none
  | some "eqc" => (placeEquidistant d).map some
  | some "merc" => (placeMercator d el).map some
  | some "utm" => (placeZone d el).map some
  | some "tmerc" | some "etmerc" =>
    .ok (some (.standard d (transverseMercator el d.scaleFactor (d.angle "lat_0"))))
  | some "lcc" => (placeConic d el).map some
  | some "stere" => .ok (some (.standard d (stereographic el d.scaleFactor (d.angle "lat_0"))))
  | some "laea" => .ok (some (.standard d (equalArea el (d.angle "lat_0"))))
  | some _ => .error .unknown

/-- The map of a projection on an ellipsoid. Latitudes beyond the poles and longitudes of more
than ten radians have no point. -/
def Placed.projector (p : Placed) (el : Ellipsoid) : Projector Float where
  toPoint d :=
    let lon := radians d.1
    let phi := radians d.2
    if phi.abs > halfPi + 1e-12 || lon.abs > 10 then none
    else (p.plane.forward (wrap (lon - p.meridian)) phi).map fun q =>
      (el.radius * q.1 + p.falseEasting, el.radius * q.2 + p.falseNorthing)
  toDegrees q :=
    (p.plane.inverse ((q.1 - p.falseEasting) / el.radius)
      ((q.2 - p.falseNorthing) / el.radius)).map fun d =>
      (degrees (wrap (d.1 + p.meridian)), degrees d.2)

/-- Angles as coordinates, in radians. -/
def angular : Projector Float where
  toPoint d := some (radians d.1, radians d.2)
  toDegrees q := some (degrees q.1, degrees q.2)

/-- The ellipsoid of a datum. A sphere needs a positive radius. -/
def ellipsoid : Datum Float → Except ProjectionFault Ellipsoid
  | .wgs84 => .ok (.ofFlattening 6378137 298.257223563)
  | .lunar => .ok (.sphere 1737400)
  | .mars => .ok (.sphere 3396190)
  | .sphere radius =>
    if radius ≤ 0 then .error (.badParameter "Invalid major axis") else .ok (.sphere radius)

/-- Sets up a projection on a datum; the datum is looked at first. -/
def projector (text : String) (datum : Datum Float) : Except GeorefFault (Projector Float) :=
  match ellipsoid datum with
  | .error fault => .error (.badDatum datum.definition fault)
  | .ok el =>
    match place (.ofText text) el with
    | .error fault => .error (.badProjection text fault)
    | .ok none => .ok angular
    | .ok (some p) => .ok (p.projector el)

end Projection
end TilePyramid
