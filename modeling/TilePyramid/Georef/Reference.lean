import TilePyramid.Box.Degrees
import TilePyramid.Error
import TilePyramid.Georef.Affine
import TilePyramid.Georef.Cartography

/-!
# Georeferences

A georeference ties the pixels of an image to longitude and latitude: an affine transform leads
to map coordinates, and a projection from there to degrees. Without a projection the map
coordinates are degrees themselves.
-/
namespace TilePyramid

/-- `inverse` undoes `transform`; there is no projector when map coordinates are degrees. -/
structure GeoReference (α : Type) where
  projection : String
  datum : Datum α
  transform : Affine α
  inverse : Affine α
  projector : Option (Projector α)

namespace GeoReference

/-- The definition of a georeference without a projection. -/
def degreesDefinition : String := "+proj=longlat"

/-- A definition counts as unprojected by its first parameter. -/
def isDegreesDefinition (definition : String) : Bool :=
  match (Text.words definition).head? with
  | some w => w == "+proj=longlat" || w == "+proj=latlong" || w == "+proj=lonlat"
  | none => false

section
variable {α : Type} [Cartography α]

/-- A georeference in any projection. -/
def make (definition : String) (datum : Datum α) (transform : Affine α) :
    Except Error (GeoReference α) :=
  match transform.inverse? with
  | none => .error (.georeference (.singular transform.describe))
  | some inverse =>
    let projection := Text.trim definition
    if isDegreesDefinition projection then
      .ok { projection, datum, transform, inverse, projector := none }
    else
      match Cartography.projector projection datum with
      | .error fault => .error (.georeference fault)
      | .ok p => .ok { projection, datum, transform, inverse, projector := some p }

/-- Pixels straight to degrees. -/
def ofDegrees (transform : Affine α) (datum : Datum α) : Except Error (GeoReference α) :=
  make degreesDefinition datum transform

/-- An image stretched over a box of degrees. -/
def ofBounds (cols rows : Nat) (bounds : DegreeBox α) (datum : Datum α) :
    Except Error (GeoReference α) :=
  if cols = 0 || rows = 0 then .error (.georeference (.emptyImage cols rows))
  else
    ofDegrees
      (.steps ((bounds.east - bounds.west) / ofInt cols)
        ((bounds.south - bounds.north) / ofInt rows) bounds.west bounds.north) datum

/-- The whole globe in degrees. -/
def globe : DegreeBox α where
  west := ofInt (-180)
  south := ofInt (-90)
  east := ofInt 180
  north := ofInt 90

/-- An image stretched over the whole globe. -/
def ofGlobe (cols rows : Nat) : Except Error (GeoReference α) :=
  ofBounds cols rows globe .wgs84

/-- The same pixels in another projection. -/
def withProjection (g : GeoReference α) (definition : String) : Except Error (GeoReference α) :=
  make definition g.datum g.transform

/-- The same pixels and projection on another body. -/
def withDatum (g : GeoReference α) (datum : Datum α) : Except Error (GeoReference α) :=
  make g.projection datum g.transform

/-- Map coordinates are degrees. -/
def isDegrees (g : GeoReference α) : Bool := g.projector.isNone

def pixelToPoint (g : GeoReference α) (p : α × α) : α × α := g.transform.apply p

def pointToPixel (g : GeoReference α) (p : α × α) : α × α := g.inverse.apply p

/-- Longitude and latitude of a point; none outside of the projection's domain. -/
def pointToDegrees (g : GeoReference α) (p : α × α) : Option (α × α) :=
  match g.projector with
  | none => some p
  | some projector => projector.toDegrees p

/-- The point of a longitude and latitude; none outside of the projection's domain. -/
def degreesToPoint (g : GeoReference α) (d : α × α) : Option (α × α) :=
  match g.projector with
  | none => some d
  | some projector => projector.toPoint d

def pixelToDegrees (g : GeoReference α) (p : α × α) : Option (α × α) :=
  g.pointToDegrees (g.pixelToPoint p)

def degreesToPixel (g : GeoReference α) (d : α × α) : Option (α × α) :=
  (g.degreesToPoint d).map g.pointToPixel

/-- Projection and datum in one definition. -/
def definition (g : GeoReference α) : String :=
  g.projection ++ " " ++ g.datum.definition

def text (g : GeoReference α) : String :=
  "[" ++ g.definition ++ "] " ++ g.transform.text

def describe (g : GeoReference α) : String :=
  "GeoReference \x7b proj4: " ++ Text.describe g.definition ++ ", transform: " ++
    g.transform.describe ++ " \x7d"

/-- The image spans the whole globe without a projection: each end of the ranges of longitude
and latitude lies within one pixel of its image edge. -/
def isGlobal (g : GeoReference α) (cols rows : Nat) : Bool :=
  let near (v edge : α) : Bool := Arith.magnitude (v - edge) < ofInt 1
  let pixel (lon lat : Int) : Option (α × α) := g.degreesToPixel (ofInt lon, ofInt lat)
  g.projection == degreesDefinition &&
    (pixel (-180) 0).any (fun p => near p.1 (ofInt 0)) &&
    (pixel 180 0).any (fun p => near p.1 (ofInt cols)) &&
    (pixel 0 90).any (fun p => near p.2 (ofInt 0)) &&
    (pixel 0 (-90)).any (fun p => near p.2 (ofInt rows))

end
end GeoReference
end TilePyramid
