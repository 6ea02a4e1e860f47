import TilePyramid.Options.Basic
import TilePyramid.Pyramid.Canvas
import TilePyramid.Source

/-!
# Resolutions

Every input gets its georeference, and the canvas gets the least resolution that shrinks none of
them: a power of two of pixels per full turn. One input may come without a georeference; it is
taken to be an image of the whole globe.
-/
namespace TilePyramid

/-- The georeferences of the inputs in their order, the pixels of a full turn, the size and the
georeference of the canvas, and the names of the inputs taken to be the whole globe. -/
structure Resolution (α : Type) where
  inputs : List (GeoReference α)
  total : Int
  cols : Int
  rows : Int
  canvas : GeoReference α
  assumed : List String

namespace Resolution

/-- The pixels of a full turn when no input asks for more. -/
def leastTotal : Int := 1024

/-- The largest power of two an input can ask for. -/
def largestExponent : Int := 30

section
variable {α : Type} [Cartography α]

/-- The degrees between the images of two pixels. -/
def degreesApart (g : GeoReference α) (p q : α × α) : Option α := do
  let a ← g.pixelToDegrees p
  let b ← g.pixelToDegrees q
  return Cartography.hypot (b.1 - a.1) (b.2 - a.2)

/-- The smaller step to a neighbouring pixel, in degrees, at the centre of an image; none when
it is not a positive number. -/
def centreStep (g : GeoReference α) (cols rows : Nat) : Option α :=
  let x : α := ofInt (cols / 2 : Nat)
  let y : α := ofInt (rows / 2 : Nat)
  let right := degreesApart g (x, y) (x + ofInt 1, y)
  let down := degreesApart g (x, y) (x, y + ofInt 1)
  let step :=
    match right, down with
    | some a, some b => some (Arith.lesser a b)
    | a, b => a.or b
  step.filter fun d => Arith.isFinite d && decide (ofInt 0 < d)

/-- The pixels of a full turn, rounded up to a power of two, that keep the detail of an image. -/
def ofImage (g : GeoReference α) (cols rows : Nat) : Option Int :=
  (centreStep g cols rows).map fun d =>
    let exponent := Arith.toInt (Arith.ceil (Cartography.log2 (ofInt 360 / d)))
    ((1 <<< (max 0 (min exponent largestExponent)).toNat : Nat) : Int)

end

/-- The warning for an input that is taken to be the whole globe. -/
def assumedWarning (name : String) : String :=
  "No georeferencing info found. Assuming Plate Carree WGS84: -180 to 180 E, -90 to 90 N. input="
    ++ Text.describe name

variable {α σ : Type} [Cartography α]

/-- The georeference of a source before the overrides of projection and datum: the bounds of the
options, or its own. -/
def baseGeoref (o : Options α σ) (datum : Option (Datum α)) (s : Source α σ) :
    Except Error (Option (GeoReference α)) :=
  match o.bounds with
  | some bounds => (GeoReference.ofBounds s.cols s.rows bounds (datum.getD .wgs84)).map some
  | none => .ok s.georef

/-- The georeference of a source as the options want it read, if it has any. -/
def inputGeoref (o : Options α σ) (s : Source α σ) : Except Error (Option (GeoReference α)) := do
  let datum ← o.datum.datum.mapError Error.configuration
  match ← baseGeoref o datum s with
  | none => return none
  | some base =>
    let projection ← o.projection.definition.mapError Error.configuration
    if projection.isNone && datum.isNone then return some base
    else
      return some (← GeoReference.make (projection.getD base.projection) (datum.getD base.datum)
        base.transform)

/-- The georeference of a source, that of the whole globe if it has none. -/
def orGlobe (s : Source α σ) : Option (GeoReference α) → Except Error (GeoReference α)
  | some g => .ok g
  | none => GeoReference.ofGlobe s.cols s.rows

/-- The larger of the resolutions asked for so far and that of one more input. -/
def widen (total : Int) (input : Source α σ × GeoReference α) : Int :=
  match ofImage input.2 input.1.cols input.1.rows with
  | some n => max total n
  | none => total

/-- Resolves the inputs and the canvas of a run. -/
def resolve (o : Options α σ) (sources : List (Source α σ)) : Except Error (Resolution α) := do
  let found ← sources.mapM (inputGeoref o)
  let missing := (found.filter Option.isNone).length
  if 1 < missing then .error (.georeference (.severalMissing missing))
  else
    let inputs ← (sources.zip found).mapM fun i => orGlobe i.1 i.2
    let measured := (sources.zip inputs).foldl widen leastTotal
    let total : Int := (o.globalResolution.map Int.ofNat).getD measured
    let cols := total.tdiv (max o.aspectRatio 1 : Nat)
    if cols ≤ 0 then .error (.configuration (.noColumns o.aspectRatio total))
    else
      let canvas ← o.mode.canvas cols total
      let assumed := ((sources.zip found).filter fun i => i.2.isNone).map fun i => i.1.name
      return { inputs, total, cols, rows := total, canvas, assumed }

end Resolution
end TilePyramid
