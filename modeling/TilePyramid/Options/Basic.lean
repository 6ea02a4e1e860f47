import TilePyramid.Box.Degrees
import TilePyramid.Error
import TilePyramid.Georef.Datum
import TilePyramid.Raster.Encoding

/-!
# Options

What a run is asked to do. An option that is absent leaves its feature out; one that is present
goes before any value found in the data. `Options.validate` refuses contradictions and fills in
what follows from the rest.
-/
namespace TilePyramid

/-- The projection the inputs are read in. `standard` keeps each input's own, and `plain` takes
the input as an image without any. -/
inductive ProjectionKind where
  | standard
  | plain
  | sinusoidal
  | mercator
  | transverseMercator
  | orthographic
  | stereographic
  | lambertAzimuthal
  | lambertConformalConic
  | utm
  | plateCarree
  deriving DecidableEq, Repr, Inhabited

/-- A projection with its parameters, in degrees. A negative zone lies in the south. -/
structure ProjectionOptions (α : Type) where
  kind : ProjectionKind
  lat : Option α
  lon : Option α
  scale : α
  p1 : Option α
  p2 : Option α
  utmZone : Option Int
  deriving DecidableEq, Repr

inductive DatumKind where
  | keep
  | wgs84
  | lunar
  | mars
  | sphere
  deriving DecidableEq, Repr, Inhabited

structure DatumOptions (α : Type) where
  kind : DatumKind
  sphereRadius : Option α
  deriving DecidableEq, Repr

/-- Draw orders are 32-bit numbers of the viewer. -/
structure KmlOptions where
  drawOrderOffset : UInt32
  maxLodPixels : Int
  deriving DecidableEq, Repr

structure Options (α σ : Type) where
  inputFiles : List Path
  outputName : Option Path
  outputFileType : String
  moduleName : Option String
  tileSize : Nat
  jpegQuality : Option Nat
  pngCompression : Option Nat
  pixelScale : Option σ
  pixelOffset : Option σ
  aspectRatio : Nat
  globalResolution : Option Nat
  nodata : Option σ
  north : Option α
  south : Option α
  east : Option α
  west : Option α
  wholeGlobe : Bool
  channel : Option Channel
  mode : OutputMode
  multiband : Bool
  normalize : Bool
  terrain : Bool
  kml : KmlOptions
  projection : ProjectionOptions α
  datum : DatumOptions α

/-- A whole number is a power of two when it is its own leading power. -/
def isPowerOfTwo (n : Nat) : Bool := n != 0 && 1 <<< n.log2 == n

section
variable {α : Type} [Arith α]

def ProjectionOptions.initial : ProjectionOptions α where
  kind := .standard
  lat := none
  lon := none
  scale := ofInt 1
  p1 := none
  p2 := none
  utmZone := none

/-- The definition of the projection to use, if it replaces the inputs' own. -/
def ProjectionOptions.definition [NumberText α] (o : ProjectionOptions α) :
    Except ConfigFault (Option String) :=
  let n : α → String := NumberText.plain
  let lat := n (o.lat.getD (ofInt 0))
  let lon := n (o.lon.getD (ofInt 0))
  let k := n o.scale
  match o.kind with
  | .standard | .plain => .ok none
  | .sinusoidal => .ok (some s!"+proj=sinu +lon_0={lon}")
  | .mercator => .ok (some s!"+proj=merc +lon_0={lon} +lat_ts={lat} +k={k}")
  | .transverseMercator => .ok (some s!"+proj=tmerc +lat_0={lat} +lon_0={lon} +k={k}")
  | .orthographic => .ok (some s!"+proj=ortho +lat_0={lat} +lon_0={lon}")
  | .stereographic => .ok (some s!"+proj=stere +lat_0={lat} +lon_0={lon} +k={k}")
  | .lambertAzimuthal => .ok (some s!"+proj=laea +lat_0={lat} +lon_0={lon}")
  | .lambertConformalConic =>
    match o.p1, o.p2 with
    | some p1, some p2 =>
      .ok (some s!"+proj=lcc +lat_1={n p1} +lat_2={n p2} +lat_0={lat} +lon_0={lon}")
    | _, _ => .error .missingParallels
  | .utm =>
    match o.utmZone.filter fun z => z ≠ 0 ∧ z.natAbs ≤ 60 with
    | none => .error .missingZone
    | some zone =>
      if zone < 0 then .ok (some s!"+proj=utm +zone={-zone} +south")
      else .ok (some s!"+proj=utm +zone={zone}")
  | .plateCarree => .ok (some s!"+proj=eqc +lat_ts={lat} +lon_0={lon}")

def DatumOptions.initial : DatumOptions α := ⟨.keep, none⟩

/-- The datum to use, if it replaces the inputs' own. -/
def DatumOptions.datum (o : DatumOptions α) : Except ConfigFault (Option (Datum α)) :=
  match o.kind with
  | .keep => .ok none
  | .wgs84 => .ok (some .wgs84)
  | .lunar => .ok (some .lunar)
  | .mars => .ok (some .mars)
  | .sphere =>
    match o.sphereRadius with
    | some r => .ok (some (.sphere r))
    | none => .error .missingRadius

def KmlOptions.initial : KmlOptions := ⟨0, 1024⟩

namespace Options

variable {σ : Type}

/-- The options of a run that asks for nothing. -/
def initial : Options α σ where
  inputFiles := []
  outputName := none
  outputFileType := "png"
  moduleName := none
  tileSize := 256
  jpegQuality := none
  pngCompression := none
  pixelScale := none
  pixelOffset := none
  aspectRatio := 1
  globalResolution := none
  nodata := none
  north := none
  south := none
  east := none
  west := none
  wholeGlobe := false
  channel := none
  mode := .plain
  multiband := false
  normalize := false
  terrain := false
  kml := .initial
  projection := .initial
  datum := .initial

/-- The bounds of the input, when all four are given. -/
def bounds (o : Options α σ) : Option (DegreeBox α) :=
  match o.north, o.south, o.east, o.west with
  | some north, some south, some east, some west => some { west, south, east, north }
  | _, _, _, _ => none

def hasAnyBound (o : Options α σ) : Bool :=
  o.north.isSome || o.south.isSome || o.east.isSome || o.west.isSome

/-- The run cuts its one input as it is. -/
def isPlain (o : Options α σ) : Bool :=
  o.mode = .plain || o.projection.kind = .plain

/-- The name that follows from the first input. -/
def derivedName (o : Options α σ) : Option Path :=
  o.inputFiles.head?.map fun p => p.withExtension ""

/-- The output name, given or derived. -/
def name (o : Options α σ) : Path :=
  (o.outputName.or o.derivedName).getD ⟨"output"⟩

def encodeSettings (o : Options α σ) : EncodeSettings where
  jpegQuality := o.jpegQuality.getD EncodeSettings.standard.jpegQuality
  pngCompression := o.pngCompression.getD EncodeSettings.standard.pngCompression

/-- What is wrong with the options before anything is filled in. -/
def inputFault? [NumberText α] (o : Options α σ) : Option ConfigFault :=
  if o.inputFiles.isEmpty then some .noInput
  else if o.tileSize = 0 then some .zeroTileSize
  else if o.aspectRatio = 0 then some .zeroAspectRatio
  else
    match o.globalResolution.filter fun r => !isPowerOfTwo r with
    | some r => some (.unevenResolution r)
    | none =>
      match o.datum.datum, o.projection.definition with
      | .error fault, _ => some fault
      | .ok _, .error fault => some fault
      | .ok _, .ok _ => none

/-- Fills in the output name. -/
def named (o : Options α σ) : Options α σ :=
  { o with outputName := o.outputName.or o.derivedName }

/-- Bounds are for one input, and all four or none. -/
def boundsFault? (o : Options α σ) : Option ConfigFault :=
  if o.wholeGlobe || o.hasAnyBound then
    if o.inputFiles.length ≠ 1 then some .boundsOfSeveral
    else if !o.wholeGlobe && o.bounds.isNone then some .partialBounds
    else none
  else none

/-- Fills in the bounds of the whole globe. -/
def bounded (o : Options α σ) : Options α σ :=
  if o.wholeGlobe then
    { o with
      north := some (ofInt 90)
      south := some (ofInt (-90))
      east := some (ofInt 180)
      west := some (ofInt (-180)) }
  else o

/-- What the mode and the projection ask of the inputs. -/
def modeFault? (o : Options α σ) : Option ConfigFault :=
  if o.mode = .plain && o.inputFiles.length ≠ 1 then some .severalPlain
  else if (o.mode = .celestia || o.mode = .uniview) && o.moduleName.isNone then
    some .noModuleName
  else if o.projection.kind = .plain && o.inputFiles.length ≠ 1 then some .severalPlain
  else none

/-- Checks the options, and fills in the output name and the bounds of the whole globe. What was
filled in before a fault was found stays. -/
def validate [NumberText α] (o : Options α σ) : Options α σ × Option ConfigFault :=
  match o.inputFault? with
  | some fault => (o, some fault)
  | none =>
    let named := o.named
    match named.boundsFault? with
    | some fault => (named, some fault)
    | none => (named.bounded, named.bounded.modeFault?)

end Options
end
end TilePyramid
