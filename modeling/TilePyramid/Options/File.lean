import TilePyramid.Json.Reader
import TilePyramid.Options.Names

/-!
# Options files

Options as a structured value. Every member may be missing, and members of other names are
ignored; a member that is there has to be of its type and may not be there twice.
-/
namespace TilePyramid.Options.File

/-- What a member must hold. -/
abbrev Field (β : Type) := Json → Option β

def text : Field String
  | .string s => some s
  | _ => none

def flag : Field Bool
  | .bool b => some b
  | _ => none

/-- A whole number from `lo` to `hi`. -/
def wholeNumber (lo hi : Int) : Field Int
  | .whole n => if lo ≤ n ∧ n ≤ hi then some n else none
  | _ => none

def natural (hi : Nat) : Field Nat := fun v => (wholeNumber 0 hi v).map Int.toNat

def word : Field Nat := natural 0xffffffff

def signedWord : Field Int := wholeNumber (-0x80000000) 0x7fffffff

def coordinate : Field Float := Json.float?

def sample : Field Float32 := fun v => v.float?.map Float.toFloat32

def path : Field Path := fun v => (text v).map Path.mk

def list {β : Type} (item : Field β) : Field (List β)
  | .array items => items.mapM item
  | _ => none

/-- A null stands for an absent value. -/
def optional {β : Type} (field : Field β) : Field (Option β)
  | .null => some none
  | v => (field v).map some

/-- One of several named choices, alone or as the only member of an object that holds null. -/
def choice {β : Type} (all : List β) (name : β → String) : Field β
  | .string s => all.find? fun b => name b == s
  | .object [(s, .null)] => all.find? fun b => name b == s
  | _ => none

/-- The members of an object whose names are known, or the values of a list in the order of the
names. A known name may not be there twice. -/
def members (names : List String) : Json → Option (List (String × Json))
  | .object ms =>
    let known := (ms.map Prod.fst).filter names.contains
    if known.eraseDups.length = known.length then some ms else none
  | .array items => if items.length ≤ names.length then some (names.zip items) else none
  | _ => none

/-- One member, or its value when it is missing. -/
def get {β : Type} (ms : List (String × Json)) (name : String) (field : Field β) (missing : β) :
    Option β :=
  match ms.lookup name with
  | none => some missing
  | some v => field v

def kml : Field KmlOptions := fun v => do
  let ms ← members ["draw_order_offset", "max_lod_pixels"] v
  let start := KmlOptions.initial
  return {
    drawOrderOffset := .ofNat (← get ms "draw_order_offset" word start.drawOrderOffset.toNat)
    maxLodPixels := ← get ms "max_lod_pixels" signedWord start.maxLodPixels }

def projection : Field (ProjectionOptions Float) := fun v => do
  let ms ← members ["kind", "lat", "lon", "scale", "p1", "p2", "utm_zone"] v
  let start : ProjectionOptions Float := .initial
  return {
    kind := ← get ms "kind" (choice ProjectionKind.all ProjectionKind.name) start.kind
    lat := ← get ms "lat" (optional coordinate) start.lat
    lon := ← get ms "lon" (optional coordinate) start.lon
    scale := ← get ms "scale" coordinate start.scale
    p1 := ← get ms "p1" (optional coordinate) start.p1
    p2 := ← get ms "p2" (optional coordinate) start.p2
    utmZone := ← get ms "utm_zone" (optional signedWord) start.utmZone }

def datum : Field (DatumOptions Float) := fun v => do
  let ms ← members ["kind", "sphere_radius"] v
  let start : DatumOptions Float := .initial
  return {
    kind := ← get ms "kind" (choice DatumKind.all DatumKind.name) start.kind
    sphereRadius := ← get ms "sphere_radius" (optional coordinate) start.sphereRadius }

/-- The members of the options, in order. -/
def names : List String :=
  ["input_files", "output_name", "output_file_type", "module_name", "tile_size", "jpeg_quality",
    "png_compression", "pixel_scale", "pixel_offset", "aspect_ratio", "global_resolution",
    "nodata", "north", "south", "east", "west", "global", "channel_type", "mode", "multiband",
    "normalize", "terrain", "kml", "projection", "datum"]

def read : Field (Options Float Float32) := fun v => do
  let ms ← members names v
  let start : Options Float Float32 := .initial
  return {
    inputFiles := ← get ms "input_files" (list path) start.inputFiles
    outputName := ← get ms "output_name" (optional path) start.outputName
    outputFileType := ← get ms "output_file_type" text start.outputFileType
    moduleName := ← get ms "module_name" (optional text) start.moduleName
    tileSize := ← get ms "tile_size" word start.tileSize
    jpegQuality := ← get ms "jpeg_quality" (optional (natural 255)) start.jpegQuality
    pngCompression := ← get ms "png_compression" (optional word) start.pngCompression
    pixelScale := ← get ms "pixel_scale" (optional sample) start.pixelScale
    pixelOffset := ← get ms "pixel_offset" (optional sample) start.pixelOffset
    aspectRatio := ← get ms "aspect_ratio" word start.aspectRatio
    globalResolution := ← get ms "global_resolution" (optional word) start.globalResolution
    nodata := ← get ms "nodata" (optional sample) start.nodata
    north := ← get ms "north" (optional coordinate) start.north
    south := ← get ms "south" (optional coordinate) start.south
    east := ← get ms "east" (optional coordinate) start.east
    west := ← get ms "west" (optional coordinate) start.west
    wholeGlobe := ← get ms "global" flag start.wholeGlobe
    channel := ← get ms "channel_type" (optional (choice Channel.all Channel.name)) start.channel
    mode := ← get ms "mode" (choice OutputMode.all OutputMode.name) start.mode
    multiband := ← get ms "multiband" flag start.multiband
    normalize := ← get ms "normalize" flag start.normalize
    terrain := ← get ms "terrain" flag start.terrain
    kml := ← get ms "kml" kml start.kml
    projection := ← get ms "projection" projection start.projection
    datum := ← get ms "datum" datum start.datum }

/-- Reads the text of an options file. -/
def readText (source : String) : Option (Options Float Float32) := do
  read (← Json.read? source)

end TilePyramid.Options.File
