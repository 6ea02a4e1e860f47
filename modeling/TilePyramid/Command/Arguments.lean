import TilePyramid.Options.Basic

/-!
# Arguments

The values given on a command line. Every value may be missing; merged onto options, one that
is there goes before what was there, and a switch can only turn its option on.
-/
namespace TilePyramid

structure Arguments (α σ : Type) where
  inputFiles : List Path
  optionsFile : Option Path
  logLevel : String
  outputName : Option Path
  fileType : Option String
  mode : Option OutputMode
  moduleName : Option String
  tileSize : Option Nat
  jpegQuality : Option Nat
  pngCompression : Option Nat
  pixelScale : Option σ
  pixelOffset : Option σ
  aspectRatio : Option Nat
  globalResolution : Option Nat
  nodata : Option σ
  north : Option α
  south : Option α
  east : Option α
  west : Option α
  wholeGlobe : Bool
  channel : Option Channel
  multiband : Bool
  normalize : Bool
  terrain : Bool
  drawOrderOffset : Option UInt32
  maxLodPixels : Option Int
  projection : Option ProjectionKind
  lat : Option α
  lon : Option α
  scale : Option α
  p1 : Option α
  p2 : Option α
  utmZone : Option Int
  datum : Option DatumKind
  sphereRadius : Option α

namespace Arguments

variable {α σ : Type}

/-- The arguments of a command line without any. -/
def none : Arguments α σ where
  inputFiles := []
  optionsFile := .none
  logLevel := "info"
  outputName := .none
  fileType := .none
  mode := .none
  moduleName := .none
  tileSize := .none
  jpegQuality := .none
  pngCompression := .none
  pixelScale := .none
  pixelOffset := .none
  aspectRatio := .none
  globalResolution := .none
  nodata := .none
  north := .none
  south := .none
  east := .none
  west := .none
  wholeGlobe := false
  channel := .none
  multiband := false
  normalize := false
  terrain := false
  drawOrderOffset := .none
  maxLodPixels := .none
  projection := .none
  lat := .none
  lon := .none
  scale := .none
  p1 := .none
  p2 := .none
  utmZone := .none
  datum := .none
  sphereRadius := .none

/-- The draw order and the level of detail of the options, where they are given. -/
def mergeKml (a : Arguments α σ) (o : KmlOptions) : KmlOptions where
  drawOrderOffset := a.drawOrderOffset.getD o.drawOrderOffset
  maxLodPixels := a.maxLodPixels.getD o.maxLodPixels

def mergeProjection (a : Arguments α σ) (o : ProjectionOptions α) : ProjectionOptions α where
  kind := a.projection.getD o.kind
  lat := a.lat.or o.lat
  lon := a.lon.or o.lon
  scale := a.scale.getD o.scale
  p1 := a.p1.or o.p1
  p2 := a.p2.or o.p2
  utmZone := a.utmZone.or o.utmZone

def mergeDatum (a : Arguments α σ) (o : DatumOptions α) : DatumOptions α where
  kind := a.datum.getD o.kind
  sphereRadius := a.sphereRadius.or o.sphereRadius

/-- The options with every given value in its place. -/
def merge (a : Arguments α σ) (o : Options α σ) : Options α σ where
  inputFiles := if a.inputFiles.isEmpty then o.inputFiles else a.inputFiles
  outputName := a.outputName.or o.outputName
  outputFileType := a.fileType.getD o.outputFileType
  moduleName := a.moduleName.or o.moduleName
  tileSize := a.tileSize.getD o.tileSize
  jpegQuality := a.jpegQuality.or o.jpegQuality
  pngCompression := a.pngCompression.or o.pngCompression
  pixelScale := a.pixelScale.or o.pixelScale
  pixelOffset := a.pixelOffset.or o.pixelOffset
  aspectRatio := a.aspectRatio.getD o.aspectRatio
  globalResolution := a.globalResolution.or o.globalResolution
  nodata := a.nodata.or o.nodata
  north := a.north.or o.north
  south := a.south.or o.south
  east := a.east.or o.east
  west := a.west.or o.west
  wholeGlobe := o.wholeGlobe || a.wholeGlobe
  channel := a.channel.or o.channel
  mode := a.mode.getD o.mode
  multiband := o.multiband || a.multiband
  normalize := o.normalize || a.normalize
  terrain := o.terrain || a.terrain
  kml := a.mergeKml o.kml
  projection := a.mergeProjection o.projection
  datum := a.mergeDatum o.datum

end Arguments
end TilePyramid
