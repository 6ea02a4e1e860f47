import TilePyramid.Path
import TilePyramid.Pyramid.Mode
import TilePyramid.Text.Quoted

/-!
# Errors

Everything that can end a run, by cause. `Error.message` gives each cause its text.
-/
namespace TilePyramid

/-- Contradictory or incomplete options. -/
inductive ConfigFault where
  | noInput
  | zeroTileSize
  | zeroAspectRatio
  | unevenResolution (resolution : Nat)
  | missingParallels
  | missingZone
  | missingRadius
  | boundsOfSeveral
  | partialBounds
  | severalPlain
  | noModuleName
  | moduleNeeded (mode : OutputMode)
  | extentNeeded (mode : OutputMode)
  | unknownMode (text : String)
  | sourceCount (files sources : Nat)
  | noValueRange
  | noColumns (aspectRatio : Nat) (total : Int)
  | generatorBusy (state : GeneratorState)
  | generatorIncomplete
  deriving DecidableEq, Repr

def ConfigFault.message : ConfigFault → String
  | noInput => "need at least one input image"
  | zeroTileSize => "tile size must be positive"
  | zeroAspectRatio => "aspect ratio must be positive"
  | unevenResolution r => s!"global resolution {r} must be a power of two"
  | missingParallels => "Lambert conformal conic requires --p1 and --p2"
  | missingZone => "UTM projection requires a zone (1-60)"
  | missingRadius => "Sphere datum override requires a radius"
  | boundsOfSeveral => "Cannot override georeference information on multiple images"
  | partialBounds =>
    "If you provide one, you must provide all of: --north --south --east --west"
  | severalPlain => "Non-georeferenced images cannot be composed"
  | noModuleName => "Uniview and Celestia require --module-name"
  | moduleNeeded mode => s!"{mode.name} output requires a module name"
  | extentNeeded mode => s!"{mode.name} output requires a lon/lat bbox"
  | unknownMode text => s!"unknown output mode '{text}'"
  | sourceCount files sources =>
    s!"{files} input files configured but {sources} sources supplied"
  | noValueRange => "normalization requested without an observed value range"
  | noColumns aspectRatio total =>
    s!"aspect ratio {aspectRatio} leaves no columns at resolution {total}"
  | generatorBusy state => s!"quad-tree generator cannot start while {state.name}"
  | generatorIncomplete => "quad-tree generator is not configured"

/-- A map projection that cannot be set up. -/
inductive ProjectionFault where
  | unknown
  | missing
  | badZone
  | oppositeParallels
  | ellipsoidNeeded
  | badParameter (text : String)
  deriving DecidableEq, Repr

def ProjectionFault.name : ProjectionFault → String
  | unknown => "ProjectionNotFound"
  | missing => "MissingProjectionError"
  | badZone => "InvalidUtmZone"
  | oppositeParallels => "ProjErrConicLatEqual"
  | ellipsoidNeeded => "EllipsoidRequired"
  | badParameter text => "InvalidParameterValue(" ++ Text.describe text ++ ")"

/-- A georeference that cannot be resolved. -/
inductive GeorefFault where
  | emptyImage (cols rows : Nat)
  | singular (transform : String)
  | badDatum (definition : String) (fault : ProjectionFault)
  | badProjection (definition : String) (fault : ProjectionFault)
  | severalMissing (count : Nat)
  | emptyCanvas (cols rows : Int)
  | worldFileValue (text : String)
  | worldFileCount (count : Nat)
  deriving DecidableEq, Repr

def GeorefFault.message : GeorefFault → String
  | emptyImage cols rows => s!"cannot georeference an empty {cols}x{rows} image"
  | singular transform => s!"singular pixel transform {transform}"
  | badDatum definition fault => s!"invalid datum '{definition}': {fault.name}"
  | badProjection definition fault => s!"invalid projection '{definition}': {fault.name}"
  | severalMissing count =>
    s!"{count} input images have no georeference; at most one can be assumed global"
  | emptyCanvas cols rows => s!"output resolution {cols}x{rows} is not positive"
  | worldFileValue text => s!"invalid world file value '{text}'"
  | worldFileCount count => s!"world file needs 6 values, found {count}"

/-- An image that cannot be placed on the canvas. -/
inductive PlacementFault where
  | degenerate (name : String) (width height : Int)
  | rotatedFault (name : String)
  deriving DecidableEq, Repr

def PlacementFault.message : PlacementFault → String
  | degenerate name width height => s!"{name}: output bbox {width}x{height} is degenerate"
  | rotatedFault name =>
    s!"{name}: fault correction is not supported for rotated georeferences"

/-- Pixels that cannot be encoded, or a file that is no image. -/
inductive CodecFault where
  | emptyImage (width height : Nat)
  | bufferSize
  | unknownFormat (name : String)
  | noExtension (path : Path)
  | undecodable
  deriving Repr

def CodecFault.message : CodecFault → String
  | emptyImage width height => s!"Invalid dimensions: {width}x{height}"
  | bufferSize => "Pixel buffer does not match dimensions"
  | unknownFormat name => s!"Unsupported tile format: {name}"
  | noExtension path => s!"tile path {path.text} has no extension"
  | undecodable => "The image format could not be determined"

inductive Error where
  | configuration (fault : ConfigFault)
  | georeference (fault : GeorefFault)
  | reprojection (fault : PlacementFault)
  | emptyComposite (width height : Int)
  | emptyOutput
  | io (reason : String)
  | codec (fault : CodecFault)
  | extensionEnds (ext : String)
  deriving Repr

def Error.message : Error → String
  | configuration fault => "Configuration error: " ++ fault.message
  | georeference fault => "Georeference error: " ++ fault.message
  | reprojection fault => "Reprojection error: " ++ fault.message
  | emptyComposite width height =>
    s!"Total bbox is empty ({width}x{height}). Georeference calculation is probably incorrect."
  | emptyOutput =>
    "Composite image is empty. Georeference calculation is probably incorrect."
  | io reason => "I/O error: " ++ reason
  | codec fault => "Codec error: " ++ fault.message
  | extensionEnds ext => s!"extension {ext} does not begin and end with one-byte characters"

end TilePyramid
