import TilePyramid.Mosaic.Composite

/-!
# Placements without rounding

Coordinates may be rational numbers, so that a composite of small images can be worked out to the
last sample. An image in degrees asks for plain arithmetic only. Lengths and logarithms are rounded
down, and there are no projections.
-/
namespace TilePyramid

/-- Drops the fraction and cuts to the range of a 64-bit index. -/
def truncated (q : Rat) : Int :=
  max (-0x8000000000000000) (min 0x7fffffffffffffff (if q < 0 then q.ceil else q.floor))

instance : Arith Rat where
  decLt := inferInstance
  decLe := inferInstance
  ofInt n := n
  floor q := q.floor
  ceil q := q.ceil
  round q := if q < 0 then (q - 1 / 2).ceil else (q + 1 / 2).floor
  toInt := truncated
  isFinite _ := true

/-- Samples get the quotient of numerator and denominator. -/
instance : Narrow Rat Float32 := ⟨fun q => ofInt q.num / ofInt q.den⟩

instance : Cartography Rat where
  plain := toString
  described := toString
  metadata := toString
  pi := 355 / 113
  hypot x y :=
    let square := x * x + y * y
    let n := square.num.toNat * square.den
    (floorRoot n (n.log2 + 1) 0 : Nat) / (square.den : Rat)
  log2 q := (q.num.toNat.log2 : Int) - (q.den.log2 : Int)
  projector definition _ := .error (.badProjection definition .unknown)

/-- The grid of pixels whose positions are degrees. -/
def degreeGrid : GeoReference Rat where
  projection := GeoReference.degreesDefinition
  datum := .wgs84
  transform := .steps 1 1 0 0
  inverse := .steps 1 1 0 0
  projector := none

/-- An image that is placed where it lies. -/
def Placement.still (image : Raster Float32) (box : PixelBox) : Placement Rat Float32 where
  name := "still"
  image := image
  transform := .between degreeGrid degreeGrid
  edge := .zero
  shift := (0, 0)
  box := box

/-- An image of one pixel, placed on the first pixel of the canvas. -/
def Placement.onePixel (channel : Channel) (colour : List Float32) (alpha : Float32) :
    Placement Rat Float32 :=
  .still
    { width := 1
      height := 1
      bands := colour.length
      channel := channel
      pixels := #[⟨colour, alpha⟩] } (.ofImage 1 1)

/-- Two layers of one pixel, the second one in the row above the first and a column further right.
-/
def Layer.slantedPair : List (Layer Rat Float32) :=
  [⟨.onePixel .u8 [ofInt 9] (ofInt 255), 0, 1⟩, ⟨.onePixel .u8 [ofInt 7] (ofInt 255), 1, 0⟩]

/-- A clear square image in degrees, with its first corner at `(west, north)`. -/
def Source.clearSquare (size : Nat) (step west north : Rat) : Source Rat Float32 where
  name := "square"
  raster :=
    { width := size
      height := size
      bands := 0
      channel := .u8
      pixels := .replicate (size * size) (.clear 0) }
  nodata := none
  georef := some
    { degreeGrid with
      transform := .steps step (-step) west north
      inverse := .steps (1 / step) (-1 / step) (-west / step) (north / step) }

/-- A run of one image for a globe viewer, on a canvas of `total` pixels. -/
def Options.globeRun (tileSize total : Nat) : Options Rat Float32 :=
  { Options.initial with
    inputFiles := [⟨"square"⟩]
    tileSize := tileSize
    globalResolution := some total
    mode := .kml }

/-- A run of one image for a dome viewer, on a canvas of `total` pixels. -/
def Options.domeRun (tileSize total : Nat) : Options Rat Float32 :=
  { Options.globeRun tileSize total with
    mode := .uniview
    moduleName := some "globe" }

end TilePyramid
