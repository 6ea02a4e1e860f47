import TilePyramid.Box.Pixel
import TilePyramid.Raster.Channel

/-!
# Rasters

An image as rows of pixels, each with one value per colour band and an alpha. A region of a
raster is transparent wherever it leaves the image.
-/
namespace TilePyramid

/-- Colour values and how much the pixel hides what is below it. -/
structure Pixel (σ : Type) where
  colour : List σ
  alpha : σ
  deriving DecidableEq, Repr

def Pixel.clear {σ : Type} [Arith σ] (bands : Nat) : Pixel σ :=
  ⟨List.replicate bands (ofInt 0), ofInt 0⟩

/-- Changes cell `i`; there is no result past the last cell. -/
def update? {β : Type} (cells : Array β) (i : Nat) (f : β → β) : Option (Array β) :=
  if i < cells.size then some (cells.modify i f) else none

/-- An image in memory. Pixel `(x, y)` stands at index `y * width + x`. -/
structure Raster (σ : Type) where
  width : Nat
  height : Nat
  bands : Nat
  channel : Channel
  pixels : Array (Pixel σ)
  deriving DecidableEq, Repr

namespace Raster

variable {σ : Type}

/-- There is one pixel for every place, and each has one value per band. -/
def WellFormed (r : Raster σ) : Prop :=
  r.pixels.size = r.width * r.height ∧ ∀ p ∈ r.pixels, p.colour.length = r.bands

/-- The raster whose pixel at `(x, y)` is `f x y`. -/
def tabulate (width height bands : Nat) (channel : Channel) (f : Nat → Nat → Pixel σ) :
    Raster σ where
  width := width
  height := height
  bands := bands
  channel := channel
  pixels := Array.ofFn fun i : Fin (width * height) => f (i.val % width) (i.val / width)

/-- A raster without anything in it. -/
def blank [Arith σ] (width height bands : Nat) (channel : Channel) : Raster σ :=
  tabulate width height bands channel fun _ _ => .clear bands

def isEmpty (r : Raster σ) : Bool := r.width = 0 || r.height = 0

def box (r : Raster σ) : PixelBox := .ofImage r.width r.height

/-- The pixel at `(x, y)`, counted on through the rows. -/
def pixel? (r : Raster σ) (x y : Nat) : Option (Pixel σ) :=
  r.pixels[y * r.width + x]?

/-- The pixel at `(x, y)`; a clear one where there is none. -/
def pixel [Arith σ] (r : Raster σ) (x y : Nat) : Pixel σ :=
  (r.pixel? x y).getD (.clear r.bands)

/-- Changes the pixel at `(x, y)`. -/
def modify (r : Raster σ) (x y : Nat) (f : Pixel σ → Pixel σ) : Raster σ :=
  { r with pixels := r.pixels.modify (y * r.width + x) f }

def map (r : Raster σ) (f : Pixel σ → Pixel σ) : Raster σ :=
  { r with pixels := r.pixels.map f }

/-- The part of the raster inside `region`, clear outside of the image. This is what a read gives
as long as no count is cut. -/
def region [Arith σ] (r : Raster σ) (region : PixelBox) : Raster σ :=
  tabulate region.width.toNat region.height.toNat r.bands r.channel fun x y =>
    let px := region.minX + x
    let py := region.minY + y
    if r.box.Mem px py then r.pixel px.toNat py.toNat else .clear r.bands

variable [Arith σ]

/-- There can be a buffer for so many samples of four bytes: its size has to be a signed number of
64 bits. -/
def hasBuffer (width height bands : Nat) : Bool :=
  width * height * (bands + 1) < UInt64.size / 8

/-- Reads a region pixel by pixel into a raster with sides of 32 bits. A longer side is cut, and the
read breaks off at a pixel that has no cell then, or at once if there cannot be a buffer. -/
def read? (r : Raster σ) (region : PixelBox) : Option (Raster σ) :=
  let width := region.wordCols
  let height := region.wordRows
  if hasBuffer width height r.bands then
    let start := blank width height r.bands r.channel
    match r.box.inter? region with
    | none => some start
    | some overlap =>
      (overlap.places.foldlM (fun cells (x, y) =>
          update? cells (toWord (y - region.minY) * width + toWord (x - region.minX))
            fun _ => r.pixel x.toNat y.toNat) start.pixels).map
        fun cells => { start with pixels := cells }
  else none

/-- Carries every sample over to another channel. -/
def toChannel (r : Raster σ) (target : Channel) : Raster σ :=
  if target = r.channel then r
  else
    { r.map fun p =>
        ⟨p.colour.map (r.channel.rescale target), r.channel.rescaleAlpha target p.alpha⟩ with
      channel := target }

/-- Repeats the first band in three bands. A raster that has three is kept. -/
def toRgb (r : Raster σ) : Raster σ :=
  if r.bands = 3 then r
  else
    { r.map fun p => ⟨List.replicate 3 (p.colour.headD p.alpha), p.alpha⟩ with bands := 3 }

/-- Sets the pixels of `tile` into the raster, its corner at `(x, y)`. -/
def blit (r tile : Raster σ) (x y : Nat) : Raster σ :=
  (List.range tile.height).foldl (fun r dy =>
    (List.range tile.width).foldl (fun r dx =>
      r.modify (x + dx) (y + dy) fun _ => tile.pixel dx dy) r) r

/-- The alpha-weighted mean of four pixels, cut to the channel; clear when all are. -/
def meanPixel (channel : Channel) (bands : Nat) (ps : List (Pixel σ)) : Pixel σ :=
  let start : Pixel σ := .clear bands
  let sum := ps.foldl (fun acc p =>
    ⟨List.zipWith (fun c v => c + v * p.alpha) acc.colour p.colour, acc.alpha + p.alpha⟩) start
  if sum.alpha ≤ ofInt 0 then .clear bands
  else ⟨sum.colour.map fun c => channel.clamp (c / sum.alpha), channel.clamp (sum.alpha / ofInt 4)⟩

/-- Halves both sides: each pixel is the mean of a square of four. -/
def downsample (r : Raster σ) : Raster σ :=
  tabulate (r.width / 2) (r.height / 2) r.bands r.channel fun x y =>
    meanPixel r.channel r.bands
      [r.pixel (2 * x) (2 * y), r.pixel (2 * x + 1) (2 * y),
        r.pixel (2 * x) (2 * y + 1), r.pixel (2 * x + 1) (2 * y + 1)]

end Raster
end TilePyramid
