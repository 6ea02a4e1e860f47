import TilePyramid.Raster.Basic

/-!
# Images

The kinds of image a file holds, and the way between them and rasters. A raster always has an
alpha; an image without one is opaque. Grey and colour images of 8 and 16 bits come back from a
raster as they were, with an alpha.
-/
namespace TilePyramid

/-- Grey or colour, with or without alpha, in 8 or 16 bits or as fractions. -/
inductive ImageKind where
  | l8
  | la8
  | rgb8
  | rgba8
  | l16
  | la16
  | rgb16
  | rgba16
  | rgb32f
  | rgba32f
  deriving DecidableEq, Repr, Inhabited

namespace ImageKind

def name : ImageKind → String
  | l8 => "l8"
  | la8 => "la8"
  | rgb8 => "rgb8"
  | rgba8 => "rgba8"
  | l16 => "l16"
  | la16 => "la16"
  | rgb16 => "rgb16"
  | rgba16 => "rgba16"
  | rgb32f => "rgb32f"
  | rgba32f => "rgba32f"

def all : List ImageKind := [l8, la8, rgb8, rgba8, l16, la16, rgb16, rgba16, rgb32f, rgba32f]

/-- The number of colour bands. -/
def bands : ImageKind → Nat
  | l8 | la8 | l16 | la16 => 1
  | _ => 3

def hasAlpha : ImageKind → Bool
  | la8 | rgba8 | la16 | rgba16 | rgba32f => true
  | _ => false

def channel : ImageKind → Channel
  | l8 | la8 | rgb8 | rgba8 => .u8
  | l16 | la16 | rgb16 | rgba16 => .u16
  | rgb32f | rgba32f => .f32

/-- Samples per pixel. -/
def stride (k : ImageKind) : Nat := k.bands + if k.hasAlpha then 1 else 0

/-- The same kind with an alpha. -/
def withAlpha : ImageKind → ImageKind
  | l8 | la8 => la8
  | rgb8 | rgba8 => rgba8
  | l16 | la16 => la16
  | rgb16 | rgba16 => rgba16
  | rgb32f | rgba32f => rgba32f

end ImageKind

/-- An image as a file holds it: samples pixel by pixel, alpha last. -/
structure Image (σ : Type) where
  kind : ImageKind
  width : Nat
  height : Nat
  samples : Array σ
  deriving DecidableEq, Repr

/-- Cuts samples into pixels of `stride` samples; what is left over at the end is dropped. -/
def pixelSamples {σ : Type} (stride count : Nat) (samples : Array σ) : List (List σ) :=
  (List.range count).map fun i => (samples.extract (i * stride) ((i + 1) * stride)).toList

section
variable {σ : Type} [Arith σ]

/-- A pixel from its samples; without an alpha among them it is opaque. -/
def Pixel.ofSamples (bands : Nat) (fullAlpha : σ) (samples : List σ) : Pixel σ :=
  ⟨samples.take bands, (samples.drop bands).headD fullAlpha⟩

/-- The raster of an image. -/
def Raster.ofImage (img : Image σ) : Raster σ where
  width := img.width
  height := img.height
  bands := img.kind.bands
  channel := img.kind.channel
  pixels := ((pixelSamples img.kind.stride (img.width * img.height) img.samples).map
    (.ofSamples img.kind.bands img.kind.channel.opaqueAlpha)).toArray

/-- Rounds to the nearest whole number from 0 to `top`. -/
def quantize (top : Int) (v : σ) : σ :=
  ofInt (Arith.toInt (Arith.round (Arith.clamp (ofInt 0) (ofInt top) v)))

/-- The whole numbers that stand for colour values and for alphas of a channel: 8 bits keep 8
bits, fractions are spread over 8 bits, and signed values are shifted into 16 bits. -/
def Channel.quantizeColour (c : Channel) (v : σ) : σ :=
  match c with
  | .u8 | .f32 => quantize 255 (v * (ofInt 255 / c.greatest))
  | .u16 | .i16 => quantize 65535 (v + -c.least)

def Channel.quantizeAlpha (c : Channel) (v : σ) : σ :=
  match c with
  | .u8 | .f32 => quantize 255 (v * (ofInt 255 / c.greatest))
  | .u16 | .i16 => quantize 65535 (v * (ofInt 65535 / c.opaqueAlpha))

/-- Grey stays one band; anything else becomes three, the last band repeated where it is short. -/
def Pixel.threeBands (bands : Nat) (p : Pixel σ) : List σ :=
  if bands = 1 then p.colour.take 1
  else (List.range 3).map fun i => p.colour.getD (min i (bands - 1)) p.alpha

/-- The kind of image a raster becomes. -/
def Raster.imageKind (r : Raster σ) : ImageKind :=
  match r.channel, decide (r.bands = 1) with
  | .u8, true | .f32, true => .la8
  | .u8, false | .f32, false => .rgba8
  | .u16, true | .i16, true => .la16
  | .u16, false | .i16, false => .rgba16

/-- The image of a raster; none when pixels are missing. -/
def Raster.toImage? (r : Raster σ) : Option (Image σ) :=
  if r.pixels.size < r.width * r.height then none
  else
    some {
      kind := r.imageKind
      width := r.width
      height := r.height
      samples := r.pixels.flatMap fun p =>
        (((p.threeBands r.bands).map r.channel.quantizeColour) ++
          [r.channel.quantizeAlpha p.alpha]).toArray }

end
end TilePyramid
