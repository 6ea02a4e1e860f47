import TilePyramid.Codec.Bytes
import TilePyramid.Raster.Image

/-!
# The header of a PNG file

The size of the image, what its samples mean, and the passes in which its pixels come: all at
once, or in seven passes of growing detail.
-/
namespace TilePyramid.Png

inductive ColourType where
  | grey
  | colour
  | indexed
  | greyAlpha
  | colourAlpha
  deriving DecidableEq, Repr

namespace ColourType

def code : ColourType → Nat
  | grey => 0
  | colour => 2
  | indexed => 3
  | greyAlpha => 4
  | colourAlpha => 6

def all : List ColourType := [grey, colour, indexed, greyAlpha, colourAlpha]

def channels : ColourType → Nat
  | grey | indexed => 1
  | greyAlpha => 2
  | colour => 3
  | colourAlpha => 4

/-- The numbers of bits a sample may have. -/
def depths : ColourType → List Nat
  | grey => [1, 2, 4, 8, 16]
  | indexed => [1, 2, 4, 8]
  | _ => [8, 16]

end ColourType

structure Header where
  width : Nat
  height : Nat
  depth : Nat
  colour : ColourType
  interlaced : Bool

/-- The pixels `(x + i * stepX, y + j * stepY)`. -/
structure Pass where
  x : Nat
  y : Nat
  stepX : Nat
  stepY : Nat

namespace Header

/-- Reads the body of a header. -/
def ofBytes? (body : ByteArray) : Option Header := do
  let code := Bytes.number body 9 1
  let found ← ColourType.all.find? fun c => c.code = code
  let header : Header := {
    width := Bytes.number body 0 4
    height := Bytes.number body 4 4
    depth := Bytes.number body 8 1
    colour := found
    interlaced := Bytes.number body 12 1 = 1 }
  let known := Bytes.number body 10 2 = 0 && Bytes.number body 12 1 ≤ 1
  let sized := 0 < header.width && 0 < header.height && body.size = 13
  if known && sized && found.depths.contains header.depth then some header else none

def bytes (h : Header) : ByteArray :=
  (Bytes.ofNumber 4 h.width ++ Bytes.ofNumber 4 h.height ++
    Bytes.ofNumber 5 (((h.depth * 256 + h.colour.code) * 0x10000) * 256 +
      if h.interlaced then 1 else 0)).toByteArray

/-- The header for an image. What is not of 8 bits is written in 16. -/
def ofImage {σ : Type} (img : Image σ) : Header where
  width := img.width
  height := img.height
  depth := if img.kind.channel = .u8 then 8 else 16
  colour :=
    match img.kind.bands, img.kind.hasAlpha with
    | 1, false => .grey
    | 1, true => .greyAlpha
    | _, false => .colour
    | _, true => .colourAlpha
  interlaced := false

/-- The passes of the image. -/
def passes (h : Header) : List Pass :=
  if h.interlaced then
    [⟨0, 0, 8, 8⟩, ⟨4, 0, 8, 8⟩, ⟨0, 4, 4, 8⟩, ⟨2, 0, 4, 4⟩, ⟨0, 2, 2, 4⟩, ⟨1, 0, 2, 2⟩,
      ⟨0, 1, 1, 2⟩]
  else [⟨0, 0, 1, 1⟩]

/-- The pixels of a line of a pass. -/
def passCols (h : Header) (p : Pass) : Nat := (h.width - p.x + p.stepX - 1) / p.stepX

/-- The lines of a pass. A pass without pixels has none. -/
def passRows (h : Header) (p : Pass) : Nat :=
  if h.passCols p = 0 then 0 else (h.height - p.y + p.stepY - 1) / p.stepY

/-- The bytes of a line of `cols` pixels. -/
def lineSize (h : Header) (cols : Nat) : Nat := (cols * h.colour.channels * h.depth + 7) / 8

/-- The distance in bytes of samples that are compared by a filter. -/
def filterStep (h : Header) : Nat := max 1 (h.colour.channels * h.depth / 8)

end Header
end TilePyramid.Png
