import TilePyramid.Error
import TilePyramid.Raster.Image

/-!
# Encoded tiles

A tile is stored as a PNG image, which keeps every sample, or as a JPEG image, which has 8 bits
and no alpha. The choice is made by the name of the file type.
-/
namespace TilePyramid

/-- How hard the encoders try. -/
structure EncodeSettings where
  jpegQuality : Nat
  pngCompression : Nat
  deriving DecidableEq, Repr

def EncodeSettings.standard : EncodeSettings := ⟨90, 6⟩

inductive ImageFormat where
  | png
  | jpeg
  deriving DecidableEq, Repr, Inhabited

/-- The format of a file type, in any case. -/
def ImageFormat.ofFileType? (fileType : String) : Option ImageFormat :=
  let name := Text.lower fileType
  if name = "png" then some .png
  else if name = "jpg" || name = "jpeg" then some .jpeg
  else none

/-- An image in the form of its file. -/
structure EncodedImage (σ : Type) where
  format : ImageFormat
  image : Image σ
  settings : EncodeSettings
  deriving DecidableEq, Repr

section
variable {σ : Type} [Arith σ]

/-- A sample of 8 bits for one of 16 bits: the nearest of the same brightness. -/
def shortenSample (v : σ) : σ :=
  ofInt ((Arith.toInt v + 128) / 257)

/-- The image in 8 bits and without its alpha. -/
def Image.flatten (img : Image σ) : Image σ where
  kind := if img.kind.bands = 1 then .l8 else .rgb8
  width := img.width
  height := img.height
  samples :=
    ((pixelSamples img.kind.stride (img.width * img.height) img.samples).flatMap fun s =>
      let colour := s.take img.kind.bands
      if img.kind.channel = .u16 then colour.map shortenSample else colour).toArray

/-- The file of a raster. -/
def Raster.encode (r : Raster σ) (fileType : String) (settings : EncodeSettings) :
    Except Error (EncodedImage σ) :=
  if r.isEmpty then .error (.codec (.emptyImage r.width r.height))
  else
    match r.toImage? with
    | none => .error (.codec .bufferSize)
    | some img =>
      match ImageFormat.ofFileType? fileType with
      | none => .error (.codec (.unknownFormat (Text.lower fileType)))
      | some .png => .ok ⟨.png, img, settings⟩
      | some .jpeg => .ok ⟨.jpeg, img.flatten, settings⟩

end
end TilePyramid
