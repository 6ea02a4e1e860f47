import TilePyramid.Jpeg.Reader
import TilePyramid.Jpeg.Writer
import TilePyramid.Png.Reader
import TilePyramid.Png.Writer
import TilePyramid.Store.FileTree

/-!
# Files as bytes

An image is known by how its bytes begin; other bytes are a text if they can be one.
-/
namespace TilePyramid

variable {σ : Type} [Arith σ]

/-- The bytes of the file of an image. -/
def EncodedImage.bytes (e : EncodedImage σ) : ByteArray :=
  match e.format with
  | .png => Png.write e.image e.settings.pngCompression
  | .jpeg => Jpeg.write e.image e.settings.jpegQuality

/-- The image that bytes hold. -/
def EncodedImage.ofBytes? (bytes : ByteArray) : Option (EncodedImage σ) :=
  if Png.isPng bytes then (Png.read? bytes).map fun img => ⟨.png, img, .standard⟩
  else if Jpeg.isJpeg bytes then (Jpeg.read? bytes).map fun img => ⟨.jpeg, img, .standard⟩
  else none

/-- What bytes hold. -/
def FileContent.ofBytes (bytes : ByteArray) : FileContent σ :=
  match EncodedImage.ofBytes? bytes with
  | some e => .image e
  | none =>
    match String.fromUTF8? bytes with
    | some contents => .text contents
    | none => .unknown

end TilePyramid
