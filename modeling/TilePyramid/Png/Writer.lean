import TilePyramid.Codec.Deflate
import TilePyramid.Png.Chunk
import TilePyramid.Png.Filter
import TilePyramid.Png.Header

/-!
# Writing PNG files

An image of 8 or 16 bits is written in one pass, every line with the filter that leaves the
least.
-/
namespace TilePyramid.Png

/-- How many places are tried for a copy at a level of compression. -/
def triesOfLevel (level : Nat) : Nat :=
  if level ≤ 3 then 1 else if level ≤ 6 then 8 else 64

section
variable {σ : Type} [Arith σ]

/-- The bytes of samples that are `depth` bits wide. -/
def sampleBytes (depth : Nat) (samples : Array σ) : ByteArray :=
  samples.foldl (fun bytes v =>
    (Bytes.ofNumber (depth / 8) (Arith.toInt v).toNat).foldl ByteArray.push bytes) .empty

/-- The filtered lines of the image. -/
def filteredLines (h : Header) (samples : Array σ) : ByteArray :=
  let count := h.width * h.colour.channels
  let line (y : Nat) : ByteArray :=
    sampleBytes h.depth (samples.extract (y * count) ((y + 1) * count))
  ((List.range h.height).foldl (fun (done : ByteArray × ByteArray) y =>
    let next := line y
    (done.1 ++ Filter.best h.filterStep done.2 next, next)) (.empty, .empty)).1

/-- The PNG file of an image. -/
def write (img : Image σ) (level : Nat) : ByteArray :=
  let h := Header.ofImage img
  let data := Deflate.wrap (filteredLines h img.samples) (triesOfLevel level)
  let chunks : List Chunk := [⟨"IHDR", h.bytes⟩, ⟨"IDAT", data⟩, ⟨"IEND", .empty⟩]
  chunks.foldl (fun bytes c => bytes ++ c.bytes) signature

end
end TilePyramid.Png
