import TilePyramid.Codec.Bytes
import TilePyramid.Codec.Checksum

/-!
# Chunks

A PNG file is a signature and a row of chunks: the length of the body, a name of four letters,
the body, and a checksum of name and body. A name that begins with a capital is of a chunk that
no reader may skip.
-/
namespace TilePyramid.Png

def signature : ByteArray := [0x89, 0x50, 0x4e, 0x47, 0x0d, 0x0a, 0x1a, 0x0a].toByteArray

/-- The bytes begin like a PNG file. -/
def isPng (bytes : ByteArray) : Bool := (bytes.extract 0 8).data == signature.data

structure Chunk where
  name : String
  body : ByteArray

namespace Chunk

/-- The bytes under the checksum. -/
def checked (c : Chunk) : ByteArray := (Bytes.ofName c.name).toByteArray ++ c.body

def bytes (c : Chunk) : ByteArray :=
  (Bytes.ofNumber 4 c.body.size).toByteArray ++ c.checked ++
    (Bytes.ofNumber 4 (Checksum.crc c.checked).toNat).toByteArray

def isCritical (c : Chunk) : Bool := (c.name.toList.head?.map Char.isUpper).getD false

/-- The text of `count` bytes, one character for each. -/
def nameAt (bytes : ByteArray) (start count : Nat) : String :=
  String.ofList ((List.range count).map fun i =>
    Char.ofNat (Bytes.byte bytes (start + i)).toNat)

/-- The chunks from a place on, up to the end chunk or to the first one that is cut short. A
false checksum is an error where a chunk is critical; other chunks are skipped then. -/
def readFrom (bytes : ByteArray) (start : Nat) : Option (List Chunk) :=
  let length := Bytes.number bytes start 4
  let stop := start + 12 + length
  if stop ≤ bytes.size then
    let chunk : Chunk :=
      ⟨nameAt bytes (start + 4) 4, bytes.extract (start + 8) (start + 8 + length)⟩
    let sound := (Checksum.crc chunk.checked).toNat = Bytes.number bytes (stop - 4) 4
    if sound then
      if chunk.name = "IEND" then some [] else (readFrom bytes stop).map (chunk :: ·)
    else if chunk.isCritical then none
    else readFrom bytes stop
  else some []
termination_by bytes.size - start

end Chunk
end TilePyramid.Png
