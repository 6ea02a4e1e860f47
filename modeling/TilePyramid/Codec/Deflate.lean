import TilePyramid.Codec.BitSink
import TilePyramid.Codec.Checksum
import TilePyramid.Codec.Inflate

/-!
# Deflating

Bytes are compressed into one block of the fixed codes. What has stood within the last 32768
bytes is copied when at least three bytes agree.
-/
namespace TilePyramid.Deflate

/-- Where keys of three bytes occurred: the last place by key, and for each place the one before
it of the same key. A place is kept as one more than its index. -/
structure Occurrences where
  last : Array Nat
  earlier : Array Nat

namespace Occurrences

def none : Occurrences := ⟨Array.replicate 0x8000 0, #[]⟩

/-- The key of three bytes, in 15 bits. -/
def key (bytes : ByteArray) (i : Nat) : Nat :=
  ((Bytes.byte bytes i).toNat * 1024 + (Bytes.byte bytes (i + 1)).toNat * 32 +
    (Bytes.byte bytes (i + 2)).toNat) % 0x8000

/-- Adds the place that follows all places so far. -/
def add (o : Occurrences) (key : Nat) : Occurrences :=
  let place := o.earlier.size + 1
  let before := o.last.getD key 0
  ⟨o.last.setIfInBounds key place, o.earlier.push before⟩

/-- Adds the next `count` places. -/
def addUpTo (bytes : ByteArray) (o : Occurrences) (count : Nat) : Occurrences :=
  (List.range count).foldl (fun o _ => o.add (key bytes o.earlier.size)) o

end Occurrences

/-- How many bytes from `i` and from `j` on agree, up to `limit`. -/
def agreement (bytes : ByteArray) (i j : Nat) : (limit : Nat) → Nat
  | 0 => 0
  | limit + 1 =>
    if Bytes.byte bytes i = Bytes.byte bytes j then 1 + agreement bytes (i + 1) (j + 1) limit else 0

/-- The longest copy found among `tries` places, as length and distance. -/
def longest (bytes : ByteArray) (o : Occurrences) (i : Nat) :
    (tries place : Nat) → Nat × Nat → Nat × Nat
  | 0, _, best => best
  | tries + 1, place, best =>
    if place = 0 || i + 1 - place > 0x8000 then best
    else
      let length := agreement bytes i (place - 1) (min 258 (bytes.size - i))
      longest bytes o i tries (o.earlier.getD (place - 1) 0)
        (if best.1 < length then (length, i + 1 - place) else best)

/-- The index of the last entry of a table that is not above `value`. -/
def tableIndex (table : Array (Nat × Nat)) (value : Nat) : Nat :=
  (table.toList.takeWhile fun e => e.1 ≤ value).length - 1

/-- The words of the fixed code for bytes and lengths. -/
def literalWords : Array (Nat × Nat) := Inflate.fixedCodes.literals.words 288

def putSymbol (s : BitSink) (symbol : Nat) : BitSink :=
  let word := literalWords.getD symbol (0, 0)
  s.putWord word.1 word.2

/-- Writes a copy. -/
def putCopy (s : BitSink) (length distance : Nat) : BitSink :=
  let l := tableIndex Inflate.lengthTable length
  let d := tableIndex Inflate.distanceTable distance
  let (lengthBase, lengthBits) := Inflate.lengthTable.getD l (0, 0)
  let (distanceBase, distanceBits) := Inflate.distanceTable.getD d (0, 0)
  (((putSymbol s (257 + l)).put (length - lengthBase) lengthBits).putWord d 5).put
    (distance - distanceBase) distanceBits

/-- Writes the bytes from `i` on. -/
def putFrom (bytes : ByteArray) (tries : Nat) (o : Occurrences) (s : BitSink) (i : Nat) :
    BitSink :=
  if i < bytes.size then
    let found := longest bytes o i tries (o.last.getD (Occurrences.key bytes i) 0) (0, 0)
    let count := if found.1 < 3 then 1 else found.1
    let s := if found.1 < 3 then putSymbol s (Bytes.byte bytes i).toNat
      else putCopy s found.1 found.2
    putFrom bytes tries (Occurrences.addUpTo bytes o count) s (i + max 1 count)
  else s
termination_by bytes.size - i

/-- The compressed stream. More `tries` find longer copies. -/
def deflate (bytes : ByteArray) (tries : Nat) : ByteArray :=
  let start := (BitSink.empty.put 1 1).put 1 2
  (putSymbol (putFrom bytes tries .none start 0) 256).close

/-- The compressed stream with its heading and its checksum. -/
def wrap (bytes : ByteArray) (tries : Nat) : ByteArray :=
  [0x78, 0x9c].toByteArray ++ deflate bytes tries ++
    (Bytes.ofNumber 4 (Checksum.adler bytes).toNat).toByteArray

end TilePyramid.Deflate
