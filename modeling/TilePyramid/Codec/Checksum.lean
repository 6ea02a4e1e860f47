/-!
# Checksums

The cyclic redundancy check of 32 bits over the reversed polynomial `0xedb88320`, and the pair of
sums modulo 65521 that closes a compressed stream.
-/
namespace TilePyramid.Checksum

/-- One bit of the division. -/
def crcStep (c : UInt32) : UInt32 :=
  if c &&& 1 = 1 then (c >>> 1) ^^^ 0xedb88320 else c >>> 1

/-- The remainders of the single bytes. -/
def crcTable : Array UInt32 :=
  Array.ofFn fun b : Fin 256 =>
    (List.range 8).foldl (fun c _ => crcStep c) (UInt32.ofNat b.val)

def crc (bytes : ByteArray) : UInt32 :=
  let turn (c : UInt32) (b : UInt8) : UInt32 :=
    crcTable.getD ((c ^^^ b.toUInt32) &&& 0xff).toNat 0 ^^^ (c >>> 8)
  bytes.foldl turn 0xffffffff ^^^ 0xffffffff

/-- One more than the sum of the bytes, and the sum of those sums. -/
def sums (bytes : ByteArray) : UInt32 × UInt32 :=
  bytes.foldl (fun s b =>
    let low := (s.1 + b.toUInt32) % 65521
    (low, (s.2 + low) % 65521)) (1, 0)

/-- Both sums in one word, the second one in front. -/
def adler (bytes : ByteArray) : UInt32 :=
  let s := sums bytes
  (s.2 <<< 16) ||| s.1

end TilePyramid.Checksum
