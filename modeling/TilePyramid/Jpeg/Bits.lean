import TilePyramid.Codec.Bytes

/-!
# Bits of JPEG files

Bits run from the most significant one of each byte on. A byte of ones is followed by a zero byte
that does not count, because ones begin a marker; a reader sees zeros past the end.
-/
namespace TilePyramid.Jpeg

/-- Whole bytes, and the last `count` bits, which make no byte yet, as a number. -/
structure Sink where
  bytes : ByteArray
  held : Nat
  count : Nat

namespace Sink

/-- Writes a byte, with a zero after a byte of ones. -/
def pushByte (bytes : ByteArray) (b : UInt8) : ByteArray :=
  if b = 0xff then (bytes.push b).push 0 else bytes.push b

/-- Moves whole bytes out of the held bits. -/
def drain (s : Sink) : Sink :=
  if s.count < 8 then s
  else
    let count := s.count - 8
    drain ⟨pushByte s.bytes (UInt8.ofNat (s.held >>> count)), s.held % (1 <<< count), count⟩
termination_by s.count

/-- Writes a number in `count` bits. -/
def put (s : Sink) (value count : Nat) : Sink :=
  drain { s with held := s.held <<< count + value, count := s.count + count }

/-- The bytes, the last one filled up with ones. -/
def close (s : Sink) : ByteArray := (s.put 0x7f 7).bytes

end Sink

/-- Bytes without the marks, and the number of bits that are read. -/
structure Bits where
  bytes : ByteArray
  position : Nat

namespace Bits

def next (s : Bits) : Nat × Bits :=
  (((Bytes.byte s.bytes (s.position / 8)).toNat >>> (7 - s.position % 8)) % 2,
    { s with position := s.position + 1 })

/-- A number of `count` bits. -/
def number (s : Bits) : (count : Nat) → Nat × Bits
  | 0 => (0, s)
  | count + 1 =>
    let (high, s) := s.number count
    let (low, s) := s.next
    (2 * high + low, s)

end Bits

/-- How many bits the size of a number has. -/
def bitLength (n : Int) : Nat := if n = 0 then 0 else n.natAbs.log2 + 1

/-- The bits that stand for a number of a bit length: negative ones are one less. -/
def toBits (length : Nat) (n : Int) : Nat :=
  if 0 ≤ n then n.toNat else (1 <<< length) - 1 - n.natAbs

/-- The number of a bit length that bits stand for. -/
def ofBits (length : Nat) (bits : Nat) : Int :=
  if length = 0 then 0
  else if 2 * bits < 1 <<< length then (bits : Int) - (1 <<< length) + 1
  else bits

end TilePyramid.Jpeg
