/-!
# Writing bits

Bits are gathered until there are eight of them, the least significant one of a byte first.
-/
namespace TilePyramid

/-- Whole bytes, and `count` bits in `held` that do not make a byte yet. -/
structure BitSink where
  bytes : ByteArray
  held : Nat
  count : Nat

namespace BitSink

def empty : BitSink := ⟨.empty, 0, 0⟩

/-- Moves whole bytes out of the held bits. -/
def drain (s : BitSink) : BitSink :=
  if s.count < 8 then s
  else drain ⟨s.bytes.push (UInt8.ofNat s.held), s.held / 256, s.count - 8⟩
termination_by s.count

/-- Writes the `count` low bits of a number, the least significant one first. -/
def put (s : BitSink) (value count : Nat) : BitSink :=
  drain { s with held := s.held + (value % (1 <<< count)) <<< s.count, count := s.count + count }

/-- The low bits of a number in reverse order. -/
def reversed : (count : Nat) → Nat → Nat
  | 0, _ => 0
  | count + 1, n => (n % 2) <<< count + reversed count (n / 2)

/-- Writes a word with its most significant bit first. -/
def putWord (s : BitSink) (word length : Nat) : BitSink :=
  s.put (reversed length word) length

/-- The bytes, the last one filled up with zeros. -/
def close (s : BitSink) : ByteArray :=
  if s.count = 0 then s.bytes else s.bytes.push (UInt8.ofNat s.held)

end BitSink
end TilePyramid
