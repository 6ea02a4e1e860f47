import TilePyramid.Codec.Bytes

/-!
# Reading bits

The bits of a file from the least significant one of each byte on. Reading past the end fails.
-/
namespace TilePyramid

/-- Bytes, and the number of bits that are read. -/
structure BitSource where
  bytes : ByteArray
  position : Nat

/-- A reader of bits, which may fail. -/
abbrev BitReader := StateT BitSource Option

namespace BitReader

def bit : BitReader Nat := fun s =>
  let i := s.position / 8
  if i < s.bytes.size then
    some (((Bytes.byte s.bytes i).toNat >>> (s.position % 8)) % 2,
      { s with position := s.position + 1 })
  else none

/-- A number of `count` bits, the least significant one first. -/
def bits : (count : Nat) → BitReader Nat
  | 0 => return 0
  | count + 1 => do
    let low ← bit
    return low + 2 * (← bits count)

/-- Goes on to the next whole byte. -/
def align : BitReader Unit :=
  modify fun s => { s with position := (s.position + 7) / 8 * 8 }

/-- The next `count` bytes. -/
def take (count : Nat) : BitReader ByteArray := do
  align
  let s ← get
  let start := s.position / 8
  if start + count ≤ s.bytes.size then
    set { s with position := s.position + 8 * count }
    return s.bytes.extract start (start + count)
  else failure

end BitReader
end TilePyramid
