/-!
# Bytes

Whole numbers in the bytes of a file, most significant byte first, and reads that see zeros past
the end.
-/
namespace TilePyramid.Bytes

/-- The byte at an index; zero past the end. -/
def byte (bytes : ByteArray) (i : Nat) : UInt8 := bytes[i]?.getD 0

/-- The number in `count` bytes from `start` on; zeros stand for missing bytes. -/
def number (bytes : ByteArray) (start : Nat) : (count : Nat) → Nat
  | 0 => 0
  | count + 1 => number bytes start count * 256 + (byte bytes (start + count)).toNat

/-- A number in `count` bytes; what does not fit is cut off in front. -/
def ofNumber : (count : Nat) → Nat → List UInt8
  | 0, _ => []
  | count + 1, n => ofNumber count (n / 256) ++ [UInt8.ofNat n]

/-- The characters of a name in one byte each. -/
def ofName (name : String) : List UInt8 := name.toList.map fun c => UInt8.ofNat c.toNat

end TilePyramid.Bytes
