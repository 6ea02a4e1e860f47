import TilePyramid.Codec.Bytes

/-!
# Line filters

Before it is compressed, each byte of a line is lessened by a prediction from the bytes to its
left and above it. Any of five predictions may be chosen for a line.
-/
namespace TilePyramid.Png

inductive Filter where
  | none
  | left
  | above
  | mean
  | nearest
  deriving DecidableEq, Repr

namespace Filter

/-- The filters in the order of their codes. -/
def all : List Filter := [none, left, above, mean, nearest]

/-- Of three neighbours the one nearest to `left + above - corner`; on a tie the first of them. -/
def closest (left above corner : Nat) : Nat :=
  let far (n : Nat) : Nat := ((left + above : Int) - corner - n).natAbs
  if far left ≤ far above && far left ≤ far corner then left
  else if far above ≤ far corner then above
  else corner

def predict (f : Filter) (l a c : UInt8) : UInt8 :=
  match f with
  | .none => 0
  | .left => l
  | .above => a
  | .mean => UInt8.ofNat ((l.toNat + a.toNat) / 2)
  | .nearest => UInt8.ofNat (closest l.toNat a.toNat c.toNat)

/-- The byte `step` places before index `i`; zero in front of the line. -/
def before (line : ByteArray) (step i : Nat) : UInt8 :=
  if step ≤ i then Bytes.byte line (i - step) else 0

/-- The prediction for the byte at index `i` of a line, of which the bytes before it are known. -/
def predictAt (f : Filter) (step : Nat) (above line : ByteArray) (i : Nat) : UInt8 :=
  f.predict (before line step i) (Bytes.byte above i) (before above step i)

/-- The line that was filtered. -/
def restore (f : Filter) (step : Nat) (above filtered : ByteArray) : ByteArray :=
  filtered.foldl (fun line b => line.push (b + f.predictAt step above line line.size)) .empty

/-- The filtered line. -/
def apply (f : Filter) (step : Nat) (above line : ByteArray) : ByteArray :=
  line.foldl (fun done b => done.push (b - f.predictAt step above line done.size)) .empty

/-- How much is left after filtering: the sum of the bytes as signed numbers, without signs. -/
def rest (filtered : ByteArray) : Nat :=
  filtered.foldl (fun sum b => sum + min b.toNat (256 - b.toNat)) 0

/-- The filtered line with the least left, the code of its filter in front. -/
def best (step : Nat) (above line : ByteArray) : ByteArray :=
  let coded (e : Filter × Nat) : Nat × ByteArray :=
    let filtered := e.1.apply step above line
    (rest filtered, [UInt8.ofNat e.2].toByteArray ++ filtered)
  let lesser (a b : Nat × ByteArray) : Nat × ByteArray := if b.1 < a.1 then b else a
  ((all.zipIdx.map coded).foldl lesser (coded (.none, 0))).2

end Filter
end TilePyramid.Png
