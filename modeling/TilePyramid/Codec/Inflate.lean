import TilePyramid.Codec.BitSource
import TilePyramid.Codec.PrefixCode

/-!
# Inflating

A compressed stream is a row of blocks: plain bytes, or symbols in two prefix codes that stand
for a byte or for a copy of bytes that came before.
-/
namespace TilePyramid.Inflate

open BitReader (bit bits)

/-- The lengths of copies by symbol, each with the number of bits that add to it. -/
def lengthTable : Array (Nat × Nat) :=
  #[(3, 0), (4, 0), (5, 0), (6, 0), (7, 0), (8, 0), (9, 0), (10, 0), (11, 1), (13, 1), (15, 1),
    (17, 1), (19, 2), (23, 2), (27, 2), (31, 2), (35, 3), (43, 3), (51, 3), (59, 3), (67, 4),
    (83, 4), (99, 4), (115, 4), (131, 5), (163, 5), (195, 5), (227, 5), (258, 0)]

/-- The distances of copies by symbol, each with the number of bits that add to it. -/
def distanceTable : Array (Nat × Nat) :=
  #[(1, 0), (2, 0), (3, 0), (4, 0), (5, 1), (7, 1), (9, 2), (13, 2), (17, 3), (25, 3), (33, 4),
    (49, 4), (65, 5), (97, 5), (129, 6), (193, 6), (257, 7), (385, 7), (513, 8), (769, 8),
    (1025, 9), (1537, 9), (2049, 10), (3073, 10), (4097, 11), (6145, 11), (8193, 12),
    (12289, 12), (16385, 13), (24577, 13)]

/-- The codes of a block: one for bytes and lengths, one for distances. -/
structure BlockCodes where
  literals : PrefixCode
  distances : PrefixCode

/-- The lengths of the words of a fixed block. -/
def fixedLengths : List Nat :=
  List.replicate 144 8 ++ List.replicate 112 9 ++ List.replicate 24 7 ++ List.replicate 8 8

def fixedCodes : BlockCodes :=
  ⟨.ofLengths 15 fixedLengths, .ofLengths 15 (List.replicate 30 5)⟩

def symbol (code : PrefixCode) : BitReader Nat := do
  match ← code.decode bit with
  | some s => return s
  | none => failure

/-- A value of a table, with its further bits added. -/
def tableValue (table : Array (Nat × Nat)) (index : Nat) : BitReader Nat := do
  match table[index]? with
  | some (base, extra) => return base + (← bits extra)
  | none => failure

/-- Appends `count` bytes, each the one that stands `distance` before it. -/
def copyBack (out : ByteArray) (distance : Nat) : (count : Nat) → ByteArray
  | 0 => out
  | count + 1 => copyBack (out.push (Bytes.byte out (out.size - distance))) distance count

/-- The symbols of a block up to its end. Every symbol takes at least one bit, so `fuel` is
enough when it is the number of bits. -/
def blockSymbols (codes : BlockCodes) : (fuel : Nat) → ByteArray → BitReader ByteArray
  | 0, _ => failure
  | fuel + 1, out => do
    let s ← symbol codes.literals
    if s < 256 then blockSymbols codes fuel (out.push (UInt8.ofNat s))
    else if s = 256 then return out
    else
      let count ← tableValue lengthTable (s - 257)
      let distance ← tableValue distanceTable (← symbol codes.distances)
      if distance ≤ out.size then blockSymbols codes fuel (copyBack out distance count)
      else failure

/-- The order in which the lengths of the words of the length code come. -/
def lengthOrder : List Nat := [16, 17, 18, 0, 8, 7, 9, 6, 10, 5, 11, 4, 12, 3, 13, 2, 14, 1, 15]

/-- Reads `count` lengths, in which a symbol above 15 stands for a run. They are kept in
reverse. -/
def runLengths (code : PrefixCode) (count : Nat) : (fuel : Nat) → List Nat → BitReader (List Nat)
  | 0, _ => failure
  | fuel + 1, done => do
    if done.length = count then return done.reverse
    else if count < done.length then failure
    else
      match ← symbol code with
      | 16 =>
        match done with
        | [] => failure
        | l :: _ => runLengths code count fuel (List.replicate (3 + (← bits 2)) l ++ done)
      | 17 => runLengths code count fuel (List.replicate (3 + (← bits 3)) 0 ++ done)
      | 18 => runLengths code count fuel (List.replicate (11 + (← bits 7)) 0 ++ done)
      | l => runLengths code count fuel (l :: done)

/-- The codes that a block brings along. -/
def ownCodes : BitReader BlockCodes := do
  let literals := 257 + (← bits 5)
  let distances := 1 + (← bits 5)
  let given ← (List.replicate (4 + (← bits 4)) ()).mapM fun _ => bits 3
  let lengths := (lengthOrder.zip given).foldl (fun ls e => ls.set e.1 e.2) (List.replicate 19 0)
  let all ← runLengths (.ofLengths 7 lengths) (literals + distances) 320 []
  let codes : BlockCodes :=
    ⟨.ofLengths 15 (all.take literals), .ofLengths 15 (all.drop literals)⟩
  if codes.literals.isSound && codes.distances.isSound then return codes else failure

/-- Plain bytes: their number, its complement, and the bytes. -/
def plainBlock (out : ByteArray) : BitReader ByteArray := do
  BitReader.align
  let count ← bits 16
  let check ← bits 16
  if count + check = 0xffff then return out ++ (← BitReader.take count) else failure

/-- The blocks up to the one marked as the last. -/
def blocks : (fuel : Nat) → ByteArray → BitReader ByteArray
  | 0, _ => failure
  | fuel + 1, out => do
    let last ← bit
    let kind ← bits 2
    let size := 8 * (← get).bytes.size
    let out ← match kind with
      | 0 => plainBlock out
      | 1 => blockSymbols fixedCodes size out
      | 2 => do blockSymbols (← ownCodes) size out
      | _ => failure
    if last = 1 then return out else blocks fuel out

/-- The bytes of a compressed stream that starts at byte `start`. -/
def inflate? (bytes : ByteArray) (start : Nat) : Option ByteArray :=
  (blocks (8 * bytes.size) .empty ⟨bytes, 8 * start⟩).map Prod.fst

/-- The bytes of a stream with its two bytes of heading. -/
def unwrap? (bytes : ByteArray) : Option ByteArray :=
  let heading := Bytes.number bytes 0 2
  if heading % 31 = 0 && heading / 256 % 16 = 8 && heading / 32 % 2 = 0 then inflate? bytes 2
  else none

end TilePyramid.Inflate
