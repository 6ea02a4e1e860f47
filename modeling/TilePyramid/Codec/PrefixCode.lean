/-!
# Prefix codes

A canonical prefix code is given by the lengths of its words alone: shorter words come first,
words of one length follow each other as their symbols do. It is kept as the number of words of
each length and the symbols in the order of their words.
-/
namespace TilePyramid

/-- `counts` starts at length one. -/
structure PrefixCode where
  counts : List Nat
  symbols : Array Nat
  deriving Repr

namespace PrefixCode

/-- The symbols whose words have a length. -/
def symbolsOfLength (lengths : List Nat) (length : Nat) : List Nat :=
  (lengths.zipIdx.filter fun e => e.1 = length).map Prod.snd

/-- The code with words of these lengths, symbol by symbol. A symbol of length zero has no
word. -/
def ofLengths (longest : Nat) (lengths : List Nat) : PrefixCode :=
  let groups := (List.range longest).map fun l => symbolsOfLength lengths (l + 1)
  ⟨groups.map List.length, groups.flatten.toArray⟩

/-- The words still free after those of the counted lengths; none when there are too many. -/
def free? : (room : Nat) → List Nat → Option Nat
  | room, [] => some room
  | room, count :: counts =>
    if count ≤ 2 * room then free? (2 * room - count) counts else none

/-- There are no more words than the lengths allow. -/
def isSound (code : PrefixCode) : Bool := (free? 1 code.counts).isSome

section
variable {m : Type → Type} [Monad m]

/-- Reads one bit for each length. `first` is the first word of the length before, doubled past
its words, and `index` the number of shorter words. -/
def decodeFrom (bit : m Nat) (symbols : Array Nat) :
    List Nat → (word first index : Nat) → m (Option Nat)
  | [], _, _, _ => return none
  | count :: counts, word, first, index => do
    let word := 2 * word + (← bit)
    let first := 2 * first
    if word < first + count then return symbols[index + (word - first)]?
    else decodeFrom bit symbols counts word (first + count) (index + count)

/-- Reads bits up to the end of a word; none when no word begins like that. -/
def decode (code : PrefixCode) (bit : m Nat) : m (Option Nat) :=
  decodeFrom bit code.symbols code.counts 0 0 0

end

/-- The words of the symbols in their order, each with its length. -/
def wordsFrom : (length first : Nat) → List Nat → List (Nat × Nat)
  | _, _, [] => []
  | length, first, count :: counts =>
    (List.range count).map (fun i => (first + i, length)) ++
      wordsFrom (length + 1) (2 * (first + count)) counts

/-- The words of the symbols below `size`, each with its length; an empty one where a symbol has
no word. -/
def words (code : PrefixCode) (size : Nat) : Array (Nat × Nat) :=
  (code.symbols.toList.zip (wordsFrom 1 0 code.counts)).foldl
    (fun table e => table.setIfInBounds e.1 e.2) (Array.replicate size (0, 0))

end PrefixCode
end TilePyramid
