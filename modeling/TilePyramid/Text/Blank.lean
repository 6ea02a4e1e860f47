/-!
# Blank characters

Words are separated by the characters with the Unicode property White_Space.
-/
namespace TilePyramid.Text

/-- The characters with the property White_Space. -/
def isBlank (c : Char) : Bool :=
  let n := c.toNat
  (9 ≤ n && n ≤ 13) || n = 0x20 || n = 0x85 || n = 0xA0 || n = 0x1680 ||
    (0x2000 ≤ n && n ≤ 0x200A) || n = 0x2028 || n = 0x2029 || n = 0x202F || n = 0x205F ||
    n = 0x3000

/-- Adds one more character in front of a text that is already split into words; the first word
is still open when `joined` holds. -/
def consWord (c : Char) : Bool × List (List Char) → Bool × List (List Char)
  | (joined, words) =>
    if isBlank c then (false, words)
    else
      match joined, words with
      | true, w :: rest => (true, (c :: w) :: rest)
      | _, _ => (true, [c] :: words)

/-- The longest runs of characters that are not blank, in order. -/
def words (text : String) : List String :=
  (text.toList.foldr consWord (false, [])).2.map String.ofList

/-- Drops blank characters at both ends. -/
def trim (text : String) : String :=
  let kept := text.toList.dropWhile isBlank
  String.ofList (kept.reverse.dropWhile isBlank).reverse

/-- Lower case for the letters A to Z; other characters are kept. -/
def lower (text : String) : String :=
  String.ofList (text.toList.map Char.toLower)

end TilePyramid.Text
