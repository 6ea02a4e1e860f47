/-!
# Quoted text

Three ways to set text inside other text: a description in double quotes, a string of a JSON
document, and character data of an XML document.
-/
namespace TilePyramid.Text

/-- Hexadecimal digits in lower case, without leading zeros. -/
def hex (n : Nat) : String :=
  String.ofList (Nat.toDigits 16 n)

/-- Characters that a description never shows as they are: controls, separators, and marks and
spaces without a shape of their own. -/
def isHidden (c : Char) : Bool :=
  let n := c.toNat
  n < 0x20 || (0x7F ≤ n && n ≤ 0xA0) || n = 0xAD || (0x300 ≤ n && n ≤ 0x36F) || n = 0x1680 ||
    (0x2000 ≤ n && n ≤ 0x200F) || (0x2028 ≤ n && n ≤ 0x202F) || (0x205F ≤ n && n ≤ 0x206F) ||
    (0x20D0 ≤ n && n ≤ 0x20F0) || n = 0x3000 || (0xE000 ≤ n && n ≤ 0xF8FF) ||
    (0xFE00 ≤ n && n ≤ 0xFE0F) || (0xFE20 ≤ n && n ≤ 0xFE2F) || n = 0xFEFF ||
    (0xFFF0 ≤ n && n ≤ 0xFFFB) || 0xE0000 ≤ n

def describeChar (c : Char) : String :=
  if c = '"' then "\\\""
  else if c = '\\' then "\\\\"
  else if c = '\t' then "\\t"
  else if c = '\r' then "\\r"
  else if c = '\n' then "\\n"
  else if c.toNat = 0 then "\\0"
  else if isHidden c then "\\u\x7b" ++ hex c.toNat ++ "\x7d"
  else String.singleton c

/-- A description of a text: in double quotes, with hidden characters spelled out. -/
def describe (text : String) : String :=
  "\"" ++ String.join (text.toList.map describeChar) ++ "\""

def jsonChar (c : Char) : String :=
  if c = '"' then "\\\""
  else if c = '\\' then "\\\\"
  else if c.toNat = 8 then "\\b"
  else if c = '\t' then "\\t"
  else if c = '\n' then "\\n"
  else if c.toNat = 12 then "\\f"
  else if c = '\r' then "\\r"
  else if c.toNat < 0x20 then
    "\\u00" ++ (if c.toNat < 0x10 then "0" else "") ++ hex c.toNat
  else String.singleton c

/-- A string of a JSON document. -/
def json (text : String) : String :=
  "\"" ++ String.join (text.toList.map jsonChar) ++ "\""

def xmlChar (c : Char) : String :=
  if c = '&' then "&amp;"
  else if c = '<' then "&lt;"
  else if c = '>' then "&gt;"
  else if c = '"' then "&quot;"
  else String.singleton c

/-- Character data of an XML document. -/
def xml (text : String) : String :=
  String.join (text.toList.map xmlChar)

end TilePyramid.Text
