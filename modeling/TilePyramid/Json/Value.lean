/-!
# Structured values

The values of a JSON text. A number is whole when it is written without a point or an exponent
and fits 64 bits; any other number is a machine number. Members keep the order of the text.
-/
namespace TilePyramid

inductive Json where
  | null
  | bool (value : Bool)
  | whole (value : Int)
  | real (value : Float)
  | string (value : String)
  | array (items : List Json)
  | object (members : List (String × Json))
  deriving Inhabited

namespace Json

/-- The first member of a name. -/
def member? (name : String) : Json → Option Json
  | .object members => members.lookup name
  | _ => none

/-- A number as a machine number. -/
def float? : Json → Option Float
  | .whole n => some (Float.ofInt n)
  | .real x => some x
  | _ => none

end Json
end TilePyramid
