import TilePyramid.Text.Blank

/-!
# Output modes and generator states

The seven ways a pyramid is laid out for a viewer, and the life of a generator.
-/
namespace TilePyramid

/-- The viewer a pyramid is written for. A plain pyramid cuts one image as it is. -/
inductive OutputMode where
  | plain
  | kml
  | tms
  | uniview
  | gmap
  | celestia
  | gigapan
  deriving DecidableEq, Repr, Inhabited

namespace OutputMode

def all : List OutputMode := [plain, kml, tms, uniview, gmap, celestia, gigapan]

def name : OutputMode → String
  | plain => "none"
  | kml => "kml"
  | tms => "tms"
  | uniview => "uniview"
  | gmap => "gmap"
  | celestia => "celestia"
  | gigapan => "gigapan"

/-- Super-overlays need every tile to cover a whole cell of the canvas. -/
def wholeCells (m : OutputMode) : Bool := m = kml

/-- The mode of exactly this name. -/
def ofName? (text : String) : Option OutputMode :=
  all.find? fun m => m.name == text

/-- The mode named by a text, in any case and with blanks around it. -/
def ofText? (text : String) : Option OutputMode :=
  ofName? (Text.lower (Text.trim text))

theorem mem_all (m : OutputMode) : m ∈ all := by cases m <;> decide

theorem ofName?_name (m : OutputMode) : ofName? m.name = some m := by cases m <;> decide

end OutputMode

/-- A generator starts unconfigured, may generate once it is configured, and is complete after
it has. -/
inductive GeneratorState where
  | unconfigured
  | configured
  | generating
  | complete
  deriving DecidableEq, Repr, Inhabited

def GeneratorState.name : GeneratorState → String
  | .unconfigured => "Unconfigured"
  | .configured => "Configured"
  | .generating => "Generating"
  | .complete => "Complete"

end TilePyramid
