import TilePyramid.Box.Degrees
import TilePyramid.Error
import TilePyramid.Pyramid.Tree

/-!
# Formats

A format names the file of every tile of a pyramid, and carries what its metadata needs.
-/
namespace TilePyramid

/-- How the tiles of a pyramid are named, and what its metadata is written from. The extent is
that of the tiled image in degrees. -/
structure Format (α : Type) where
  mode : OutputMode
  extent : Option (DegreeBox α)
  maxLodPixels : Option Int
  drawOrderOffset : UInt32
  terrain : Bool
  moduleName : Option String

def Format.ofMode {α : Type} (mode : OutputMode) : Format α where
  mode := mode
  extent := none
  maxLodPixels := none
  drawOrderOffset := 0
  terrain := false
  moduleName := none

/-- The measures of a pyramid: its name, the file type and size of its tiles, its deepest level,
and the size of the tiled image. -/
structure PyramidInfo where
  name : Path
  fileType : String
  tileSize : Nat
  maxLevel : Nat
  cols : Nat
  rows : Nat

namespace PyramidInfo

/-- The last component of the name. -/
def stem (p : PyramidInfo) : String := p.name.fileName?.getD "root"

/-- A file next to the directory of the tiles. -/
def beside (p : PyramidInfo) (fileName : String) : Path := p.name.withFileName fileName

/-- A file below the directory of the tiles. -/
def below (p : PyramidInfo) (steps : List String) : Path :=
  steps.foldl (fun path s => path.join ⟨s⟩) p.name

end PyramidInfo

/-- The stem that stands for a tile: its digits, or a word for the tile without any. -/
def Tile.stem (t : Tile) : String := if t.path.isEmpty then "root" else t.path

/-- The row counted from the bottom of the level. -/
def Tile.flippedRow (t : Tile) : Nat := 1 <<< t.level - 1 - t.y

/-- The steps from the directory of the tiles to the file of one. -/
def OutputMode.tileSteps (m : OutputMode) (fileType : String) (t : Tile) : List String :=
  match m with
  | plain | kml | gigapan => [s!"{t.stem}.{fileType}"]
  | tms => [toString t.level, toString t.x, s!"{t.flippedRow}.{fileType}"]
  | gmap => [toString t.level, toString t.x, s!"{t.y}.{fileType}"]
  | uniview => [toString t.level, toString t.y, s!"{t.x}.{fileType}"]
  | celestia => [s!"level{t.level}", s!"tx_{t.x}_{t.y}.{fileType}"]

/-- The file of a tile. -/
def PyramidInfo.tilePath (p : PyramidInfo) (m : OutputMode) (t : Tile) : Path :=
  p.below (m.tileSteps p.fileType t)

namespace Format

variable {α : Type}

def requireModule (f : Format α) : Except ConfigFault String :=
  match f.moduleName with
  | some name => .ok name
  | none => .error (.moduleNeeded f.mode)

def requireExtent (f : Format α) : Except ConfigFault (DegreeBox α) :=
  match f.extent with
  | some extent => .ok extent
  | none => .error (.extentNeeded f.mode)

end Format
end TilePyramid
