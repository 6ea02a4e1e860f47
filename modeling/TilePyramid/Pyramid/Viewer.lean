import TilePyramid.Options.Basic
import TilePyramid.Pyramid.Format

/-!
# Viewer settings

What the files of each viewer say beyond the tiles, taken from the options of a run.
-/
namespace TilePyramid

inductive ViewerSettings (α : Type) where
  | plain
  | kml (extent : DegreeBox α) (maxLodPixels : Int) (drawOrderOffset : UInt32)
  | tms
  | uniview (terrain : Bool) (moduleName : String)
  | gmap
  | celestia (moduleName : String)
  | gigapan (extent : DegreeBox α)

namespace ViewerSettings

variable {α σ : Type}

def mode : ViewerSettings α → OutputMode
  | plain => .plain
  | kml .. => .kml
  | tms => .tms
  | uniview .. => .uniview
  | gmap => .gmap
  | celestia _ => .celestia
  | gigapan _ => .gigapan

/-- The module name of the options, which some viewers need. -/
def moduleName (o : Options α σ) : Except ConfigFault String :=
  match o.moduleName with
  | some name => .ok name
  | none => .error (.moduleNeeded o.mode)

/-- The settings for the mode of the options; `extent` is that of the tiled image. -/
def ofOptions (o : Options α σ) (extent : DegreeBox α) : Except ConfigFault (ViewerSettings α) :=
  match o.mode with
  | .plain => .ok plain
  | .kml => .ok (kml extent o.kml.maxLodPixels o.kml.drawOrderOffset)
  | .tms => .ok tms
  | .uniview => (moduleName o).map (uniview o.terrain)
  | .gmap => .ok gmap
  | .celestia => (moduleName o).map celestia
  | .gigapan => .ok (gigapan extent)

/-- The format that a generator is given. -/
def format (v : ViewerSettings α) : Format α :=
  let base : Format α := .ofMode v.mode
  match v with
  | plain | tms | gmap => base
  | kml extent maxLodPixels drawOrderOffset =>
    { base with extent := some extent, maxLodPixels := some maxLodPixels, drawOrderOffset }
  | uniview terrain name => { base with terrain, moduleName := some name }
  | celestia name => { base with moduleName := some name }
  | gigapan extent => { base with extent := some extent }

end ViewerSettings
end TilePyramid
