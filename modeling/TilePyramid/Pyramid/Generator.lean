import TilePyramid.Pyramid.Metadata
import TilePyramid.Pyramid.Plan
import TilePyramid.Pyramid.Rendering

/-!
# Generators

A generator collects the tile size, the file type and the format, and then cuts an image into a
pyramid. Generation is refused until all three are there, and again after it has succeeded until
one of them is set anew.
-/
namespace TilePyramid

structure Generator (α : Type) where
  name : Path
  tileSize : Option Nat
  fileType : Option String
  format : Option (Format α)
  crop : Option PixelBox
  state : GeneratorState

namespace Generator

variable {α σ : Type}

/-- A generator that writes tiles below `name`. -/
def new (name : Path) : Generator α where
  name := name
  tileSize := none
  fileType := none
  format := none
  crop := none
  state := .unconfigured

def isReady (g : Generator α) : Bool :=
  g.tileSize.isSome && g.fileType.isSome && g.format.isSome

/-- The state after a setting. -/
def refresh (g : Generator α) : Generator α :=
  { g with state := if g.isReady then .configured else .unconfigured }

/-- A size of zero is no size. -/
def setTileSize (g : Generator α) (size : Nat) : Generator α :=
  refresh { g with tileSize := if size = 0 then none else some size }

/-- An empty file type is no file type. -/
def setFileType (g : Generator α) (fileType : String) : Generator α :=
  refresh { g with fileType := if fileType.isEmpty then none else some fileType }

/-- Leaves out the tiles outside of a box of image pixels. -/
def setCrop (g : Generator α) (crop : PixelBox) : Generator α :=
  refresh { g with crop := some crop }

def setFormat (g : Generator α) (format : Format α) : Generator α :=
  refresh { g with format := some format }

/-- The deepest level, once the tile size is known. -/
def maxLevel (g : Generator α) (source : TileSource σ) : Option Nat :=
  g.tileSize.map (maxLevelFor (max source.cols source.rows))

/-- How many tiles of the deepest level share a pixel with the crop box. -/
def leavesWithin (crop : PixelBox) (tileSize : Nat) : Int :=
  let t : Int := tileSize
  let cols := (crop.maxX + t - 1).tdiv t - crop.minX.tdiv t
  let rows := (crop.maxY + t - 1).tdiv t - crop.minY.tdiv t
  max cols 0 * max rows 0

section
variable [Arith α]

/-- Writes tiles in the order given, and reports the share of the leaves that are done before
each leaf is written. -/
def tileActions (info : PyramidInfo) (mode : OutputMode) (total : Int) (done : Int) :
    List (Tree (RenderedTile σ)) → List (Action α σ)
  | [] => []
  | node :: rest =>
    let t := node.value
    let write := Action.tile (info.tilePath mode t.tile) t.raster
    if t.tile.level = info.maxLevel then
      .report (ofInt (done + 1) / ofInt (max total 1)) :: write ::
        tileActions info mode total (done + 1) rest
    else write :: tileActions info mode total done rest

variable [NumberText α] [Arith σ]

/-- What a configured generator does: every tile after the tiles below it, then the metadata. -/
def cut (info : PyramidInfo) (format : Format α) (crop : PixelBox) (source : TileSource σ) :
    Plan α σ TileTree :=
  let side := info.tileSize <<< info.maxLevel
  Plan.within (ofInt 0) (ofInt 1) <|
    match source.render info.tileSize crop info.maxLevel (.root side) with
    | none => .fail .emptyOutput
    | some rendered => do
      let root : TileTree := rendered.map RenderedTile.tile
      Plan.act (tileActions info format.mode (leavesWithin crop info.tileSize) 0
        rendered.postorder)
      let files ← Plan.ofExcept ((format.metadata info root).mapError Error.configuration)
      Plan.act (files.map fun f => Action.metadata f.1 f.2)
      Plan.report (ofInt 1)
      return root

/-- What the generator does when it is asked to generate. -/
def plan (g : Generator α) (source : TileSource σ) : Plan α σ TileTree :=
  if g.state ≠ .configured then .fail (.configuration (.generatorBusy g.state))
  else
    match g.tileSize, g.fileType, g.format with
    | some tileSize, some fileType, some format =>
      let image : PixelBox := .ofImage source.cols source.rows
      let crop := g.crop.elim image fun c => c.crop image
      if image.isEmpty || crop.isEmpty then .fail .emptyOutput
      else
        let info : PyramidInfo := {
          name := g.name
          fileType := fileType
          tileSize := tileSize
          maxLevel := maxLevelFor (max source.cols source.rows) tileSize
          cols := source.cols
          rows := source.rows }
        cut info format crop source
    | _, _, _ => .fail (.configuration .generatorIncomplete)

/-- The generator while it generates. -/
def start (g : Generator α) : Generator α := { g with state := .generating }

/-- The generator after generation has ended. -/
def finish (g : Generator α) (outcome : Except Error TileTree) : Generator α :=
  { g with state := if outcome.isOk then .complete else .configured }

/-- Generates with a writer. A refusal leaves the generator as it was. -/
def generate {m : Type → Type} [Monad m] (g : Generator α) (source : TileSource σ)
    (w : TileWriter m σ) (report : α → m Unit) : m (Except Error TileTree × Generator α) := do
  if g.state ≠ .configured then
    return (.error (.configuration (.generatorBusy g.state)), g)
  else
    let outcome ← (g.plan source).execute w report
    return (outcome, g.start.finish outcome)

end
end Generator
end TilePyramid
