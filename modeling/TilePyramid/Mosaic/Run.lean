import TilePyramid.Box.Cell
import TilePyramid.Mosaic.Composite
import TilePyramid.Mosaic.Resolution
import TilePyramid.Pyramid.Generator
import TilePyramid.Pyramid.Viewer

/-!
# Runs

A run checks its options, places every source on the canvas, and cuts the composite into a
pyramid. A plain run cuts its one source as it is. What a run writes is a plan, and nothing is
written before every source has been placed.
-/
namespace TilePyramid

/-- What a run made: the tree of its tiles, the tiled box, the box of the data within it with
the degrees it covers, the pixels of a full turn, and the number of layers. A plain run has no
canvas, and its boxes are that of the image. -/
structure Summary (α : Type) where
  root : TileTree
  aligned : PixelBox
  data : PixelBox
  dataDegrees : DegreeBox α
  total : Option Int
  layers : Nat

namespace Mosaic

/-- The part of the progress that goes to the composite. -/
def prepareShare {α : Type} [Arith α] : α := ofInt 5 / ofInt 100

section
variable {α σ : Type} [Arith α] [NumberText α]

/-- The options, checked and filled in. Sources that no file is named for stand for files of
their own names. -/
def checkedOptions (o : Options α σ) (sources : List (Source α σ)) :
    Except Error (Options α σ) :=
  let files := if o.inputFiles.isEmpty then sources.map fun s => ⟨s.name⟩ else o.inputFiles
  match { o with inputFiles := files }.validate with
  | (_, some fault) => .error (.configuration fault)
  | (checked, none) =>
    if checked.inputFiles.length = sources.length then .ok checked
    else .error (.configuration (.sourceCount checked.inputFiles.length sources.length))

/-- Normalization needs the range of the values. -/
def checkRange (o : Options α σ) (range : Option (ValueRange σ)) : Except Error Unit :=
  if o.normalize && range.isNone then .error (.configuration .noValueRange) else .ok ()

end

section
variable {α σ : Type} [Cartography α] [Arith σ]

/-- Cuts an image into a pyramid as the options ask for. -/
def treePlan (o : Options α σ) (image : TileSource σ) (settings : ViewerSettings α)
    (crop : PixelBox) : Plan α σ TileTree :=
  let generator : Generator α := .new o.name
  let ready := generator.setTileSize o.tileSize |>.setFileType o.outputFileType |>.setCrop crop
    |>.setFormat settings.format
  ready.plan image

/-- A source with its georeference and the channel and nodata value to work with. -/
def placementInput (o : Options α σ) (channel : Channel) (s : Source α σ) (g : GeoReference α) :
    PlacementInput α σ where
  source := s
  georef := g
  channel := channel
  nodata := o.nodata.or s.nodata

/-- The run of one source without a canvas. -/
def plainPlan (o : Options α σ) (s : Source α σ) (range : Option (ValueRange σ)) :
    Plan α σ (Summary α) := do
  let _ ← Plan.ofExcept (Resolution.orGlobe s s.georef)
  let target : Adjustments.Target σ := ⟨o.channel.getD s.raster.channel, o.nodata.or s.nodata⟩
  let image := (Adjustments.ofOptions o range).apply s.raster target
  let box : PixelBox := .ofImage s.cols s.rows
  let settings ← Plan.ofExcept
    ((ViewerSettings.ofOptions o GeoReference.globe).mapError Error.configuration)
  let root ← treePlan o image.tileSource settings box
  return {
    root
    aligned := box
    data := box
    dataDegrees := GeoReference.globe
    total := none
    layers := 1 }

/-- The adjustments of a run. One source with three bands makes all of them have three. -/
def adjustments (o : Options α σ) (sources : List (Source α σ)) (range : Option (ValueRange σ)) :
    Adjustments σ :=
  let asked := Adjustments.ofOptions o range
  if sources.any fun s => s.raster.bands = 3 then { asked with bands := some 3 } else asked

/-- The channel a run works in: that of the options, or that of the first source. -/
def workChannel (o : Options α σ) (sources : List (Source α σ)) : Channel :=
  o.channel.getD ((sources.head?.map fun s => s.raster.channel).getD .u8)

/-- Every source placed on the canvas. -/
def placements (o : Options α σ) (sources : List (Source α σ)) (r : Resolution α)
    (range : Option (ValueRange σ)) : Except Error (List (Placement α σ)) :=
  Placement.placeAll
    ((sources.zip r.inputs).map fun i => placementInput o (workChannel o sources) i.1 i.2)
    r.canvas (adjustments o sources range)

/-- The placed sources in layers, in order. -/
def compose (o : Options α σ) (r : Resolution α) (ps : List (Placement α σ)) : Composite α σ :=
  ps.foldl (fun c p => c.insertWrapped p r.total r.cols) (.empty !o.multiband)

/-- The box of the output on the canvas. -/
def outputBox (o : Options α σ) (r : Resolution α) (c : Composite α σ) :
    Except Error PixelBox :=
  c.box.align r.total r.cols r.rows o.mode.wholeCells

variable [Narrow α σ]

/-- The run of sources on a canvas. -/
def mosaicPlan (o : Options α σ) (sources : List (Source α σ)) (range : Option (ValueRange σ)) :
    Plan α σ (Summary α) := do
  let r ← Plan.ofExcept (Resolution.resolve o sources)
  let placed ← Plan.ofExcept (placements o sources r range)
  let composite := compose o r placed
  let aligned ← Plan.ofExcept (outputBox o r composite)
  let view ← Plan.ofExcept (composite.prepare aligned)
  Plan.within (ofInt 0) prepareShare (Plan.report (ofInt 1))
  if view.cols = 0 || view.rows = 0 then Plan.fail .emptyOutput
  else
    let data := view.box.crop (.ofImage view.cols view.rows)
    let onCanvas := data.translate aligned.minX aligned.minY
    let settings ← Plan.ofExcept
      ((ViewerSettings.ofOptions o (.ofCanvas aligned r.cols r.rows)).mapError
        Error.configuration)
    let root ← Plan.within prepareShare (ofInt 1) (treePlan o view.tileSource settings data)
    return {
      root
      aligned
      data
      dataDegrees := .ofCanvas onCanvas r.cols r.rows
      total := some r.total
      layers := composite.layers.length }

/-- The run that options ask for. -/
def plan (o : Options α σ) (sources : List (Source α σ)) (range : Option (ValueRange σ)) :
    Plan α σ (Summary α) := do
  let checked ← Plan.ofExcept (checkedOptions o sources)
  let _ ← Plan.ofExcept (checkRange checked range)
  match checked.isPlain, sources with
  | true, s :: _ => plainPlan checked s range
  | _, _ => mosaicPlan checked sources range

/-- The plain run of one source, whatever its mode. -/
def planPlain (o : Options α σ) (s : Source α σ) (range : Option (ValueRange σ)) :
    Plan α σ (Summary α) := do
  let checked ← Plan.ofExcept (checkedOptions o [s])
  let _ ← Plan.ofExcept (checkRange checked range)
  plainPlan checked s range

/-- The warnings of a run: one for each source taken to be the whole globe. Plain runs, and runs
whose georeferences cannot be resolved, have none. -/
def warnings (o : Options α σ) (sources : List (Source α σ)) : List String :=
  match checkedOptions o sources with
  | .error _ => []
  | .ok checked =>
    if checked.isPlain then []
    else
      match Resolution.resolve checked sources with
      | .error _ => []
      | .ok r => r.assumed.map Resolution.assumedWarning

end
end Mosaic
end TilePyramid
