import TilePyramid.Georef.Transform
import TilePyramid.Options.Basic
import TilePyramid.Raster.Adjustment
import TilePyramid.Raster.Sampling
import TilePyramid.Source

/-!
# Placements

An adjusted image with the way from canvas pixels back to its own. Only the box it covers is
worked out in advance; pixels are sampled when they are asked for.
-/
namespace TilePyramid

/-- A source with its resolved georeference, working channel and nodata value. -/
structure PlacementInput (α σ : Type) where
  source : Source α σ
  georef : GeoReference α
  channel : Channel
  nodata : Option σ

/-- `box` is in canvas pixels. Source positions are moved by `shift` before they are sampled. -/
structure Placement (α σ : Type) where
  name : String
  image : Raster σ
  transform : GridTransform α
  edge : EdgeMode
  shift : α × α
  box : PixelBox

section
variable {α σ : Type}

/-- The adjustments that the options ask for. -/
def Adjustments.ofOptions [Arith σ] (o : Options α σ) (range : Option (ValueRange σ)) :
    Adjustments σ where
  rescale :=
    if o.pixelScale.isSome || o.pixelOffset.isSome then
      some (o.pixelScale.getD (ofInt 1), o.pixelOffset.getD (ofInt 0))
    else none
  normalize := if o.normalize then range else none
  bands := none

variable [Cartography α] [Arith σ]

namespace Placement

/-- The image at the centre of canvas pixel `(x, y)`, counted from the corner of the box. -/
def sample [Narrow α σ] (p : Placement α σ) (x y : Int) : Pixel σ :=
  let half : α := ofInt 1 / ofInt 2
  match p.transform.reverse (ofInt (p.box.minX + x) + half, ofInt (p.box.minY + y) + half) with
  | none => .clear p.image.bands
  | some q => p.image.sample p.edge (q.1 + p.shift.1 - half) (q.2 + p.shift.2 - half)

/-- The whole box. -/
def materialize [Narrow α σ] (p : Placement α σ) : Raster σ :=
  .tabulate p.box.width.toNat p.box.height.toNat p.image.bands p.image.channel fun x y =>
    p.sample x y

/-- What part of the image diagonal the way there and back may miss the first corner by. -/
def driftTolerance : α := ofInt 1 / ofInt 100

/-- Where the first corner of the image comes back to, if that is too far off: the image crosses
a fault of the projection. -/
def fault? (t : GridTransform α) (cols rows : Nat) : Option (α × α) :=
  ((t.forward (ofInt 0, ofInt 0)).bind t.reverse).filter fun r =>
    let drift := Cartography.hypot r.1 r.2
    Arith.isFinite drift &&
      decide (driftTolerance * Cartography.hypot (ofInt cols) (ofInt rows) < drift)

/-- How the image continues past its edge, and how its positions are shifted. An image of the
whole globe closes on itself; one that crosses a fault is moved by whole columns. -/
def edgeAndShift (name : String) (t : GridTransform α) (global : Bool) (cols rows : Nat) :
    Except Error (EdgeMode × α × α) :=
  if global then .ok (.cylindrical, ofInt 0, ofInt 0)
  else
    match fault? t cols rows with
    | none => .ok (.zero, ofInt 0, ofInt 0)
    | some r =>
      if t.source.transform.isRotated then .error (.reprojection (.rotatedFault name))
      else .ok (.constant, -(Arith.trunc r.1), ofInt 0)

/-- Places one image on the canvas of `target`. The sides of its box are differences of indices of
64 bits, and a side that is longer than that has wrapped around. -/
def place (input : PlacementInput α σ) (target : GeoReference α) (adjustments : Adjustments σ) :
    Except Error (Placement α σ) := do
  let cols := input.source.cols
  let rows := input.source.rows
  let transform := GridTransform.between input.georef target
  let box := transform.forwardBox (.ofImage cols rows)
  let width := wrapIndex box.width
  let height := wrapIndex box.height
  if width ≤ 0 ∨ height ≤ 0 then
    .error (.reprojection (.degenerate input.source.name width height))
  else
    let (edge, shift) ←
      edgeAndShift input.source.name transform (input.georef.isGlobal cols rows) cols rows
    return {
      name := input.source.name
      image := adjustments.apply input.source.raster ⟨input.channel, input.nodata⟩
      transform, edge, shift, box }

/-- Places every image, in order. -/
def placeAll (inputs : List (PlacementInput α σ)) (target : GeoReference α)
    (adjustments : Adjustments σ) : Except Error (List (Placement α σ)) :=
  inputs.mapM fun i => place i target adjustments

/-- The inputs that are images of the whole globe. -/
def globalInputs (inputs : List (PlacementInput α σ)) : List (PlacementInput α σ) :=
  inputs.filter fun i => i.georef.isGlobal i.source.cols i.source.rows

end Placement
end
end TilePyramid
