import TilePyramid.Mosaic.Placement
import TilePyramid.Pyramid.Rendering

/-!
# Composites

Placed images in layers on one canvas. A region is painted layer by layer: in draft mode a later
layer hides what is below it, otherwise colours are averaged by alpha and the largest alpha is
kept. Once a view is set, every coordinate is relative to it.
-/
namespace TilePyramid

/-- A placed image with its corner at canvas pixel `(x, y)`. -/
structure Layer (α σ : Type) where
  placement : Placement α σ
  x : Int
  y : Int

/-- The pixels a layer covers. -/
def Layer.box {α σ : Type} (l : Layer α σ) : PixelBox :=
  .ofSize l.x l.y l.placement.box.width l.placement.box.height

structure Composite (α σ : Type) where
  layers : List (Layer α σ)
  draft : Bool
  view : Option PixelBox
  bands : Nat
  channel : Channel

/-- The sum of weighted colours at one pixel, the sum of the weights, and the largest alpha. -/
structure Blended (σ : Type) where
  colour : List σ
  weight : σ
  alpha : σ

namespace Blended

variable {σ : Type} [Arith σ]

def clear (bands : Nat) : Blended σ := ⟨List.replicate bands (ofInt 0), ofInt 0, ofInt 0⟩

def add (b : Blended σ) (p : Pixel σ) : Blended σ :=
  ⟨List.zipWith (fun c v => c + v * p.alpha) b.colour p.colour, b.weight + p.alpha,
    Arith.greater b.alpha p.alpha⟩

def pixel (b : Blended σ) : Pixel σ :=
  ⟨if ofInt 0 < b.weight then b.colour.map (· / b.weight) else b.colour, b.alpha⟩

end Blended

namespace Composite

variable {α σ : Type}

def empty (draft : Bool) : Composite α σ where
  layers := []
  draft := draft
  view := none
  bands := 3
  channel := .u8

/-- Puts a layer on top. The first one settles the bands and the channel. -/
def insert (c : Composite α σ) (p : Placement α σ) (x y : Int) : Composite α σ :=
  if c.layers.isEmpty then
    { c with layers := [⟨p, x, y⟩], bands := p.image.bands, channel := p.image.channel }
  else { c with layers := c.layers ++ [⟨p, x, y⟩] }

/-- Where a placed image goes: one turn to the left if it reaches past the end of the turn, and
at its own place if it starts on the canvas. -/
def wrappedColumns (box : PixelBox) (total cols : Int) : List Int :=
  (if total < box.maxX then [box.minX - total] else []) ++
    if box.minX < cols then [box.minX] else []

/-- Puts a placed image on top wherever it goes. -/
def insertWrapped (c : Composite α σ) (p : Placement α σ) (total cols : Int) :
    Composite α σ :=
  (wrappedColumns p.box total cols).foldl (fun c x => c.insert p x p.box.minY) c

/-- The canvas pixel that counts as the first one. -/
def origin (c : Composite α σ) : Int × Int :=
  match c.view with
  | none => (0, 0)
  | some v => (v.minX, v.minY)

/-- The smallest box around all layers. -/
def box (c : Composite α σ) : PixelBox :=
  match c.layers with
  | [] => .empty
  | l :: ls =>
    (ls.foldl (fun b l => b.union l.box) l.box).translate (-c.origin.1) (-c.origin.2)

/-- Sets the view. -/
def prepare (c : Composite α σ) (view : PixelBox) : Except Error (Composite α σ) :=
  if view.isEmpty then .error .emptyOutput else .ok { c with view := some view }

/-- The box of the image: the view, or all layers as long as there is none. -/
def extent (c : Composite α σ) : PixelBox := c.view.getD c.box

/-- The columns of the image, if 32 bits can count them. -/
def cols (c : Composite α σ) : Nat := c.extent.width.toNat

/-- The rows of the image, if 32 bits can count them. -/
def rows (c : Composite α σ) : Nat := c.extent.height.toNat

/-- The canvas pixels of a region. -/
def canvasBox (c : Composite α σ) (region : PixelBox) : PixelBox :=
  region.translate c.origin.1 c.origin.2

/-- No layer that meets the region has more bands than the composite. -/
def isReadable (c : Composite α σ) (region : PixelBox) : Bool :=
  c.layers.all fun l =>
    l.placement.image.bands ≤ c.bands || (l.box.inter? (c.canvasBox region)).isNone

/-- Every leaf of a tree can be read. Generation breaks off at a leaf that cannot. -/
def canBeCut (c : Composite α σ) (root : TileTree) : Bool :=
  root.preorder.all fun n => !n.isLeaf || c.isReadable n.value.box

variable [Cartography α] [Arith σ] [Narrow α σ]

/-- The layer at a canvas pixel. A layer with too few bands shows nothing. -/
def layerPixel (c : Composite α σ) (l : Layer α σ) (x y : Int) : Pixel σ :=
  if l.placement.image.bands < c.bands then .clear c.bands
  else l.placement.sample (x - l.x) (y - l.y)

/-- Paints one layer onto the cells of a canvas box, row by row, wherever it is not clear. -/
def paint {β : Type} (c : Composite α σ) (put : β → Pixel σ → β) (canvas : PixelBox)
    (cells : Array β) (l : Layer α σ) : Array β :=
  match l.box.inter? canvas with
  | none => cells
  | some overlap =>
    (List.range overlap.height.toNat).foldl (fun cells (dy : Nat) =>
      (List.range overlap.width.toNat).foldl (fun cells (dx : Nat) =>
        let x := overlap.minX + dx
        let y := overlap.minY + dy
        let p := c.layerPixel l x y
        if p.alpha ≤ ofInt 0 then cells
        else
          let column := (x - canvas.minX).toNat
          let row := (y - canvas.minY).toNat
          cells.modify (row * canvas.width.toNat + column) fun b => put b p) cells) cells

/-- Paints all layers, from the first to the last. -/
def paintAll {β : Type} (c : Composite α σ) (put : β → Pixel σ → β) (start : β)
    (canvas : PixelBox) : Array β :=
  c.layers.foldl (c.paint put canvas)
    (.replicate (canvas.width.toNat * canvas.height.toNat) start)

/-- The pixels of a region. This is what a read gives as long as no count is cut. -/
def region (c : Composite α σ) (region : PixelBox) : Raster σ :=
  let canvas := c.canvasBox region
  { width := region.width.toNat
    height := region.height.toNat
    bands := c.bands
    channel := c.channel
    pixels :=
      if c.draft then c.paintAll (fun _ p => p) (.clear c.bands) canvas
      else (c.paintAll Blended.add (.clear c.bands) canvas).map Blended.pixel }

/-- The pixels that a layer puts on a canvas box with their places, row by row: all but the clear
ones. -/
def strokes (c : Composite α σ) (canvas : PixelBox) (l : Layer α σ) :
    List ((Int × Int) × Pixel σ) :=
  match l.box.wrap.inter? canvas with
  | none => []
  | some overlap =>
    (overlap.places.map fun place => (place, c.layerPixel l place.1 place.2)).filter fun s =>
      ¬ s.2.alpha ≤ ofInt 0

/-- Puts a pixel onto cells in rows of `width`, at its place counted in 32 bits from the corner of a
canvas box, if there is a cell. -/
def stroke? {β : Type} (put : β → Pixel σ → β) (canvas : PixelBox) (width : Nat)
    (cells : Array β) (s : (Int × Int) × Pixel σ) : Option (Array β) :=
  update? cells (toWord (s.1.2 - canvas.minY) * width + toWord (s.1.1 - canvas.minX)) fun b =>
    put b s.2

/-- Paints one layer onto cells in rows of `width`. -/
def paint? {β : Type} (c : Composite α σ) (put : β → Pixel σ → β) (canvas : PixelBox)
    (width : Nat) (cells : Array β) (l : Layer α σ) : Option (Array β) :=
  (c.strokes canvas l).foldlM (stroke? put canvas width) cells

/-- A layer that meets a canvas box has more bands than the composite. -/
def hasMoreBands (c : Composite α σ) (canvas : PixelBox) : Bool :=
  c.layers.any fun l =>
    c.bands < l.placement.image.bands && (l.box.wrap.inter? canvas).isSome

/-- Reads a region into a raster with sides of 32 bits, layer by layer. A longer side is cut, so
that places of the canvas may share a cell or have none, and then the read breaks off. It breaks
off too if there cannot be a buffer, or if a layer in the region has more bands than the composite.
Places are counted in 64 bits. -/
def read? (c : Composite α σ) (region : PixelBox) : Option (Raster σ) :=
  let canvas := (c.canvasBox region).wrap
  let width := region.wordCols
  let height := region.wordRows
  let filled (pixels : Array (Pixel σ)) : Raster σ :=
    { width := width, height := height, bands := c.bands, channel := c.channel, pixels := pixels }
  let paintAll? {β : Type} (put : β → Pixel σ → β) (start : β) : Option (Array β) :=
    c.layers.foldlM (c.paint? put canvas width) (.replicate (width * height) start)
  if !Raster.hasBuffer width height c.bands then none
  else if width = 0 ∨ height = 0 then some (filled #[])
  else if c.hasMoreBands canvas then none
  else if c.draft then (paintAll? (fun _ p => p) (.clear c.bands)).map filled
  else (paintAll? Blended.add (.clear c.bands)).map fun cells => filled (cells.map Blended.pixel)

def tileSource (c : Composite α σ) : TileSource σ where
  cols := c.cols
  rows := c.rows
  bands := c.bands
  channel := c.channel
  region := c.region

end Composite
end TilePyramid
