import TilePyramid.Decimal.Text
import TilePyramid.Pyramid.Format

/-!
# Super-overlays

A super-overlay has one document per tile. It shows the tile over its region and links to the
documents of the tiles below, each loaded once its own region is large enough on screen; an
entry document links to the first tile.
-/
namespace TilePyramid.Kml

/-- A box in degrees, shown while its size on screen is between two numbers of pixels; -1 stands
for no limit. -/
structure Region (α : Type) where
  box : DegreeBox α
  minLod : Int
  maxLod : Int

/-- A document to load when its region comes into view. -/
structure Link (α : Type) where
  name : String
  region : Region α
  href : String

/-- An image over a box in degrees; higher draw orders lie on top. -/
structure Overlay (α : Type) where
  drawOrder : UInt32
  icon : String
  box : DegreeBox α

/-- The document of one tile. -/
structure Document (α : Type) where
  region : Region α
  links : List (Link α)
  overlay : Overlay α

/-- The document that leads to the first tile. -/
structure Entry (α : Type) where
  name : String
  link : Link α

/-- The name of a tile's document. -/
def documentName (t : Tile) : String := s!"{t.stem}.kml"

section
variable {α : Type} [Arith α]

/-- The degrees of a tile. -/
def tileBox (info : PyramidInfo) (extent : DegreeBox α) (t : Tile) : DegreeBox α :=
  extent.within t.box info.cols info.rows

/-- A tile gives way to finer ones at half its size. -/
def minLod (info : PyramidInfo) : Int := (info.tileSize / 2 : Nat)

def childLink (info : PyramidInfo) (extent : DegreeBox α) (child : Tile) : Link α where
  name := child.path
  region := ⟨tileBox info extent child, minLod info, -1⟩
  href := documentName child

/-- The document of a node. A tile without finer ones stays at any size. -/
def document (info : PyramidInfo) (extent : DegreeBox α) (maxLod : Int) (drawOrderOffset : UInt32)
    (node : TileTree) : Document α where
  region :=
    ⟨tileBox info extent node.value, minLod info, if node.isLeaf then -1 else maxLod⟩
  links := node.children.map fun c => childLink info extent c.value
  overlay := {
    drawOrder := .ofNat node.value.level + drawOrderOffset
    icon := s!"{node.value.stem}.{info.fileType}"
    box := tileBox info extent node.value }

def entry (info : PyramidInfo) (extent : DegreeBox α) (root : TileTree) : Entry α :=
  let stem := Text.xml info.stem
  { name := stem
    link := {
      name := stem
      region := ⟨tileBox info extent root.value, 1, -1⟩
      href := stem ++ "/root.kml" } }

end

section
variable {α : Type} [NumberText α]

def boxText (tag indent : String) (b : DegreeBox α) : String :=
  let n : α → String := NumberText.plain
  s!"{indent}<{tag}><north>{n b.north}</north><south>{n b.south}</south>" ++
    s!"<east>{n b.east}</east><west>{n b.west}</west></{tag}>\n"

def Region.text (indent : String) (r : Region α) : String :=
  indent ++ "<Region>\n" ++ boxText "LatLonAltBox" (indent ++ "  ") r.box ++
    s!"{indent}  <Lod><minLodPixels>{r.minLod}</minLodPixels>" ++
    s!"<maxLodPixels>{r.maxLod}</maxLodPixels></Lod>\n" ++ indent ++ "</Region>\n"

def Link.text (l : Link α) : String :=
  "  <NetworkLink>\n" ++ s!"    <name>{l.name}</name>\n" ++ l.region.text "    " ++
    s!"    <Link><href>{l.href}</href><viewRefreshMode>onRegion</viewRefreshMode></Link>\n" ++
    "  </NetworkLink>\n"

def opening : String :=
  "<?xml version=\"1.0\" encoding=\"UTF-8\"?>\n" ++
    "<kml xmlns=\"http://www.opengis.net/kml/2.2\">\n<Document>\n"

def closing : String := "</Document>\n</kml>\n"

def Document.text (d : Document α) : String :=
  opening ++ d.region.text "  " ++ String.join (d.links.map Link.text) ++
    "  <GroundOverlay>\n" ++ s!"    <drawOrder>{d.overlay.drawOrder.toNat}</drawOrder>\n" ++
    s!"    <Icon><href>{d.overlay.icon}</href></Icon>\n" ++
    boxText "LatLonBox" "    " d.overlay.box ++ "  </GroundOverlay>\n" ++ closing

def Entry.text (e : Entry α) : String :=
  opening ++ s!"  <name>{e.name}</name>\n" ++ e.link.text ++ closing

end

section
variable {α : Type} [Arith α] [NumberText α]

/-- The documents of the tree, parents first, and the entry document last. -/
def files (info : PyramidInfo) (extent : DegreeBox α) (maxLod : Int) (drawOrderOffset : UInt32)
    (root : TileTree) : List (Path × String) :=
  (root.walk.map fun node =>
    (info.below [documentName node.value],
      (document info extent maxLod drawOrderOffset node).text)) ++
    [(info.beside (info.stem ++ ".kml"), (entry info extent root).text)]

end
end TilePyramid.Kml
