import TilePyramid.Proofs.TreeOrder
import TilePyramid.Pyramid.Kml

/-!
# Documents, line by line

The text of a document is put together from blocks: boxes within regions, regions within links. The
lines of a document have each of its entries between the tags it belongs to. Main statement: the
files of a super-overlay are the lines of its documents, one document for every node and the entry
document after them.
-/
namespace TilePyramid

namespace Text

/-- A text of lines, each with its end. -/
def ofLines (lines : List String) : String := String.join (lines.map (· ++ "\n"))

theorem ofLines_append (l m : List String) : ofLines (l ++ m) = ofLines l ++ ofLines m := by
  rw [ofLines, List.map_append, String.join_append]
  rfl

theorem ofLines_flatMap {β : Type} (f : β → List String) (l : List β) :
    ofLines (l.flatMap f) = String.join (l.map fun b => ofLines (f b)) := by
  induction l with
  | nil => rfl
  | cons b l ih => rw [List.flatMap_cons, ofLines_append, ih, List.map_cons, String.join_cons]

end Text

namespace Kml

section
variable {α : Type} [NumberText α]

/-- The edges of a box, as they stand between its tags. -/
def edgesText (b : DegreeBox α) : String :=
  "<north>" ++ NumberText.plain b.north ++ "</north><south>" ++ NumberText.plain b.south ++
    "</south><east>" ++ NumberText.plain b.east ++ "</east><west>" ++ NumberText.plain b.west ++
    "</west>"

def boxElement (tag : String) (b : DegreeBox α) : String :=
  "<" ++ tag ++ ">" ++ edgesText b ++ "</" ++ tag ++ ">"

def Region.lines (indent : String) (r : Region α) : List String :=
  [indent ++ "<Region>",
    indent ++ "  " ++ boxElement "LatLonAltBox" r.box,
    indent ++ "  <Lod><minLodPixels>" ++ toString r.minLod ++ "</minLodPixels><maxLodPixels>" ++
      toString r.maxLod ++ "</maxLodPixels></Lod>",
    indent ++ "</Region>"]

def Link.lines (l : Link α) : List String :=
  ["  <NetworkLink>", "    <name>" ++ l.name ++ "</name>"] ++ l.region.lines "    " ++
    ["    <Link><href>" ++ l.href ++
        "</href><viewRefreshMode>onRegion</viewRefreshMode></Link>",
      "  </NetworkLink>"]

def Overlay.lines (o : Overlay α) : List String :=
  ["  <GroundOverlay>",
    "    <drawOrder>" ++ toString o.drawOrder.toNat ++ "</drawOrder>",
    "    <Icon><href>" ++ o.icon ++ "</href></Icon>",
    "    " ++ boxElement "LatLonBox" o.box,
    "  </GroundOverlay>"]

/-- A document around the lines of what it says. -/
def framed (lines : List String) : List String :=
  ["<?xml version=\"1.0\" encoding=\"UTF-8\"?>",
    "<kml xmlns=\"http://www.opengis.net/kml/2.2\">", "<Document>"] ++ lines ++
    ["</Document>", "</kml>"]

def Document.lines (d : Document α) : List String :=
  framed (d.region.lines "  " ++ d.links.flatMap Link.lines ++ d.overlay.lines)

def Entry.lines (e : Entry α) : List String :=
  framed (["  <name>" ++ e.name ++ "</name>"] ++ e.link.lines)

private theorem toString_self (text : String) : toString text = text := rfl

theorem boxText_eq (tag indent : String) (b : DegreeBox α) :
    boxText tag indent b = indent ++ boxElement tag b ++ "\n" := by
  have hnorth : "><north>" = ">" ++ "<north>" := by decide
  have heast : "</south><east>" = "</south>" ++ "<east>" := by decide
  have hwest : "</west></" = "</west>" ++ "</" := by decide
  have hend : ">\n" = ">" ++ "\n" := by decide
  simp only [boxText, boxElement, edgesText, toString_self, String.append_assoc, hnorth, heast,
    hwest, hend]

theorem Region.text_eq (indent : String) (r : Region α) :
    r.text indent = Text.ofLines (r.lines indent) := by
  have hlod (rest : String) : "</minLodPixels>" ++ ("<maxLodPixels>" ++ rest) =
      "</minLodPixels><maxLodPixels>" ++ rest := by
    rw [← String.append_assoc]
    rfl
  simp [Region.text, Region.lines, boxText_eq, Text.ofLines, toString_self, String.append_assoc,
    hlod]

theorem Link.text_eq (l : Link α) : l.text = Text.ofLines l.lines := by
  unfold Link.text
  rw [Link.lines, Text.ofLines_append, Text.ofLines_append, Region.text_eq]
  simp [Text.ofLines, toString_self, String.append_assoc]

theorem Overlay.text_eq (o : Overlay α) :
    "  <GroundOverlay>\n" ++ s!"    <drawOrder>{o.drawOrder.toNat}</drawOrder>\n" ++
        s!"    <Icon><href>{o.icon}</href></Icon>\n" ++ boxText "LatLonBox" "    " o.box ++
        "  </GroundOverlay>\n" = Text.ofLines o.lines := by
  simp [boxText_eq, Overlay.lines, Text.ofLines, toString_self, String.append_assoc]

theorem framed_text (lines : List String) :
    opening ++ Text.ofLines lines ++ closing = Text.ofLines (framed lines) := by
  rw [framed, Text.ofLines_append, Text.ofLines_append]
  have hopening : opening = Text.ofLines ["<?xml version=\"1.0\" encoding=\"UTF-8\"?>",
      "<kml xmlns=\"http://www.opengis.net/kml/2.2\">", "<Document>"] := by decide +kernel
  have hclosing : closing = Text.ofLines ["</Document>", "</kml>"] := by decide +kernel
  rw [hopening, hclosing]

theorem Document.text_eq (d : Document α) : d.text = Text.ofLines d.lines := by
  have hlinks : d.links.map Link.text = d.links.map fun l => Text.ofLines l.lines :=
    List.map_congr_left fun l _ => l.text_eq
  rw [Document.lines, ← framed_text, Text.ofLines_append, Text.ofLines_append,
    Text.ofLines_flatMap, ← Overlay.text_eq, Document.text, hlinks, Region.text_eq]
  simp only [String.append_assoc]

theorem Entry.text_eq (e : Entry α) : e.text = Text.ofLines e.lines := by
  rw [Entry.lines, ← framed_text, Text.ofLines_append, Entry.text, Link.text_eq]
  simp [Text.ofLines, toString_self, String.append_assoc]

end

/-- The path of the document of a tile. -/
def documentPath (info : PyramidInfo) (t : Tile) : Path := info.below [documentName t]

def entryPath (info : PyramidInfo) : Path := info.beside (info.stem ++ ".kml")

/-- The files of a super-overlay are the lines of one document for every node, and behind them those
of the entry document. -/
theorem files_eq {α : Type} [Arith α] [NumberText α] (info : PyramidInfo) (extent : DegreeBox α)
    (maxLod : Int) (offset : UInt32) (root : TileTree) :
    files info extent maxLod offset root =
      (root.preorder.map fun n => (documentPath info n.value,
        Text.ofLines (document info extent maxLod offset n).lines)) ++
        [(entryPath info, Text.ofLines (entry info extent root).lines)] := by
  simp only [files, Tree.walk_eq_preorder, Document.text_eq, Entry.text_eq]
  rfl

end Kml
end TilePyramid
