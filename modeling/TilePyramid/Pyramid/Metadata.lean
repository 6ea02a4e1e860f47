import TilePyramid.Pyramid.Kml

/-!
# Metadata files

What each viewer reads beside the tiles.
-/
namespace TilePyramid

/-- The media type of a tile. -/
def mimeType (fileType : String) : String :=
  let name := Text.lower fileType
  if name = "jpg" || name = "jpeg" then "image/jpeg" else "image/png"

namespace PyramidInfo

/-- One tile set per level, with the image pixels that one tile pixel covers. -/
def tileSetText (p : PyramidInfo) (level : Nat) : String :=
  s!"    <TileSet href=\"{level}\" units-per-pixel=\"{1 <<< (p.maxLevel - level)}\"" ++
    s!" order=\"{level}\"/>\n"

def tileMapText (p : PyramidInfo) : String :=
  "<?xml version=\"1.0\" encoding=\"UTF-8\"?>\n" ++
    "<TileMap version=\"1.0.0\" tilemapservice=\"http://tms.osgeo.org/1.0.0\">\n" ++
    s!"  <Title>{Text.xml p.stem}</Title>\n" ++ "  <SRS>EPSG:4326</SRS>\n" ++
    s!"  <TileFormat width=\"{p.tileSize}\" height=\"{p.tileSize}\"" ++
    s!" mime-type=\"{mimeType p.fileType}\" extension=\"{Text.xml p.fileType}\"/>\n" ++
    "  <TileSets>\n" ++ String.join ((List.range (p.maxLevel + 1)).map p.tileSetText) ++
    "  </TileSets>\n</TileMap>\n"

def univiewText (p : PyramidInfo) (moduleName : String) (terrain : Bool) : String :=
  s!"[Module]\nname = {moduleName}\ntexture = {p.stem}\nlevels = {p.maxLevel + 1}\n" ++
    s!"tile_size = {p.tileSize}\nfile_type = {p.fileType}\nterrain = {terrain}\n"

def celestiaText (p : PyramidInfo) : String :=
  "VirtualTexture\n\x7b\n" ++ s!"        ImageDirectory \"{p.stem}\"\n" ++
    "        BaseSplit 0\n" ++ s!"        TileSize {p.tileSize}\n" ++
    s!"        TileType \"{p.fileType}\"\n" ++ "\x7d\n"

def gigapanText {α : Type} [NumberText α] (p : PyramidInfo) (extent : DegreeBox α) : String :=
  let n : α → String := NumberText.metadata
  "\x7b\n" ++ s!"  \"name\": {Text.json p.stem},\n" ++ s!"  \"width\": {p.cols},\n" ++
    s!"  \"height\": {p.rows},\n" ++ s!"  \"tile_size\": {p.tileSize},\n" ++
    s!"  \"levels\": {p.maxLevel + 1},\n" ++ s!"  \"file_type\": {Text.json p.fileType},\n" ++
    "  \"bbox\": \x7b\n" ++ s!"    \"west\": {n extent.west},\n" ++
    s!"    \"south\": {n extent.south},\n" ++ s!"    \"east\": {n extent.east},\n" ++
    s!"    \"north\": {n extent.north}\n" ++ "  \x7d\n\x7d"

end PyramidInfo

/-- The metadata files of a finished tree, in the order they are written. -/
def Format.metadata {α : Type} [Arith α] [NumberText α] (f : Format α) (info : PyramidInfo)
    (root : TileTree) : Except ConfigFault (List (Path × String)) :=
  match f.mode with
  | .plain | .gmap => .ok []
  | .kml =>
    f.requireExtent.map fun extent =>
      Kml.files info extent (f.maxLodPixels.getD (-1)) f.drawOrderOffset root
  | .tms => .ok [(info.below ["tilemapresource.xml"], info.tileMapText)]
  | .uniview =>
    f.requireModule.map fun name =>
      [(info.beside (name ++ ".conf"), info.univiewText name f.terrain)]
  | .celestia =>
    f.requireModule.map fun name => [(info.beside (name ++ ".ctx"), info.celestiaText)]
  | .gigapan =>
    f.requireExtent.map fun extent =>
      [(info.beside (info.stem ++ ".json"), info.gigapanText extent)]

end TilePyramid
