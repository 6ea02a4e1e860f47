import TilePyramid.Georef.WorldFile
import TilePyramid.Source
import TilePyramid.Store.FileTree

/-!
# Image files

An image file may have a world file beside it, of the same stem. It places the image in degrees
on the Earth.
-/
namespace TilePyramid.ImageFile

open Decimal (OfLiteral)

/-- The extensions of the world files of an image, in the order they are looked for: first and
last letter and a `w`, the whole extension and a `w`, and `wld`. The letters are cut out as
single bytes, which an end of more bytes does not allow. -/
def worldExtensions (ext : String) : Except Error (List String) :=
  let e := Text.lower ext
  let always := [e ++ "w", "wld"]
  if e.utf8ByteSize < 2 then .ok always
  else
    match e.toList.head?, e.toList.getLast? with
    | some first, some last =>
      if first.utf8Size = 1 && last.utf8Size = 1 then
        .ok (String.ofList [first, last, 'w'] :: always)
      else .error (.extensionEnds e)
    | _, _ => .ok always

/-- Where the world file of an image may be. An image without an extension has none. -/
def worldPaths (path : Path) : Except Error (List Path) :=
  match path.extension? with
  | none => .ok []
  | some ext => (worldExtensions ext).map fun exts => exts.map path.withExtension

section
variable {σ : Type}

/-- The first world file that exists beside an image. -/
def worldFile? (t : FileTree σ) (path : Path) : Except Error (Option Path) :=
  (worldPaths path).map fun paths => paths.find? t.isFile

/-- The text of a file. -/
def readText (t : FileTree σ) (path : Path) : Except Error String := do
  match ← t.read path with
  | .text contents => return contents
  | .image _ | .unknown => .error (.io "stream did not contain valid UTF-8")

variable {α : Type} [Cartography α] [OfLiteral α] [Arith σ]

/-- The georeference of the world file beside an image, if there is one. -/
def georef? (t : FileTree σ) (path : Path) : Except Error (Option (GeoReference α)) := do
  match ← worldFile? t path with
  | none => return none
  | some world =>
    let transform ← WorldFile.read (← readText t world)
    return some (← GeoReference.ofDegrees transform .wgs84)

/-- Opens an image file. Its format is told by its contents. -/
def load (t : FileTree σ) (path : Path) : Except Error (Source α σ) := do
  match ← t.read path with
  | .text _ | .unknown => .error (.codec .undecodable)
  | .image encoded =>
    let georef ← georef? t path
    return { name := path.text, raster := .ofImage encoded.image, nodata := none, georef }

end
end TilePyramid.ImageFile
