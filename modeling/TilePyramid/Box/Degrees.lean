import TilePyramid.Arith
import TilePyramid.Box.Pixel

/-!
# Boxes in degrees

Longitude and latitude rectangles, and the two ways pixels are labelled with them: against the
square canvas of 360 by 360 degrees, and linearly within an image of known extent.
-/
namespace TilePyramid

structure DegreeBox (α : Type) where
  west : α
  south : α
  east : α
  north : α

namespace DegreeBox

variable {α : Type} [Arith α]

/-- The degrees a pixel box covers on a canvas whose columns span a full turn from -180 and
whose rows span 360 degrees down from 180. -/
def ofCanvas (b : PixelBox) (cols rows : Int) : DegreeBox α where
  west := ofInt (-180) + ofInt 360 * ofInt b.minX / ofInt cols
  south := ofInt 180 - ofInt 360 * ofInt b.maxY / ofInt rows
  east := ofInt (-180) + ofInt 360 * ofInt b.maxX / ofInt cols
  north := ofInt 180 - ofInt 360 * ofInt b.minY / ofInt rows

def width (d : DegreeBox α) : α := d.east - d.west

def height (d : DegreeBox α) : α := d.north - d.south

/-- The degrees a pixel box covers within an image of `cols` by `rows` pixels that spans `d`. -/
def within (d : DegreeBox α) (b : PixelBox) (cols rows : Int) : DegreeBox α where
  west := d.west + d.width * ofInt b.minX / ofInt cols
  south := d.north - d.height * ofInt b.maxY / ofInt rows
  east := d.west + d.width * ofInt b.maxX / ofInt cols
  north := d.north - d.height * ofInt b.minY / ofInt rows

end DegreeBox
end TilePyramid
