/-!
# Ellipsoids and auxiliary latitudes

The latitudes that stand in for geodetic latitude on a sphere: the conformal colatitude, the
authalic latitude, and trigonometric series in the third flattening. Angles are in radians.
-/
namespace TilePyramid.Projection

def pi : Float := 3.141592653589793

def halfPi : Float := pi / 2

def tolerance : Float := 1e-10

/-- An ellipsoid of revolution: equatorial radius, squared eccentricity and eccentricity. -/
structure Ellipsoid where
  radius : Float
  es : Float
  e : Float

namespace Ellipsoid

def sphere (radius : Float) : Ellipsoid := ⟨radius, 0, 0⟩

def ofFlattening (radius reciprocal : Float) : Ellipsoid :=
  let f := 1 / reciprocal
  let es := f * (2 - f)
  ⟨radius, es, es.sqrt⟩

def isSphere (el : Ellipsoid) : Bool := el.es == 0

/-- The flattening as the difference of the radii over their sum. -/
def thirdFlattening (el : Ellipsoid) : Float :=
  let f := 1 - (1 - el.es).sqrt
  f / (2 - f)

/-- The radius of a parallel over the equatorial radius. -/
def parallelRadius (el : Ellipsoid) (phi : Float) : Float :=
  let s := phi.sin
  phi.cos / (1 - el.es * s * s).sqrt

/-- The factor by which eccentricity changes a conformal half angle. -/
def conformalFactor (el : Ellipsoid) (phi : Float) : Float :=
  let con := el.e * phi.sin
  ((1 - con) / (1 + con)).pow (0.5 * el.e)

/-- The tangent of half the conformal colatitude. -/
def halfColatitude (el : Ellipsoid) (phi : Float) : Float :=
  (0.5 * (halfPi - phi)).tan / el.conformalFactor phi

/-- Improves a geodetic latitude of given `t` until it moves less than the tolerance. The steps
bound the rounds. -/
def refineLatitude (el : Ellipsoid) (t : Float) : Nat → Float → Option Float
  | 0, _ => none
  | steps + 1, phi =>
    let next := halfPi - 2 * (t * el.conformalFactor phi).atan
    if (next - phi).abs ≤ tolerance then some next else refineLatitude el t steps next

/-- The geodetic latitude of half colatitude `t`. -/
def latitudeOfHalfColatitude (el : Ellipsoid) (t : Float) : Option Float :=
  refineLatitude el t 15 (halfPi - 2 * t.atan)

/-- The conformal latitude. -/
def conformalLatitude (el : Ellipsoid) (phi : Float) : Float :=
  2 * ((0.5 * (halfPi + phi)).tan * el.conformalFactor phi).atan - halfPi

/-- The area between the equator and a parallel, scaled. -/
def authalicArea (el : Ellipsoid) (phi : Float) : Float :=
  let s := phi.sin
  if el.isSphere then 2 * s
  else
    let con := el.e * s
    (1 - el.es) * (s / (1 - con * con) - (0.5 / el.e) * ((1 - con) / (1 + con)).log)

/-- The geodetic latitude of an authalic latitude, as a series in the squared eccentricity. -/
def latitudeOfAuthalic (el : Ellipsoid) (beta : Float) : Float :=
  let es := el.es
  let es2 := es * es
  let es3 := es2 * es
  beta +
    (es / 3 + es2 * (31 / 180) + es3 * (517 / 5040)) * (2 * beta).sin +
    (es2 * (23 / 360) + es3 * (251 / 3780)) * (4 * beta).sin +
    es3 * (761 / 45360) * (6 * beta).sin

end Ellipsoid

/-- The length of the hypotenuse. -/
def hypotenuse (x y : Float) : Float := (x * x + y * y).sqrt

/-- Adds multiples of a full turn until an angle lies within half a turn of zero. -/
def wrap (v : Float) : Float :=
  if v.abs < pi + 1e-12 then v
  else
    let shifted := v + pi
    shifted - 2 * pi * (shifted / (2 * pi)).floor - pi

def radians (degrees : Float) : Float := degrees * (pi / 180)

def degrees (radians : Float) : Float := radians * 57.29577951308232

/-- A projection of the unit body with its central meridian at zero, and its inverse. Both give
nothing outside of their domain. -/
structure PlaneMap where
  forward : Float → Float → Option (Float × Float)
  inverse : Float → Float → Option (Float × Float)

end TilePyramid.Projection
