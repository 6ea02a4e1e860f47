import TilePyramid.Georef.Projection.Ellipsoid

/-!
# Cylindrical projections

The equidistant projection, which spaces parallels evenly, and the Mercator projection, which
keeps angles.
-/
namespace TilePyramid.Projection

/-- Spherical, with true scale at a parallel of this cosine, counted from latitude `phi0`. -/
def equidistant (cosTrueScale phi0 : Float) : PlaneMap where
  forward lam phi := some (lam * cosTrueScale, phi - phi0)
  inverse x y := some (x / cosTrueScale, y + phi0)

/-- Mercator with scale `k0` at the equator. The poles have no image. -/
def mercator (el : Ellipsoid) (k0 : Float) : PlaneMap where
  forward lam phi :=
    if (phi.abs - halfPi).abs ≤ tolerance then none
    else some (k0 * lam, k0 * (phi.tan.asinh - el.e * (el.e * phi.sin).atanh))
  inverse x y :=
    if el.isSphere then some (x / k0, (y / k0).sinh.atan)
    else (el.latitudeOfHalfColatitude (-y / k0).exp).map fun phi => (x / k0, phi)

end TilePyramid.Projection
