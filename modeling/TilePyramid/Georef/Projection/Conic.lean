import TilePyramid.Georef.Projection.Ellipsoid

/-!
# The Lambert conformal conic projection
-/
namespace TilePyramid.Projection

/-- The conformal conic projection with true scale at two parallels, which may be the same one
but not opposite. Its origin is at latitude `phi0`. -/
def conformalConic (el : Ellipsoid) (k0 phi0 phi1 phi2 : Float) : PlaneMap :=
  let m1 := el.parallelRadius phi1
  let t1 := el.halfColatitude phi1
  let n :=
    if (phi1 - phi2).abs < tolerance then phi1.sin
    else (m1 / el.parallelRadius phi2).log / (t1 / el.halfColatitude phi2).log
  let c := m1 * t1.pow (-n) / n
  let radiusAt (phi : Float) : Option Float :=
    if (phi.abs - halfPi).abs < tolerance then if phi * n ≤ 0 then none else some 0
    else some (c * (el.halfColatitude phi).pow n)
  let rho0 := (radiusAt phi0).getD 0
  { forward := fun lam phi =>
      (radiusAt phi).map fun rho =>
        (k0 * (rho * (lam * n).sin), k0 * (rho0 - rho * (lam * n).cos))
    inverse := fun x y =>
      let x := x / k0
      let y := rho0 - y / k0
      let rho := hypotenuse x y
      if rho == 0 then some (0, if n > 0 then halfPi else -halfPi)
      else
        let (rho, x, y) := if n < 0 then (-rho, -x, -y) else (rho, x, y)
        (el.latitudeOfHalfColatitude ((rho / c).pow (1 / n))).map fun phi =>
          (Float.atan2 x y / n, phi) }

end TilePyramid.Projection
