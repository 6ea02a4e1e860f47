import TilePyramid.Georef.Projection.Ellipsoid

/-!
# Azimuthal projections

The stereographic projection, which keeps angles, and the Lambert equal-area projection. Both go
through a sphere: the first through conformal latitude, the second through authalic latitude.
-/
namespace TilePyramid.Projection

/-- Where the centre of an azimuthal projection lies. -/
inductive Aspect where
  | north
  | south
  | oblique

def Aspect.ofLatitude (phi0 : Float) : Aspect :=
  if (phi0.abs - halfPi).abs < tolerance then if phi0 < 0 then .south else .north else .oblique

/-- Stereographic with scale `k0` at its centre, latitude `phi0`. -/
def stereographic (el : Ellipsoid) (k0 phi0 : Float) : PlaneMap :=
  let polarScale := 2 * k0 / ((1 + el.e).pow (1 + el.e) * (1 - el.e).pow (1 - el.e)).sqrt
  let fromColatitude (t lam : Float) : Option (Float × Float) :=
    (el.latitudeOfHalfColatitude t).map fun phi => (lam, phi)
  match Aspect.ofLatitude phi0 with
  | .north =>
    { forward := fun lam phi =>
        let rho := polarScale * el.halfColatitude phi
        some (rho * lam.sin, -(rho * lam.cos))
      inverse := fun x y =>
        fromColatitude (hypotenuse x y / polarScale)
          (if x == 0 && y == 0 then 0 else Float.atan2 x (-y)) }
  | .south =>
    { forward := fun lam phi =>
        let rho := polarScale * el.halfColatitude (-phi)
        some (rho * lam.sin, rho * lam.cos)
      inverse := fun x y =>
        (fromColatitude (hypotenuse x y / polarScale)
          (if x == 0 && y == 0 then 0 else Float.atan2 x y)).map fun p => (p.1, -p.2) }
  | .oblique =>
    let chi0 := el.conformalLatitude phi0
    let scale := 2 * k0 * el.parallelRadius phi0
    { forward := fun lam phi =>
        let chi := el.conformalLatitude phi
        let facing := 1 + chi0.sin * chi.sin + chi0.cos * chi.cos * lam.cos
        if facing ≤ tolerance then none
        else
          let a := scale / (chi0.cos * facing)
          some (a * (chi.cos * lam.sin),
            a * (chi0.cos * chi.sin - chi0.sin * chi.cos * lam.cos))
      inverse := fun x y =>
        let rho := hypotenuse x y
        let angle := 2 * Float.atan2 (rho * chi0.cos) scale
        let sinChi :=
          if rho == 0 then chi0.sin else angle.cos * chi0.sin + y * angle.sin * chi0.cos / rho
        let chi := sinChi.asin
        let lam :=
          if rho == 0 then 0
          else
            Float.atan2 (x * angle.sin)
              (rho * chi0.cos * angle.cos - y * chi0.sin * angle.sin)
        fromColatitude (0.5 * (halfPi - chi)).tan lam }

/-- Equal-area with its centre at latitude `phi0`. -/
def equalArea (el : Ellipsoid) (phi0 : Float) : PlaneMap :=
  let areaPole := el.authalicArea halfPi
  let radius := (0.5 * areaPole).sqrt
  let latitude (sine : Float) : Float :=
    let beta := (if sine > 1 then 1 else if sine < -1 then -1 else sine).asin
    if el.isSphere then beta else el.latitudeOfAuthalic beta
  match Aspect.ofLatitude phi0 with
  | .north =>
    { forward := fun lam phi =>
        let rho := (areaPole - el.authalicArea phi).sqrt
        some (rho * lam.sin, -(rho * lam.cos))
      inverse := fun x y =>
        some (if x == 0 && y == 0 then 0 else Float.atan2 x (-y),
          latitude (1 - (x * x + y * y) / areaPole)) }
  | .south =>
    { forward := fun lam phi =>
        let rho := (areaPole + el.authalicArea phi).sqrt
        some (rho * lam.sin, rho * lam.cos)
      inverse := fun x y =>
        some (if x == 0 && y == 0 then 0 else Float.atan2 x y,
          latitude ((x * x + y * y) / areaPole - 1)) }
  | .oblique =>
    let sin0 := el.authalicArea phi0 / areaPole
    let cos0 := (1 - sin0 * sin0).sqrt
    let stretch := el.parallelRadius phi0 / (radius * cos0)
    { forward := fun lam phi =>
        let sine := el.authalicArea phi / areaPole
        let cosine := (1 - sine * sine).sqrt
        let facing := 1 + sin0 * sine + cos0 * cosine * lam.cos
        if facing.abs < tolerance then none
        else
          let b := radius * (2 / facing).sqrt
          some (stretch * (b * cosine * lam.sin),
            b * (cos0 * sine - sin0 * cosine * lam.cos) / stretch)
      inverse := fun x y =>
        let x := x / stretch
        let y := y * stretch
        let rho := hypotenuse x y
        if rho < tolerance then some (0, phi0)
        else
          let half := 0.5 * rho / radius
          if half > 1 then none
          else
            let angle := 2 * half.asin
            let sine := angle.cos * sin0 + y * angle.sin * cos0 / rho
            some (Float.atan2 (x * angle.sin) (rho * cos0 * angle.cos - y * sin0 * angle.sin),
              latitude sine) }

end TilePyramid.Projection
