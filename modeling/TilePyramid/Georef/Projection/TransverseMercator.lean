import TilePyramid.Georef.Projection.Ellipsoid

/-!
# The transverse Mercator projection

On an ellipsoid the projection is a series of order six in the third flattening, first between
geodetic and conformal latitude and then between the spherical and the ellipsoidal plane. On a
sphere there is a closed form.
-/
namespace TilePyramid.Projection

/-- The sum of `c₁ sin 2t + c₂ sin 4t + …` over the coefficients. -/
def sineSeries (cs : List Float) (t : Float) : Float :=
  (cs.foldl (fun (acc : Float × Float) c => (acc.1 + c * (acc.2 * t).sin, acc.2 + 2)) (0, 2)).1

/-- The same sum at a complex argument, as real and imaginary part. -/
def complexSineSeries (cs : List Float) (re im : Float) : Float × Float :=
  let sum := cs.foldl (fun (acc : Float × Float × Float) c =>
    let (a, b, k) := acc
    (a + c * (k * re).sin * (k * im).cosh, b + c * (k * re).cos * (k * im).sinh, k + 2)) (0, 0, 2)
  (sum.1, sum.2.1)

/-- A polynomial with the constant coefficient first. -/
def polynomial (cs : List Float) (x : Float) : Float :=
  cs.foldr (fun c acc => c + x * acc) 0

namespace Transverse

/-- From geodetic to conformal latitude. -/
def toConformal (n : Float) : List Float :=
  [n * polynomial [-2, 2 / 3, 4 / 3, -82 / 45, 32 / 45, 4642 / 4725] n,
    n ^ 2 * polynomial [5 / 3, -16 / 15, -13 / 9, 904 / 315, -1522 / 945] n,
    n ^ 3 * polynomial [-26 / 15, 34 / 21, 8 / 5, -12686 / 2835] n,
    n ^ 4 * polynomial [1237 / 630, -12 / 5, -24832 / 14175] n,
    n ^ 5 * polynomial [-734 / 315, 109598 / 31185] n,
    n ^ 6 * polynomial [444337 / 155925] n]

/-- From conformal to geodetic latitude. -/
def fromConformal (n : Float) : List Float :=
  [n * polynomial [2, -2 / 3, -2, 116 / 45, 26 / 45, -2854 / 675] n,
    n ^ 2 * polynomial [7 / 3, -8 / 5, -227 / 45, 2704 / 315, 2323 / 945] n,
    n ^ 3 * polynomial [56 / 15, -136 / 35, -1262 / 105, 73814 / 2835] n,
    n ^ 4 * polynomial [4279 / 630, -332 / 35, -399572 / 14175] n,
    n ^ 5 * polynomial [4174 / 315, -144838 / 6237] n,
    n ^ 6 * polynomial [601676 / 22275] n]

/-- From the spherical to the ellipsoidal plane. -/
def toPlane (n : Float) : List Float :=
  [n * polynomial [1 / 2, -2 / 3, 5 / 16, 41 / 180, -127 / 288, 7891 / 37800] n,
    n ^ 2 * polynomial [13 / 48, -3 / 5, 557 / 1440, 281 / 630, -1983433 / 1935360] n,
    n ^ 3 * polynomial [61 / 240, -103 / 140, 15061 / 26880, 167603 / 181440] n,
    n ^ 4 * polynomial [49561 / 161280, -179 / 168, 6601661 / 7257600] n,
    n ^ 5 * polynomial [34729 / 80640, -3418889 / 1995840] n,
    n ^ 6 * polynomial [212378941 / 319334400] n]

/-- From the ellipsoidal to the spherical plane. -/
def fromPlane (n : Float) : List Float :=
  [n * polynomial [-1 / 2, 2 / 3, -37 / 96, 1 / 360, 81 / 512, -96199 / 604800] n,
    n ^ 2 * polynomial [-1 / 48, -1 / 15, 437 / 1440, -46 / 105, 1118711 / 3870720] n,
    n ^ 3 * polynomial [-17 / 480, 37 / 840, 209 / 4480, -5569 / 90720] n,
    n ^ 4 * polynomial [-4397 / 161280, 11 / 504, 830251 / 7257600] n,
    n ^ 5 * polynomial [-4583 / 161280, 108847 / 3991680] n,
    n ^ 6 * polynomial [-20648693 / 638668800] n]

/-- Beyond this normalized easting the series does not hold. -/
def reach : Float := 2.623395162778

/-- The series form on an ellipsoid, with scale `k0` and origin latitude `phi0`. -/
def ellipsoidal (el : Ellipsoid) (k0 phi0 : Float) : PlaneMap :=
  let n := el.thirdFlattening
  let n2 := n * n
  let quadrant := k0 / (1 + n) * (1 + n2 * (1 / 4 + n2 * (1 / 64 + n2 / 256)))
  let conformal0 := phi0 + sineSeries (toConformal n) phi0
  let north0 := -(quadrant * (conformal0 + sineSeries (toPlane n) conformal0))
  { forward := fun lam phi =>
      let chi := phi + sineSeries (toConformal n) phi
      let along := chi.cos * lam.cos
      let north := Float.atan2 chi.sin along
      let east := (lam.sin * chi.cos / hypotenuse chi.sin along).asinh
      let (dn, de) := complexSineSeries (toPlane n) north east
      let e := east + de
      if e.abs ≤ reach then some (quadrant * e, quadrant * (north + dn) + north0) else none
    inverse := fun x y =>
      let north := (y - north0) / quadrant
      let east := x / quadrant
      if east.abs ≤ reach then
        let (dn, de) := complexSineSeries (fromPlane n) north east
        let north := north + dn
        let turn := (east + de).sinh.atan
        let along := turn.cos * north.cos
        let lam := Float.atan2 turn.sin along
        let chi := Float.atan2 (north.sin * turn.cos) (hypotenuse turn.sin along)
        some (lam, chi + sineSeries (fromConformal n) chi)
      else none }

/-- The closed form on a sphere. -/
def spherical (k0 phi0 : Float) : PlaneMap where
  forward lam phi :=
    let b := phi.cos * lam.sin
    if (b.abs - 1).abs ≤ tolerance then none
    else some (k0 * b.atanh, k0 * (Float.atan2 phi.tan lam.cos - phi0))
  inverse x y :=
    let d := y / k0 + phi0
    let x := x / k0
    some (Float.atan2 x.sinh d.cos, (d.sin / x.cosh).asin)

end Transverse

def transverseMercator (el : Ellipsoid) (k0 phi0 : Float) : PlaneMap :=
  if el.isSphere then Transverse.spherical k0 phi0 else Transverse.ellipsoidal el k0 phi0

end TilePyramid.Projection
