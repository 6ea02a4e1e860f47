import TilePyramid.Raster.Basic

/-!
# Sampling

A raster is read between its pixels. A whole position is the centre of a pixel; colour is
weighted by alpha, so that clear neighbours do not darken an edge.
-/
namespace TilePyramid

/-- What lies beyond the edge of an image: nothing, its nearest edge pixel, or its own columns
again with the nearest row. -/
inductive EdgeMode where
  | zero
  | constant
  | cylindrical
  deriving DecidableEq, Repr, Inhabited

/-- Cuts an index to the places of a side of `size` pixels. -/
def clampIndex (size i : Int) : Int :=
  max 0 (min i (size - 1))

/-- The index after an index of 64 bits. The first one follows the last one. -/
def nextIndex (i : Int) : Int := wrapIndex (i + 1)

/-- The place an index outside the image is read from. -/
def EdgeMode.place? (e : EdgeMode) (width height x y : Int) : Option (Nat × Nat) :=
  match e with
  | zero =>
    if 0 ≤ x ∧ x < width ∧ 0 ≤ y ∧ y < height then some (x.toNat, y.toNat) else none
  | constant => some ((clampIndex width x).toNat, (clampIndex height y).toNat)
  | cylindrical => some ((x.emod width).toNat, (clampIndex height y).toNat)

section
variable {α σ : Type} [Arith α] [Arith σ]

/-- A position this close to the centre of a pixel is that centre. -/
def snapTolerance : α := ofInt 1 / ofInt 1000000

def snap (v : α) : α :=
  let r := Arith.round v
  if Arith.magnitude (v - r) < snapTolerance then r else v

/-- The running sum of weighted colours, and the sum of the weights. -/
structure Weighted (σ : Type) where
  colour : List σ
  weight : σ

/-- The four pixels around a position with their shares. -/
def taps (x y : Int) (fx fy : σ) : List (Int × Int × σ) :=
  [(x, y, (ofInt 1 - fx) * (ofInt 1 - fy)), (nextIndex x, y, fx * (ofInt 1 - fy)),
    (x, nextIndex y, (ofInt 1 - fx) * fy), (nextIndex x, nextIndex y, fx * fy)]

/-- Adds one of the four pixels. A share of nothing, or a place outside, adds nothing. -/
def addTap (r : Raster σ) (edge : EdgeMode) (sum : Weighted σ) (tap : Int × Int × σ) :
    Weighted σ :=
  let (x, y, share) := tap
  if share ≤ ofInt 0 then sum
  else
    match edge.place? r.width r.height x y with
    | none => sum
    | some (px, py) =>
      let p := r.pixel px py
      let weight := share * p.alpha
      ⟨List.zipWith (fun c v => c + v * weight) sum.colour p.colour, sum.weight + weight⟩

/-- The pixel a sum of weighted colours stands for. -/
def Weighted.pixel (sum : Weighted σ) : Pixel σ :=
  ⟨if ofInt 0 < sum.weight then sum.colour.map (· / sum.weight) else sum.colour, sum.weight⟩

/-- The raster at position `(x, y)`. Positions that are not finite, and positions outside under
`EdgeMode.zero`, are clear. -/
def Raster.sample [Narrow α σ] (r : Raster σ) (edge : EdgeMode) (x y : α) : Pixel σ :=
  if r.isEmpty || !Arith.isFinite x || !Arith.isFinite y then .clear r.bands
  else
    let x := snap x
    let y := snap y
    let x0 := Arith.floor x
    let y0 := Arith.floor y
    let fx : σ := narrow (x - x0)
    let fy : σ := narrow (y - y0)
    let sum := (taps (Arith.toInt x0) (Arith.toInt y0) fx fy).foldl (addTap r edge)
      ⟨List.replicate r.bands (ofInt 0), ofInt 0⟩
    sum.pixel

end
end TilePyramid
