/-!
# The cosine transform

A block of eight rows of eight values, as a sum of cosine waves. A pass transforms the rows and
exchanges rows and columns, so that two passes transform both.
-/
namespace TilePyramid.Jpeg

/-- An eighth of a half turn. -/
def sixteenth : Float := 3.14159265358979323846 / 16.0

/-- The height of wave `u` at place `x`. -/
def waveAt (u x : Nat) : Float :=
  let scale : Float := if u = 0 then Float.sqrt 0.125 else 0.5
  scale * Float.cos (Float.ofNat ((2 * x + 1) * u) * sixteenth)

/-- The waves, each in eight places. -/
def waves : Array Float := Array.ofFn fun i : Fin 64 => waveAt (i.val / 8) (i.val % 8)

/-- Row `j` of a block weighted by `weight i`, for all `i` and `j`. -/
def pass (weight : Nat → Nat → Float) (block : Array Float) : Array Float :=
  Array.ofFn fun n : Fin 64 =>
    (List.range 8).foldl (fun sum k =>
      sum + weight (n.val / 8) k * block.getD (n.val % 8 * 8 + k) 0.0) 0.0

/-- The coefficients of the values of a block. -/
def forward (block : Array Float) : Array Float :=
  let weight (u x : Nat) : Float := waves.getD (u * 8 + x) 0.0
  pass weight (pass weight block)

/-- The values that have these coefficients. -/
def inverse (block : Array Float) : Array Float :=
  let weight (x u : Nat) : Float := waves.getD (u * 8 + x) 0.0
  pass weight (pass weight block)

end TilePyramid.Jpeg
