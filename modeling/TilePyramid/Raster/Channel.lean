import TilePyramid.Arith

/-!
# Channels

The sample type of an image fixes the range its samples are cut to, what counts as opaque, and
how a value is carried over to another type.
-/
namespace TilePyramid

/-- Sample types: whole numbers of 8 and 16 bits, and fractions from 0 to 1. -/
inductive Channel where
  | u8
  | u16
  | i16
  | f32
  deriving DecidableEq, Repr, Inhabited

namespace Channel

/-- The ends of the range. -/
def bounds : Channel → Int × Int
  | u8 => (0, 255)
  | u16 => (0, 65535)
  | i16 => (-32768, 32767)
  | f32 => (0, 1)

variable {σ : Type} [Arith σ]

def least (c : Channel) : σ := ofInt c.bounds.1

def greatest (c : Channel) : σ := ofInt c.bounds.2

/-- The alpha of a pixel that hides what is below it. -/
def opaqueAlpha (c : Channel) : σ := c.greatest

/-- Cuts a value to the range; whole number types also round it. -/
def clamp (c : Channel) (v : σ) : σ :=
  let cut := Arith.clamp c.least c.greatest v
  match c with
  | f32 => cut
  | _ => Arith.round cut

/-- Maps the range of `c` linearly onto the range of `target`. -/
def rescale (c target : Channel) (v : σ) : σ :=
  if target = c then v
  else
    let t := (v - c.least) / (c.greatest - c.least)
    target.clamp (target.least + t * (target.greatest - target.least))

/-- Carries an alpha over: opaque stays opaque. -/
def rescaleAlpha (c target : Channel) (alpha : σ) : σ :=
  target.clamp (alpha / c.opaqueAlpha * target.opaqueAlpha)

end Channel
end TilePyramid
