import TilePyramid.Raster.Range

/-!
# Pixel adjustments

Before an image is placed its samples are carried over to the working channel, grey is repeated
where the run works in three bands, nodata is masked, values are rescaled, and last the observed
range is stretched over the whole channel.
-/
namespace TilePyramid

variable {σ : Type} [Arith σ]

namespace Raster

/-- Pixels that hold nodata in every band become clear, all others opaque. -/
def maskNodata (r : Raster σ) (nodata : σ) : Raster σ :=
  r.map fun p =>
    if p.isNodata nodata then ⟨p.colour.map fun _ => ofInt 0, ofInt 0⟩
    else { p with alpha := r.channel.opaqueAlpha }

def mapColour (r : Raster σ) (f : σ → σ) : Raster σ :=
  r.map fun p => { p with colour := p.colour.map f }

/-- One colour value times `scale` plus `offset`, cut to the channel. -/
def rescaleValue (channel : Channel) (scale offset v : σ) : σ :=
  channel.clamp (v * scale + offset)

/-- Multiplies and shifts every colour value. -/
def rescaleColour (r : Raster σ) (scale offset : σ) : Raster σ :=
  r.mapColour (rescaleValue r.channel scale offset)

/-- Where a value of the range lands in the channel, before it is cut. -/
def stretchValue (channel : Channel) (range : ValueRange σ) (v : σ) : σ :=
  (v - range.lo) * ((channel.greatest - channel.least) / (range.hi - range.lo)) + channel.least

/-- Stretches the range over the whole channel. A range without extent changes nothing. -/
def normalize (r : Raster σ) (range : ValueRange σ) : Raster σ :=
  if range.hi ≤ range.lo then r
  else r.mapColour fun v => r.channel.clamp (stretchValue r.channel range v)

end Raster

/-- The adjustments shared by all images of a run. `bands` asks for three bands. -/
structure Adjustments (σ : Type) where
  rescale : Option (σ × σ)
  normalize : Option (ValueRange σ)
  bands : Option Nat

namespace Adjustments

/-- The working channel and the nodata value of one image. -/
structure Target (σ : Type) where
  channel : Channel
  nodata : Option σ

/-- A range of source values after the conversion and the rescaling the pixels go through. -/
def workingRange (a : Adjustments σ) (source work : Channel) (range : ValueRange σ) :
    ValueRange σ :=
  let converted := range.map (source.rescale work)
  match a.rescale with
  | some (scale, offset) => converted.map (Raster.rescaleValue work scale offset)
  | none => converted

/-- The raster that goes on to be placed. -/
def apply (a : Adjustments σ) (r : Raster σ) (target : Target σ) : Raster σ :=
  let converted := r.toChannel target.channel
  let banded := if a.bands = some 3 then converted.toRgb else converted
  let masked :=
    match target.nodata with
    | some nodata => banded.maskNodata nodata
    | none => banded
  let rescaled :=
    match a.rescale with
    | some (scale, offset) => masked.rescaleColour scale offset
    | none => masked
  match a.normalize with
  | some range => rescaled.normalize (a.workingRange r.channel target.channel range)
  | none => rescaled

end Adjustments
end TilePyramid
