import TilePyramid.Options.Basic

/-!
# Names of choices

How the choices among the options are spelled in an options file and on the command line.
-/
namespace TilePyramid

def Channel.name : Channel → String
  | u8 => "u8"
  | u16 => "u16"
  | i16 => "i16"
  | f32 => "f32"

def Channel.all : List Channel := [u8, u16, i16, f32]

def ProjectionKind.name : ProjectionKind → String
  | standard => "default"
  | plain => "none"
  | sinusoidal => "sinusoidal"
  | mercator => "mercator"
  | transverseMercator => "transverse_mercator"
  | orthographic => "orthographic"
  | stereographic => "stereographic"
  | lambertAzimuthal => "lambert_azimuthal"
  | lambertConformalConic => "lambert_conformal_conic"
  | utm => "utm"
  | plateCarree => "plate_carree"

def ProjectionKind.all : List ProjectionKind :=
  [standard, plain, sinusoidal, mercator, transverseMercator, orthographic, stereographic,
    lambertAzimuthal, lambertConformalConic, utm, plateCarree]

def DatumKind.name : DatumKind → String
  | keep => "none"
  | wgs84 => "wgs84"
  | lunar => "lunar"
  | mars => "mars"
  | sphere => "sphere"

def DatumKind.all : List DatumKind := [keep, wgs84, lunar, mars, sphere]

end TilePyramid
