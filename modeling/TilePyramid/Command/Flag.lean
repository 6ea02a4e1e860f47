import TilePyramid.Command.Arguments
import TilePyramid.Decimal.Reader
import TilePyramid.Options.Names

/-!
# Flags

The flags of the command line: their names, whether they take a value, and how the value is
read.
-/
namespace TilePyramid

open Decimal (OfLiteral)

/-- A value may be refused as no choice at all, or be no text of its type. -/
inductive ValueFault where
  | refused
  | unreadable
  deriving DecidableEq, Repr

/-- What is wrong with a command line. Asking for help ends it as well. -/
inductive UsageFault where
  | unknown (word : String)
  | value (flag : String) (fault : ValueFault)
  | repeated (flag : String)
  | unexpectedValue (flag : String)
  | help
  deriving DecidableEq, Repr

def UsageFault.message : UsageFault → String
  | unknown word => s!"unexpected argument '{word}'"
  | value flag .refused => s!"a value is needed for {flag}, one of those it allows"
  | value flag .unreadable => s!"the value for {flag} cannot be read"
  | repeated flag => s!"{flag} cannot be used more than once"
  | unexpectedValue flag => s!"{flag} takes no value"
  | help => "mosaic georeferenced images and cut them into a tiled quad-tree"

/-- How the name of a projection is spelled on the command line. -/
def ProjectionKind.flagName (k : ProjectionKind) : String :=
  String.ofList (k.name.toList.map fun c => if c = '_' then '-' else c)

def Channel.flagName : Channel → String
  | u8 => "uint8"
  | u16 => "uint16"
  | i16 => "int16"
  | f32 => "float32"

/-- What a flag does. -/
inductive FlagAction (α σ : Type) where
  | take (read : String → Arguments α σ → Except ValueFault (Arguments α σ))
  | switch (turn : Arguments α σ → Arguments α σ)
  | help

/-- `hyphenValues` allows values that begin with a hyphen. -/
structure Flag (α σ : Type) where
  name : String
  letter : Option Char
  hyphenValues : Bool
  action : FlagAction α σ

namespace Flag

variable {α σ β : Type}

/-- Reads a value. -/
abbrev Reader (β : Type) := String → Except ValueFault β

def text : Reader String := .ok

/-- A path is not empty. -/
def path : Reader Path := fun s => if s.isEmpty then .error .refused else .ok ⟨s⟩

/-- One of several names. -/
def choice (all : List β) (name : β → String) : Reader β := fun s =>
  match all.find? fun b => name b == s with
  | some b => .ok b
  | none => .error .refused

/-- A decimal. -/
def decimal (β : Type) [OfLiteral β] : Reader β := fun s =>
  match Decimal.read? β s with
  | some x => .ok x
  | none => .error .unreadable

/-- A whole number of 64 bits from `lo` to `hi`. -/
def wholeNumber (lo hi : Int) : Reader Int := fun s =>
  let given := Decimal.integer? (-0x8000000000000000) 0x7fffffffffffffff s
  match given.filter fun n => lo ≤ n && n ≤ hi with
  | some n => .ok n
  | none => .error .unreadable

def natural (hi : Nat) : Reader Nat := fun s => (wholeNumber 0 hi s).map Int.toNat

def word : Reader Nat := natural 0xffffffff

def signedWord : Reader Int := wholeNumber (-0x80000000) 0x7fffffff

/-- A flag whose value is put into the arguments. -/
def taking (name : String) (letter : Option Char) (hyphenValues : Bool) (read : Reader β)
    (put : Arguments α σ → β → Arguments α σ) : Flag α σ :=
  ⟨name, letter, hyphenValues, .take fun s a => (read s).map (put a)⟩

/-- A flag with a value, and without a letter. -/
def valued (name : String) (read : Reader β) (put : Arguments α σ → β → Arguments α σ) :
    Flag α σ :=
  taking name none false read put

/-- A flag whose value may be negative. -/
def signed (name : String) (read : Reader β) (put : Arguments α σ → β → Arguments α σ) :
    Flag α σ :=
  taking name none true read put

/-- A flag that turns something on. -/
def switched (name : String) (turn : Arguments α σ → Arguments α σ) : Flag α σ :=
  ⟨name, none, false, .switch turn⟩

/-- The flags for what is read and written. -/
def fileFlags : List (Flag α σ) :=
  [valued "options-file" path fun a v => { a with optionsFile := some v },
    valued "log-level" text fun a v => { a with logLevel := v },
    taking "output-name" (some 'o') false path fun a v => { a with outputName := some v },
    taking "file-type" (some 't') false text fun a v => { a with fileType := some v },
    taking "mode" (some 'm') false (choice OutputMode.all OutputMode.name)
      fun a v => { a with mode := some v },
    valued "module-name" text fun a v => { a with moduleName := some v },
    valued "tile-size" word fun a v => { a with tileSize := some v },
    valued "jpeg-quality" (natural 255) fun a v => { a with jpegQuality := some v },
    valued "png-compression" word fun a v => { a with pngCompression := some v }]

/-- The flags for pixels. -/
def pixelFlags [OfLiteral σ] : List (Flag α σ) :=
  [valued "pixel-scale" (decimal σ) fun a v => { a with pixelScale := some v },
    valued "pixel-offset" (decimal σ) fun a v => { a with pixelOffset := some v },
    valued "aspect-ratio" word fun a v => { a with aspectRatio := some v },
    valued "global-resolution" word fun a v => { a with globalResolution := some v },
    valued "nodata-value" (decimal σ) fun a v => { a with nodata := some v },
    valued "channel-type" (choice Channel.all Channel.flagName)
      fun a v => { a with channel := some v },
    switched "multiband" fun a => { a with multiband := true },
    switched "normalize" fun a => { a with normalize := true }]

/-- The flags for where the inputs lie. -/
def placeFlags [OfLiteral α] : List (Flag α σ) :=
  [signed "north" (decimal α) fun a v => { a with north := some v },
    signed "south" (decimal α) fun a v => { a with south := some v },
    signed "east" (decimal α) fun a v => { a with east := some v },
    signed "west" (decimal α) fun a v => { a with west := some v },
    switched "global" fun a => { a with wholeGlobe := true },
    valued "projection"
      (choice (ProjectionKind.all.filter (· ≠ .standard)) ProjectionKind.flagName)
      fun a v => { a with projection := some v },
    signed "proj-lat" (decimal α) fun a v => { a with lat := some v },
    signed "proj-lon" (decimal α) fun a v => { a with lon := some v },
    valued "proj-scale" (decimal α) fun a v => { a with scale := some v },
    signed "p1" (decimal α) fun a v => { a with p1 := some v },
    signed "p2" (decimal α) fun a v => { a with p2 := some v },
    signed "utm" signedWord fun a v => { a with utmZone := some v },
    valued "datum" (choice (DatumKind.all.filter (· ≠ .keep)) DatumKind.name)
      fun a v => { a with datum := some v },
    valued "sphere-radius" (decimal α) fun a v => { a with sphereRadius := some v }]

/-- The flags for single viewers, and the one that asks for help. -/
def viewerFlags : List (Flag α σ) :=
  [switched "terrain" fun a => { a with terrain := true },
    valued "draw-order-offset" word fun a v => { a with drawOrderOffset := some (.ofNat v) },
    signed "max-lod-pixels" signedWord fun a v => { a with maxLodPixels := some v },
    ⟨"help", some 'h', false, .help⟩]

def all [OfLiteral α] [OfLiteral σ] : List (Flag α σ) :=
  fileFlags ++ pixelFlags ++ placeFlags ++ viewerFlags

/-- The flag of a name. -/
def ofName? [OfLiteral α] [OfLiteral σ] (name : String) : Option (Flag α σ) :=
  all.find? fun f => f.name == name

/-- The flag of a letter. -/
def ofLetter? [OfLiteral α] [OfLiteral σ] (letter : Char) : Option (Flag α σ) :=
  all.find? fun f => f.letter == some letter

end Flag
end TilePyramid
