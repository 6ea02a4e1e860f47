import TilePyramid.Jpeg.Bits
import TilePyramid.Jpeg.Cosine
import TilePyramid.Jpeg.Tables
import TilePyramid.Raster.Image

/-!
# Writing JPEG files

Grey images have one component, others brightness and two differences of colour, all at full
size. The components are cut into blocks, transformed, and written in one scan.
-/
namespace TilePyramid.Jpeg

/-- How the blocks of a component are written. -/
structure Coding where
  steps : Array Nat
  base : Array (Nat × Nat)
  detail : Array (Nat × Nat)

def brightnessCoding (quality : Nat) : Coding :=
  ⟨scaleSteps quality brightnessSteps, brightnessBase.words 256, brightnessDetail.words 256⟩

def colourCoding (quality : Nat) : Coding :=
  ⟨scaleSteps quality colourSteps, colourBase.words 256, colourDetail.words 256⟩

/-- Brightness and differences of colour of red, green and blue. -/
def components : List Float → List Float
  | [r, g, b] =>
    [0.299 * r + 0.587 * g + 0.114 * b,
      128.0 - 0.168736 * r - 0.331264 * g + 0.5 * b,
      128.0 + 0.5 * r - 0.418688 * g - 0.081312 * b]
  | others => others

/-- The rounded coefficients of a block, in the order of growing detail. -/
def quantized (c : Coding) (block : Array Float) : List Int :=
  let waves := forward (block.map (· - 128.0))
  zigzag.toList.map fun place =>
    (waves.getD place 0.0 / Float.ofNat (c.steps.getD place 1)).round.toInt64.toInt

def putSymbol (s : Sink) (words : Array (Nat × Nat)) (symbol : Nat) : Sink :=
  let word := words.getD symbol (0, 0)
  s.put word.1 word.2

/-- Writes a number after a symbol that holds its length and how many zeros come before. -/
def putNumber (s : Sink) (words : Array (Nat × Nat)) (zeros : Nat) (n : Int) : Sink :=
  let length := bitLength n
  (putSymbol s words (zeros * 16 + length)).put (toBits length n) length

/-- Writes the coefficients after the first, `zeros` of which have been passed over. Zeros at the
end are one symbol. -/
def putDetail (s : Sink) (c : Coding) : (zeros : Nat) → List Int → Sink
  | zeros, [] => if zeros = 0 then s else putSymbol s c.detail 0
  | zeros, n :: ns =>
    if n = 0 then putDetail s c (zeros + 1) ns
    else
      let s := (List.range (zeros / 16)).foldl (fun s _ => putSymbol s c.detail 0xf0) s
      putDetail (putNumber s c.detail (zeros % 16) n) c 0 ns

/-- Writes a block after one whose first coefficient is `previous`. -/
def putBlock (s : Sink) (c : Coding) (previous : Int) (coefficients : List Int) : Sink :=
  putDetail (putNumber s c.base 0 (coefficients.headD 0 - previous)) c 0 (coefficients.drop 1)

/-- A segment: a marker, the length, and the bytes. -/
def segment (marker : Nat) (body : List UInt8) : List UInt8 :=
  [0xff, UInt8.ofNat marker] ++ Bytes.ofNumber 2 (body.length + 2) ++ body

def octets (ns : List Nat) : List UInt8 := ns.map UInt8.ofNat

/-- The segment of a table of steps. -/
def stepsSegment (index : Nat) (steps : Array Nat) : List UInt8 :=
  segment 0xdb (octets (index :: zigzag.toList.map fun place => steps.getD place 1))

/-- The segment of a prefix code. -/
def codeSegment (index : Nat) (code : PrefixCode) : List UInt8 :=
  segment 0xc4 (octets (index :: code.counts ++ code.symbols.toList))

section
variable {σ : Type} [Arith σ]

/-- The components of the pixels, one list for each. -/
def planes (img : Image σ) : List (Array Float) :=
  let bands := img.kind.stride
  let pixels := ((pixelSamples bands (img.width * img.height) img.samples).map fun p =>
    (components (p.map fun v => Float.ofInt (Arith.toInt v))).toArray).toArray
  (List.range bands).map fun k => pixels.map fun p => p.getD k 0.0

/-- The block at column `x` and row `y` of blocks. The last column and the last row are repeated
past the edges. -/
def blockAt (img : Image σ) (plane : Array Float) (x y : Nat) : Array Float :=
  Array.ofFn fun n : Fin 64 =>
    let px := min (img.width - 1) (8 * x + n.val % 8)
    let py := min (img.height - 1) (8 * y + n.val / 8)
    plane.getD (py * img.width + px) 0.0

/-- The components with the way each is written. -/
def codedPlanes (img : Image σ) (quality : Nat) : List (Array Float × Coding) :=
  (planes img).zipIdx.map fun e =>
    (e.1, if e.2 = 0 then brightnessCoding quality else colourCoding quality)

/-- The blocks of all components, place by place. -/
def scan (img : Image σ) (quality : Nat) : ByteArray :=
  let coded := codedPlanes img quality
  let cols := (img.width + 7) / 8
  let places := cols * ((img.height + 7) / 8)
  let put (state : Sink × List Int) (i : Nat) : Sink × List Int :=
    (coded.zip state.2).foldl (fun (next : Sink × List Int) e =>
      let coefficients := quantized e.1.2 (blockAt img e.1.1 (i % cols) (i / cols))
      (putBlock next.1 e.1.2 e.2 coefficients, next.2 ++ [coefficients.headD 0])) (state.1, [])
  ((List.range places).foldl put (⟨.empty, 0, 0⟩, coded.map fun _ => 0)).1.close

/-- The parts of a file before its scan. -/
def heading (img : Image σ) (quality : Nat) : List UInt8 :=
  let bands := img.kind.stride
  let table (k : Nat) : Nat := min k 1
  let frame := octets [8] ++ Bytes.ofNumber 2 img.height ++ Bytes.ofNumber 2 img.width ++
    octets (bands :: (List.range bands).flatMap fun k => [k + 1, 0x11, table k])
  let order := octets (bands :: ((List.range bands).flatMap fun k => [k + 1, table k * 0x11]) ++
    [0, 63, 0])
  [0xff, 0xd8] ++ segment 0xe0 (Bytes.ofName "JFIF" ++ octets [0, 1, 2, 0, 0, 1, 0, 1, 0, 0]) ++
    stepsSegment 0 (brightnessCoding quality).steps ++
    stepsSegment 1 (colourCoding quality).steps ++ segment 0xc0 frame ++
    codeSegment 0x00 brightnessBase ++ codeSegment 0x10 brightnessDetail ++
    codeSegment 0x01 colourBase ++ codeSegment 0x11 colourDetail ++ segment 0xda order

/-- The JPEG file of an image of 8 bits without alpha. -/
def write (img : Image σ) (quality : Nat) : ByteArray :=
  let quality := max 1 (min 100 quality)
  (heading img quality).toByteArray ++ scan img quality ++ [0xff, 0xd9].toByteArray

end
end TilePyramid.Jpeg
