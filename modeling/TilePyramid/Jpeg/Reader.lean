import TilePyramid.Jpeg.Cosine
import TilePyramid.Jpeg.Scan
import TilePyramid.Raster.Image

/-!
# Reading JPEG files

The segments of a file are taken one by one: tables are kept, the frame sets up the coefficients,
and each scan adds to them. In the end the coefficients become samples.
-/
namespace TilePyramid.Jpeg

/-- What has been read of a file. Tables are kept by their number, the newest first. A segment may
say that the colours are not transformed. -/
structure Progress where
  steps : List (Nat × Array Nat)
  codes : List (Nat × PrefixCode)
  interval : Nat
  transformed : Bool
  frame : Option Frame
  coefficients : Array Int

def Progress.start : Progress := ⟨[], [], 0, true, none, #[]⟩

/-- The bytes begin like a JPEG file. -/
def isJpeg (bytes : ByteArray) : Bool := Bytes.number bytes 0 3 = 0xffd8ff

/-- Reads tables of steps, of one or two bytes each. -/
def readSteps (body : ByteArray) :
    (fuel start : Nat) → List (Nat × Array Nat) → List (Nat × Array Nat)
  | 0, _, tables => tables
  | fuel + 1, start, tables =>
    if start < body.size then
      let heading := Bytes.number body start 1
      let size := if heading / 16 = 0 then 1 else 2
      let table := zigzag.zipIdx.foldl (fun (table : Array Nat) e =>
        table.setIfInBounds e.1 (Bytes.number body (start + 1 + e.2 * size) size))
        (Array.replicate 64 0)
      readSteps body fuel (start + 1 + 64 * size) ((heading % 16, table) :: tables)
    else tables

/-- Reads prefix codes. -/
def readCodes (body : ByteArray) :
    (fuel start : Nat) → List (Nat × PrefixCode) → List (Nat × PrefixCode)
  | 0, _, codes => codes
  | fuel + 1, start, codes =>
    if start < body.size then
      let counts := (List.range 16).map fun i => Bytes.number body (start + 1 + i) 1
      let symbols := (List.range counts.sum).map fun i => Bytes.number body (start + 17 + i) 1
      readCodes body fuel (start + 17 + counts.sum)
        ((Bytes.number body start 1, ⟨counts, symbols.toArray⟩) :: codes)
    else codes

/-- Reads the header of a scan. -/
def scanHeader? (p : Progress) (f : Frame) (body : ByteArray) : Option ScanHeader := do
  let count := Bytes.number body 0 1
  let part (k : Nat) : Option ScanPart := do
    let id := Bytes.number body (1 + 2 * k) 1
    let component ← f.components.findIdx? fun c => c.id = id
    let tables := Bytes.number body (2 + 2 * k) 1
    let code (number : Nat) : PrefixCode := (p.codes.lookup number).getD ⟨[], #[]⟩
    return ⟨component, code (tables / 16), code (16 + tables % 16)⟩
  let parts ← (List.range count).mapM part
  let tail (i : Nat) : Nat := Bytes.number body (1 + 2 * count + i) 1
  if parts.isEmpty then none
  else if f.gradual then
    return ⟨parts, tail 0, min 63 (tail 1), 0 < tail 2 / 16, tail 2 % 16⟩
  else return ⟨parts, 0, 63, false, 0⟩

/-- The sections of a scan from a place on, and the place of the marker after it. -/
def sections (bytes : ByteArray) :
    (fuel i : Nat) → (last : ByteArray) → (done : List ByteArray) → List ByteArray × Nat
  | 0, i, last, done => ((last :: done).reverse, i)
  | fuel + 1, i, last, done =>
    if bytes.size ≤ i then ((last :: done).reverse, i)
    else
      let b := Bytes.byte bytes i
      if b ≠ 0xff then sections bytes fuel (i + 1) (last.push b) done
      else
        let mark := (Bytes.byte bytes (i + 1)).toNat
        if mark = 0 then sections bytes fuel (i + 2) (last.push b) done
        else if mark = 0xff then sections bytes fuel (i + 1) last done
        else if 0xd0 ≤ mark && mark ≤ 0xd7 then
          sections bytes fuel (i + 2) .empty (last :: done)
        else ((last :: done).reverse, i)

/-- Takes a segment that is no scan. -/
def Progress.take (p : Progress) (marker : Nat) (body : ByteArray) : Option Progress :=
  match marker with
  | 0xdb => some { p with steps := readSteps body body.size 0 p.steps }
  | 0xc4 => some { p with codes := readCodes body body.size 0 p.codes }
  | 0xdd => some { p with interval := Bytes.number body 0 2 }
  | 0xee =>
    let named := Bytes.number body 0 5 = 0x41646f6265
    some { p with transformed := !(named && Bytes.number body 11 1 = 0 && 12 ≤ body.size) }
  | 0xc0 | 0xc1 | 0xc2 =>
    (Frame.ofBytes? (marker = 0xc2) body).map fun f =>
      { p with frame := some f, coefficients := Array.replicate f.size 0 }
  | 0xc3 | 0xc5 | 0xc6 | 0xc7 | 0xc9 | 0xca | 0xcb | 0xcd | 0xce | 0xcf => none
  | _ => some p

/-- Takes the segments from a place on, up to the end of the image. -/
def takeSegments (bytes : ByteArray) : (fuel i : Nat) → Progress → Option Progress
  | 0, _, p => some p
  | fuel + 1, i, p =>
    if bytes.size ≤ i + 1 then some p
    else if Bytes.byte bytes i ≠ 0xff then takeSegments bytes fuel (i + 1) p
    else
      let marker := (Bytes.byte bytes (i + 1)).toNat
      if marker = 0xff then takeSegments bytes fuel (i + 1) p
      else if marker = 0xd9 then some p
      else if marker = 0 || marker = 1 || 0xd0 ≤ marker && marker ≤ 0xd8 then
        takeSegments bytes fuel (i + 2) p
      else
        let stop := i + 2 + Bytes.number bytes (i + 2) 2
        let body := bytes.extract (i + 4) stop
        if marker = 0xda then do
          let f ← p.frame
          let h ← scanHeader? p f body
          let (parts, next) := sections bytes bytes.size stop .empty []
          let coefficients ← addScan f h p.interval parts p.coefficients
          takeSegments bytes fuel next { p with coefficients }
        else do
          takeSegments bytes fuel stop (← p.take marker body)

/-- The samples of a block. -/
def blockSamples (steps : Array Nat) (coefficients : Array Int) (start : Nat) : Array Float :=
  inverse (Array.ofFn fun i : Fin 64 =>
    Float.ofInt (coefficients.getD (start + i.val) 0 * Int.ofNat (steps.getD i.val 0)))

/-- The samples of a component, block by block. -/
def planeSamples (p : Progress) (f : Frame) (k : Nat) (c : Component) : Array Float :=
  let steps := (p.steps.lookup c.steps).getD #[]
  (List.range (f.blockCount c)).foldl (fun samples b =>
    samples ++ blockSamples steps p.coefficients (f.offset k + 64 * b)) #[]

/-- The sample of a component that covers a pixel. -/
def sampleOf (f : Frame) (c : Component) (plane : Array Float) (x y : Nat) : Float :=
  let sx := x * c.across / f.acrossMost
  let sy := y * c.down / f.downMost
  let block := sy / 8 * f.blockCols c + sx / 8
  128.0 + plane.getD (64 * block + sy % 8 * 8 + sx % 8) 0.0

/-- Red, green and blue of brightness and differences of colour. -/
def colours : List Float → List Float
  | [y, b, r] =>
    let b := b - 128.0
    let r := r - 128.0
    [y + 1.402 * r, y - 0.344136 * b - 0.714136 * r, y + 1.772 * b]
  | others => others

/-- A sample as a whole number of 8 bits. -/
def wholeSample (v : Float) : Int :=
  (v.round.toInt64.toInt).toNat |> min 255 |> Int.ofNat

/-- The image of a JPEG file of one or three components. -/
def read? {σ : Type} [Arith σ] (bytes : ByteArray) : Option (Image σ) := do
  if !isJpeg bytes then none
  else
    let p ← takeSegments bytes bytes.size 2 .start
    let f ← p.frame
    let planes := f.components.zipIdx.map fun e => (e.1, planeSamples p f e.2 e.1)
    let pixel (i : Nat) : List Int :=
      let samples := planes.map fun e => sampleOf f e.1 e.2 (i % f.width) (i / f.width)
      (if p.transformed then colours samples else samples).map wholeSample
    return {
      kind := if f.components.length = 1 then .l8 else .rgb8
      width := f.width
      height := f.height
      samples := ((List.range (f.width * f.height)).flatMap fun i =>
        (pixel i).map fun n => ofInt n).toArray }

end TilePyramid.Jpeg
