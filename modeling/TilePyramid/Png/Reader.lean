import TilePyramid.Codec.Inflate
import TilePyramid.Png.Chunk
import TilePyramid.Png.Filter
import TilePyramid.Png.Header

/-!
# Reading PNG files

The samples of all passes are put in their places, and then made 8 or 16 bits wide: colours are
looked up, short samples stretched, and a transparent colour becomes an alpha.
-/
namespace TilePyramid.Png

/-- What a file holds besides its header. -/
structure Contents where
  palette : ByteArray
  transparency : Option ByteArray
  data : ByteArray

def Contents.ofChunks (chunks : List Chunk) : Contents where
  palette := ((chunks.find? (·.name = "PLTE")).map Chunk.body).getD .empty
  transparency := (chunks.find? (·.name = "tRNS")).map Chunk.body
  data := (chunks.filter (·.name = "IDAT")).foldl (fun all c => all ++ c.body) .empty

/-- The lines of a pass whose first line starts at `start`. -/
def restoreLines (raw : ByteArray) (step size : Nat) :
    (start rows : Nat) → (above : ByteArray) → Option (List ByteArray)
  | _, 0, _ => some []
  | start, rows + 1, above => do
    let filter ← Filter.all[(Bytes.byte raw start).toNat]?
    let line := filter.restore step above (raw.extract (start + 1) (start + 1 + size))
    return line :: (← restoreLines raw step size (start + 1 + size) rows line)

/-- The sample at an index of a line. -/
def sampleAt (depth : Nat) (line : ByteArray) (i : Nat) : Nat :=
  if depth = 16 then Bytes.number line (2 * i) 2
  else
    ((Bytes.byte line (i * depth / 8)).toNat >>> (8 - depth - i * depth % 8)) % (1 <<< depth)

/-- Puts the samples of a line in their places. -/
def putLine (h : Header) (p : Pass) (row : Nat) (line : ByteArray) (samples : Array Nat) :
    Array Nat :=
  let channels := h.colour.channels
  let place (i : Nat) : Nat :=
    ((p.y + row * p.stepY) * h.width + p.x + i / channels * p.stepX) * channels + i % channels
  (List.range (h.passCols p * channels)).foldl
    (fun samples i => samples.setIfInBounds (place i) (sampleAt h.depth line i)) samples

/-- Puts the samples of passes in their places. The first line starts at `start`. -/
def putPasses (h : Header) (raw : ByteArray) :
    (start : Nat) → List Pass → Array Nat → Option (Array Nat)
  | _, [], samples => some samples
  | start, p :: ps, samples => do
    let size := h.lineSize (h.passCols p)
    let stop := start + h.passRows p * (1 + size)
    if raw.size < stop then none
    else
      let lines ← restoreLines raw h.filterStep size start (h.passRows p) .empty
      putPasses h raw stop ps
        (lines.zipIdx.foldl (fun samples e => putLine h p e.2 e.1 samples) samples)

/-- The samples as they are stored. -/
def storedSamples (h : Header) (raw : ByteArray) : Option (Array Nat) :=
  putPasses h raw 0 h.passes (Array.replicate (h.width * h.height * h.colour.channels) 0)

/-- The colour of a palette index, and its alpha where the file has any. -/
def lookUp (c : Contents) (i : Nat) : List Nat :=
  let colour := (List.range 3).map fun k => (Bytes.byte c.palette (3 * i + k)).toNat
  match c.transparency with
  | none => colour
  | some alphas => colour ++ [if i < alphas.size then (Bytes.byte alphas i).toNat else 255]

/-- The greatest value of samples that are `depth` bits wide. -/
def greatest (depth : Nat) : Nat := (1 <<< depth) - 1

/-- The samples of a pixel in 8 or 16 bits. -/
def widen (h : Header) (c : Contents) (pixel : List Nat) : List Nat :=
  if h.colour = .indexed then lookUp c (pixel.headD 0)
  else
    let wide := if h.depth < 8 then pixel.map (· * 255 / greatest h.depth) else pixel
    match h.colour, c.transparency with
    | .grey, some key | .colour, some key =>
      let clear := pixel.zipIdx.all fun e => e.1 = Bytes.number key (2 * e.2) 2
      wide ++ [if clear then 0 else greatest (max 8 h.depth)]
    | _, _ => wide

/-- The kind of the image once its samples are widened. -/
def imageKind (h : Header) (c : Contents) : ImageKind :=
  let keyed := c.transparency.isSome
  match h.colour, decide (h.depth = 16) with
  | .grey, false => if keyed then .la8 else .l8
  | .grey, true => if keyed then .la16 else .l16
  | .colour, false | .indexed, _ => if keyed then .rgba8 else .rgb8
  | .colour, true => if keyed then .rgba16 else .rgb16
  | .greyAlpha, false => .la8
  | .greyAlpha, true => .la16
  | .colourAlpha, false => .rgba8
  | .colourAlpha, true => .rgba16

/-- The image of a PNG file. -/
def read? {σ : Type} [Arith σ] (bytes : ByteArray) : Option (Image σ) := do
  if !isPng bytes then none
  else
    match ← Chunk.readFrom bytes 8 with
    | [] => none
    | first :: chunks =>
      if first.name ≠ "IHDR" then none
      else
        let h ← Header.ofBytes? first.body
        let c := Contents.ofChunks chunks
        if h.colour = .indexed && c.palette.size = 0 then none
        else
          let stored ← storedSamples h (← Inflate.unwrap? c.data)
          let pixels := pixelSamples h.colour.channels (h.width * h.height) stored
          return {
            kind := imageKind h c
            width := h.width
            height := h.height
            samples := (pixels.flatMap fun p =>
              (widen h c p).map fun n : Nat => ofInt (Int.ofNat n)).toArray }

end TilePyramid.Png
