import TilePyramid.Jpeg.Bits
import TilePyramid.Jpeg.Frame
import TilePyramid.Jpeg.Tables

/-!
# Scans

A scan brings some of the coefficients of some of the components, or one more bit of them. What
it brings is added to the coefficients so far.
-/
namespace TilePyramid.Jpeg

/-- One component of a scan, with the prefix codes of its first coefficients and of the rest. -/
structure ScanPart where
  component : Nat
  base : PrefixCode
  detail : PrefixCode

/-- Coefficients `first` to `last` in the order of growing detail. They come without their `low`
last bits; if there has been a scan of them before, only the bit `low` comes. -/
structure ScanHeader where
  parts : List ScanPart
  first : Nat
  last : Nat
  refining : Bool
  low : Nat

/-- The bits and coefficients at one moment of a scan: `bands` counts the blocks to come without
further detail, and `previous` holds the last first coefficient of each component. -/
structure ScanState where
  bits : Bits
  coefficients : Array Int
  bands : Nat
  previous : Array Int

/-- A step of a scan. It fails where the bits make no sense. -/
abbrev ScanStep := StateT ScanState Option

namespace ScanStep

def bit : ScanStep Nat := fun s =>
  let (b, bits) := s.bits.next
  some (b, { s with bits })

def number (count : Nat) : ScanStep Nat := fun s =>
  let (n, bits) := s.bits.number count
  some (n, { s with bits })

def symbol (code : PrefixCode) : ScanStep Nat := do
  match ← code.decode bit with
  | some symbol => return symbol
  | none => failure

/-- A number of a bit length. -/
def signed (length : Nat) : ScanStep Int := do
  return ofBits length (← number length)

def coefficient (i : Nat) : ScanStep Int := do
  return (← get).coefficients.getD i 0

def setCoefficient (i : Nat) (n : Int) : ScanStep Unit :=
  modify fun s => { s with coefficients := s.coefficients.setIfInBounds i n }

/-- The first coefficient of a block, as the difference to that of the block before. -/
def readBase (h : ScanHeader) (part : ScanPart) (block : Nat) : ScanStep Unit := do
  if h.refining then
    if (← bit) = 1 then setCoefficient block ((← coefficient block) + (1 <<< h.low))
  else
    let difference ← signed (← symbol part.base)
    let value := (← get).previous.getD part.component 0 + difference
    modify fun s => { s with previous := s.previous.setIfInBounds part.component value }
    setCoefficient block (value * (1 <<< h.low))

/-- The number of blocks without further detail, from the size of that number. -/
def readBands (size : Nat) : ScanStep Nat := do
  return (1 <<< size) + (← number size)

/-- The index of a coefficient of a block. -/
def indexOf (block k : Nat) : Nat := block + zigzag.getD k 0

/-- The coefficients from `k` on. A symbol holds how many zeros come before a number, and the
length of that number. -/
def readDetail (h : ScanHeader) (part : ScanPart) (block : Nat) :
    (fuel k : Nat) → ScanStep Unit
  | 0, _ => return ()
  | fuel + 1, k => do
    if h.last < k then return ()
    else
      let s ← symbol part.detail
      let zeros := s / 16
      let length := s % 16
      if length = 0 then
        if zeros = 15 then readDetail h part block fuel (k + 16)
        else
          let bands ← readBands zeros
          modify fun s => { s with bands := bands - 1 }
      else
        let n ← signed length
        setCoefficient (indexOf block (k + zeros)) (n * (1 <<< h.low))
        readDetail h part block fuel (k + zeros + 1)

/-- Adds a bit to a coefficient that is not zero. -/
def refine (h : ScanHeader) (i : Nat) (n : Int) : ScanStep Unit := do
  if (← bit) = 1 then
    setCoefficient i (if 0 < n then n + (1 <<< h.low) else n - (1 <<< h.low))

/-- Passes over coefficients from `k` on, refining those that are not zero, until `zeros` zeros
are passed and one more zero is found; returns its place. -/
def refineUntil (h : ScanHeader) (block : Nat) : (fuel k zeros : Nat) → ScanStep Nat
  | 0, k, _ => return k
  | fuel + 1, k, zeros => do
    if h.last < k then return k
    else
      let n ← coefficient (indexOf block k)
      if n = 0 then
        if zeros = 0 then return k else refineUntil h block fuel (k + 1) (zeros - 1)
      else
        refine h (indexOf block k) n
        refineUntil h block fuel (k + 1) zeros

/-- Refines the coefficients from `k` on, and sets those that become one. -/
def refineDetail (h : ScanHeader) (part : ScanPart) (block : Nat) :
    (fuel k : Nat) → ScanStep Unit
  | 0, _ => return ()
  | fuel + 1, k => do
    if h.last < k then return ()
    else
      let s ← symbol part.detail
      let zeros := s / 16
      if s % 16 = 0 then
        if zeros = 15 then
          let stop ← refineUntil h block 64 k 15
          refineDetail h part block fuel (stop + 1)
        else
          let bands ← readBands zeros
          modify fun s => { s with bands := bands - 1 }
          let _ ← refineUntil h block 64 k 64
      else
        let n : Int := if (← bit) = 1 then 1 <<< h.low else -(1 <<< h.low)
        let place ← refineUntil h block 64 k zeros
        if place ≤ h.last then setCoefficient (indexOf block place) n
        refineDetail h part block fuel (place + 1)

/-- One block of a component. -/
def readBlock (h : ScanHeader) (part : ScanPart) (block : Nat) : ScanStep Unit := do
  if h.first = 0 then readBase h part block
  let start := max 1 h.first
  if h.last < start then return ()
  else
    let bands := (← get).bands
    if bands = 0 then
      if h.refining then refineDetail h part block 64 start
      else readDetail h part block 64 start
    else
      modify fun s => { s with bands := bands - 1 }
      if h.refining then
        let _ ← refineUntil h block 64 start 64

end ScanStep

/-- The blocks of a unit of a scan: those of all components in one place, or a single block
where there is one component. Each is the part it belongs to and its first coefficient. -/
def unitBlocks (f : Frame) (h : ScanHeader) (unit : Nat) : List (ScanPart × Nat) :=
  match h.parts with
  | [part] =>
    match f.components[part.component]? with
    | none => []
    | some c =>
      let cols := f.usedCols c
      let block := unit / cols * f.blockCols c + unit % cols
      [(part, f.offset part.component + 64 * block)]
  | parts =>
    parts.flatMap fun part =>
      match f.components[part.component]? with
      | none => []
      | some c =>
        (List.range (c.across * c.down)).map fun i =>
          let row := unit / f.unitCols * c.down + i / c.across
          let col := unit % f.unitCols * c.across + i % c.across
          (part, f.offset part.component + 64 * (row * f.blockCols c + col))

/-- The units of a scan. -/
def unitCount (f : Frame) (h : ScanHeader) : Nat :=
  match h.parts with
  | [part] =>
    match f.components[part.component]? with
    | none => 0
    | some c => f.usedCols c * f.usedRows c
  | _ => f.unitCols * f.unitRows

/-- Adds a scan. Its bits come in sections of `interval` units, each of which starts anew; with
no interval there is one section. -/
def addScan (f : Frame) (h : ScanHeader) (interval : Nat) (sections : List ByteArray)
    (coefficients : Array Int) : Option (Array Int) :=
  let count := unitCount f h
  let interval := if interval = 0 then count else interval
  sections.zipIdx.foldlM (fun coefficients (e : ByteArray × Nat) => do
    let start : ScanState :=
      ⟨⟨e.1, 0⟩, coefficients, 0, Array.replicate f.components.length 0⟩
    let first := e.2 * interval
    let units := (List.range (min interval (count - first))).map (first + ·)
    let step : ScanStep Unit :=
      units.forM fun unit =>
        (unitBlocks f h unit).forM fun b => ScanStep.readBlock h b.1 b.2
    return (← step.run start).2.coefficients) coefficients

end TilePyramid.Jpeg
