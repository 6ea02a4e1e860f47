import TilePyramid.Codec.PrefixCode

/-!
# Tables of JPEG files

The order of the coefficients of a block, and the tables that are written: how coarse each
coefficient is kept, and the prefix codes.
-/
namespace TilePyramid.Jpeg

/-- The place of a coefficient in its block, in the order of growing detail. -/
def zigzag : Array Nat :=
  #[0, 1, 8, 16, 9, 2, 3, 10, 17, 24, 32, 25, 18, 11, 4, 5, 12, 19, 26, 33, 40, 48, 41, 34, 27,
    20, 13, 6, 7, 14, 21, 28, 35, 42, 49, 56, 57, 50, 43, 36, 29, 22, 15, 23, 30, 37, 44, 51, 58,
    59, 52, 45, 38, 31, 39, 46, 53, 60, 61, 54, 47, 55, 62, 63]

theorem zigzag_perm : zigzag.toList.Perm (List.range 64) := by decide +kernel

/-- The steps of brightness at quality 50, in the places of the block. -/
def brightnessSteps : List Nat :=
  [16, 11, 10, 16, 24, 40, 51, 61, 12, 12, 14, 19, 26, 58, 60, 55, 14, 13, 16, 24, 40, 57, 69,
    56, 14, 17, 22, 29, 51, 87, 80, 62, 18, 22, 37, 56, 68, 109, 103, 77, 24, 35, 55, 64, 81,
    104, 113, 92, 49, 64, 78, 87, 103, 121, 120, 101, 72, 92, 95, 98, 112, 100, 103, 99]

/-- The steps of colour at quality 50. -/
def colourSteps : List Nat :=
  [17, 18, 24, 47, 99, 99, 99, 99, 18, 21, 26, 66, 99, 99, 99, 99, 24, 26, 56, 99, 99, 99, 99,
    99, 47, 66] ++ List.replicate 38 99

/-- Steps at another quality from 1 to 100. -/
def scaleSteps (quality : Nat) (steps : List Nat) : Array Nat :=
  let scale := if quality < 50 then 5000 / quality else 200 - 2 * quality
  (steps.map fun s => max 1 (min 255 ((s * scale + 50) / 100))).toArray

/-- The bytes with a high half and the low halves from `lo` to 10. -/
def halves (high lo : Nat) : List Nat := (List.range (11 - lo)).map fun i => high * 16 + lo + i

def brightnessBase : PrefixCode :=
  ⟨[0, 1, 5, 1, 1, 1, 1, 1, 1, 0, 0, 0, 0, 0, 0, 0], (List.range 12).toArray⟩

def colourBase : PrefixCode :=
  ⟨[0, 3, 1, 1, 1, 1, 1, 1, 1, 1, 1, 0, 0, 0, 0, 0], (List.range 12).toArray⟩

def brightnessDetail : PrefixCode :=
  ⟨[0, 2, 1, 3, 3, 2, 4, 3, 5, 5, 4, 4, 0, 0, 1, 125],
    ([0x01, 0x02, 0x03, 0x00, 0x04, 0x11, 0x05, 0x12, 0x21, 0x31, 0x41, 0x06, 0x13, 0x51, 0x61,
      0x07, 0x22, 0x71, 0x14, 0x32, 0x81, 0x91, 0xa1, 0x08, 0x23, 0x42, 0xb1, 0xc1, 0x15, 0x52,
      0xd1, 0xf0, 0x24, 0x33, 0x62, 0x72, 0x82, 0x09, 0x0a] ++ halves 1 6 ++ halves 2 5 ++
      halves 3 4 ++ halves 4 3 ++ halves 5 3 ++ halves 6 3 ++ halves 7 3 ++ halves 8 3 ++
      halves 9 2 ++ halves 10 2 ++ halves 11 2 ++ halves 12 2 ++ halves 13 2 ++ halves 14 1 ++
      halves 15 1).toArray⟩

def colourDetail : PrefixCode :=
  ⟨[0, 2, 1, 2, 4, 4, 3, 4, 7, 5, 4, 4, 0, 1, 2, 119],
    ([0x00, 0x01, 0x02, 0x03, 0x11, 0x04, 0x05, 0x21, 0x31, 0x06, 0x12, 0x41, 0x51, 0x07, 0x61,
      0x71, 0x13, 0x22, 0x32, 0x81, 0x08, 0x14, 0x42, 0x91, 0xa1, 0xb1, 0xc1, 0x09, 0x23, 0x33,
      0x52, 0xf0, 0x15, 0x62, 0x72, 0xd1, 0x0a, 0x16, 0x24, 0x34, 0xe1, 0x25, 0xf1] ++
      halves 1 7 ++ halves 2 6 ++ halves 3 5 ++ halves 4 3 ++ halves 5 3 ++ halves 6 3 ++
      halves 7 3 ++ halves 8 2 ++ halves 9 2 ++ halves 10 2 ++ halves 11 2 ++ halves 12 2 ++
      halves 13 2 ++ halves 14 2 ++ halves 15 2).toArray⟩

end TilePyramid.Jpeg
