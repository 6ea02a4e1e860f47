import TilePyramid.Proofs.GridTransforms

/-!
# Images in degrees on a canvas in degrees

Without a projection each coordinate of an image on the canvas is an affine function of the pixel,
however the image is turned or sheared. Over a rectangle such a function is least at one corner and
greatest at another. Corners are among the grid points for every number of steps, so that the box of
the grid points is the box of the whole image, rounded outwards and cut to indices of 64 bits. The
way there and back misses nothing. Main statement: an image in degrees is placed without a shift.
-/
namespace TilePyramid

open ExactArith

/-- Whole numbers become the nearest index of 64 bits. -/
class SaturatingIndex (α : Type) [Arith α] : Prop where
  toInt_ofInt (n : Int) : Arith.toInt (ofInt n : α) = max (-2 ^ 63) (min (2 ^ 63 - 1) n)

instance : SaturatingIndex Rat where
  toInt_ofInt n := by
    change truncated n = _
    rw [truncated, Rat.ceil_intCast, Rat.floor_intCast, ite_self]
    rfl

/-- The nearest number in the range of an index of 64 bits. -/
def indexCut (q : Rat) : Rat := max (-2 ^ 63) (min (2 ^ 63 - 1) q)

theorem indexCut_mono {p q : Rat} (h : p ≤ q) : indexCut p ≤ indexCut q :=
  max_le_max_left _ (min_le_min_left _ h)

theorem indexCut_add_le (q : Rat) {d : Rat} (hd : 0 ≤ d) : indexCut (q + d) ≤ indexCut q + d := by
  rw [indexCut, indexCut, ← max_add_add_right, ← min_add_add_right]
  exact max_le_max (le_add_of_nonneg_right hd) (min_le_min_right _ (le_add_of_nonneg_right hd))

/-- The point lies in the box or on its edge. -/
def PixelBox.Holds {α : Type} [Arith α] (b : PixelBox) (p : α × α) : Prop :=
  ofInt b.minX ≤ p.1 ∧ p.1 ≤ ofInt b.maxX ∧ ofInt b.minY ≤ p.2 ∧ p.2 ≤ ofInt b.maxY

namespace GridTransform

/-- The box holds the image of a rectangle up to a millionth of a pixel, and on each side it reaches
less than a pixel further than some point of the image. Coordinates are cut before. -/
structure IsBoxOf {α : Type} [Cartography α] [ExactArith α] (cut : Rat → Rat)
    (t : GridTransform α) (rectangle box : PixelBox) : Prop where
  holds (p q : α × α) (hp : rectangle.Holds p) (hq : t.forward p = some q) :
    box.minX ≤ cut (value q.1) + 1 / 1000000 ∧ cut (value q.1) ≤ box.maxX + 1 / 1000000 ∧
      box.minY ≤ cut (value q.2) + 1 / 1000000 ∧ cut (value q.2) ≤ box.maxY + 1 / 1000000
  left : ∃ p q, rectangle.Holds p ∧ t.forward p = some q ∧ cut (value q.1) < box.minX + 1
  right : ∃ p q, rectangle.Holds p ∧ t.forward p = some q ∧ box.maxX < cut (value q.1) + 1
  top : ∃ p q, rectangle.Holds p ∧ t.forward p = some q ∧ cut (value q.2) < box.minY + 1
  bottom : ∃ p q, rectangle.Holds p ∧ t.forward p = some q ∧ box.maxY < cut (value q.2) + 1

variable {α : Type} [Cartography α] [ExactRounding α]

omit [ExactRounding α] in
theorem IsBoxOf.nonneg [ExactArith α] {cut : Rat → Rat} {t : GridTransform α}
    {rectangle box : PixelBox} (h : t.IsBoxOf cut rectangle box) {p q : α × α}
    (hp : rectangle.Holds p) (hq : t.forward p = some q) : 0 ≤ box.width ∧ 0 ≤ box.height := by
  obtain ⟨hleft, hright, htop, hbottom⟩ := h.holds p q hp hq
  have hcolumns : (box.minX : Rat) < (box.maxX + 1 : Int) := by
    push_cast
    linarith
  have hrows : (box.minY : Rat) < (box.maxY + 1 : Int) := by
    push_cast
    linarith
  rw [Int.cast_lt] at hcolumns hrows
  simp only [PixelBox.width, PixelBox.height]
  omega

section edges
variable [SaturatingIndex α]

omit [ExactRounding α] in
private theorem cast_toInt (n : Int) : (Arith.toInt (ofInt n : α) : Rat) = indexCut n := by
  rw [SaturatingIndex.toInt_ofInt, indexCut]
  norm_num

omit [SaturatingIndex α] in
private theorem value_edgeTolerance : value (edgeTolerance : α) = 1 / 1000000 := by
  simp [edgeTolerance]

private theorem first_pixel (least : α) :
    let first := Arith.toInt (Arith.floor (least + edgeTolerance))
    (∀ v, value least ≤ v → first ≤ indexCut v + 1 / 1000000) ∧
      indexCut (value least) < first + 1 := by
  intro first
  have hfloor : Arith.floor (least + edgeTolerance) = ofInt ⌊value least + 1 / 1000000⌋ :=
    value_injective (by simp [value_edgeTolerance])
  have hfirst : (first : Rat) = indexCut ⌊value least + 1 / 1000000⌋ := by
    rw [← cast_toInt (α := α), ← hfloor]
  have hle := Int.floor_le (value least + 1 / 1000000)
  have hlt := Int.lt_floor_add_one (value least + 1 / 1000000)
  rw [hfirst]
  constructor
  · intro v hv
    calc indexCut ⌊value least + 1 / 1000000⌋
      _ ≤ indexCut (v + 1 / 1000000) := indexCut_mono (by linarith)
      _ ≤ indexCut v + 1 / 1000000 := indexCut_add_le v (by norm_num)
  · calc indexCut (value least)
      _ ≤ indexCut (⌊value least + 1 / 1000000⌋ + (1 - 1 / 1000000)) :=
        indexCut_mono (by linarith)
      _ ≤ indexCut ⌊value least + 1 / 1000000⌋ + (1 - 1 / 1000000) :=
        indexCut_add_le _ (by norm_num)
      _ < indexCut ⌊value least + 1 / 1000000⌋ + 1 := by linarith

private theorem last_pixel (greatest : α) :
    let last := Arith.toInt (Arith.ceil (greatest - edgeTolerance))
    (∀ v, v ≤ value greatest → indexCut v ≤ last + 1 / 1000000) ∧
      last < indexCut (value greatest) + 1 := by
  intro last
  have hceil : Arith.ceil (greatest - edgeTolerance) = ofInt ⌈value greatest - 1 / 1000000⌉ :=
    value_injective (by simp [value_edgeTolerance])
  have hlast : (last : Rat) = indexCut ⌈value greatest - 1 / 1000000⌉ := by
    rw [← cast_toInt (α := α), ← hceil]
  have hle := Int.le_ceil (value greatest - 1 / 1000000)
  have hlt := Int.ceil_lt_add_one (value greatest - 1 / 1000000)
  rw [hlast]
  constructor
  · intro v hv
    calc indexCut v
      _ ≤ indexCut (⌈value greatest - 1 / 1000000⌉ + 1 / 1000000) := indexCut_mono (by linarith)
      _ ≤ indexCut ⌈value greatest - 1 / 1000000⌉ + 1 / 1000000 := indexCut_add_le _ (by norm_num)
  · calc indexCut ⌈value greatest - 1 / 1000000⌉
      _ ≤ indexCut (value greatest + (1 - 1 / 1000000)) := indexCut_mono (by linarith)
      _ ≤ indexCut (value greatest) + (1 - 1 / 1000000) := indexCut_add_le _ (by norm_num)
      _ < indexCut (value greatest) + 1 := by linarith

end edges

section corners

/-- The coordinate is affine in the columns and the rows. -/
def IsAffineIn (f : α × α → α) : Prop :=
  ∃ a b c : Rat, ∀ p, value (f p) = a * value p.1 + b * value p.2 + c

variable {f : α × α → α} {b : PixelBox}

theorem IsAffineIn.neg (hf : IsAffineIn f) : IsAffineIn fun p => -f p := by
  obtain ⟨k, l, m, hf⟩ := hf
  refine ⟨-k, -l, -m, fun p => ?_⟩
  rw [ExactRounding.value_neg, hf]
  ring

theorem IsAffineIn.add_const (hf : IsAffineIn f) (v : α) : IsAffineIn fun p => f p + v := by
  obtain ⟨k, l, m, hf⟩ := hf
  refine ⟨k, l, m + value v, fun p => ?_⟩
  rw [value_add, hf]
  ring

theorem IsAffineIn.apply {g : α × α → α} (hf : IsAffineIn f) (hg : IsAffineIn g) (t : Affine α) :
    IsAffineIn (fun p => (t.apply (f p, g p)).1) ∧ IsAffineIn fun p => (t.apply (f p, g p)).2 := by
  obtain ⟨k, l, m, hf⟩ := hf
  obtain ⟨k', l', m', hg⟩ := hg
  have hsum (u v w : α) : IsAffineIn fun p => u * f p + v * g p + w := by
    refine ⟨value u * k + value v * k', value u * l + value v * l',
      value u * m + value v * m' + value w, fun p => ?_⟩
    simp only [value_add, value_mul, hf, hg]
    ring
  exact ⟨hsum _ _ _, hsum _ _ _⟩

private theorem exists_gridLine_le (k : Rat) {start size : Int} (hsize : 0 ≤ size) {t : α}
    (hlo : ofInt start ≤ t) (hhi : t ≤ ofInt (start + size)) :
    ∃ u ∈ (gridLine start size : List α), k * value u ≤ k * value t := by
  obtain ⟨hfirst, hlast, -⟩ := isRangeOf_gridLine (α := α) start hsize
  rcases le_total 0 k with hk | hk
  · exact ⟨_, hfirst, mul_le_mul_of_nonneg_left ((le_iff _ _).mp hlo) hk⟩
  · exact ⟨_, hlast, mul_le_mul_of_nonpos_left ((le_iff _ _).mp hhi) hk⟩

theorem IsAffineIn.exists_gridPoint_le (hf : IsAffineIn f) (hb : b.isEmpty = false) {p : α × α}
    (hp : b.Holds p) : ∃ q ∈ gridPoints b, value (f q) ≤ value (f p) := by
  obtain ⟨k, l, m, hf⟩ := hf
  obtain ⟨hw, hh⟩ := PixelBox.isEmpty_eq_false_iff.mp hb
  obtain ⟨hleft, hright, htop, hbottom⟩ := hp
  rw [← add_sub_cancel b.minX b.maxX] at hright
  rw [← add_sub_cancel b.minY b.maxY] at hbottom
  obtain ⟨x, hx, hcolumn⟩ := exists_gridLine_le k (Int.sub_nonneg_of_le hw.le) hleft hright
  obtain ⟨y, hy, hrow⟩ := exists_gridLine_le l (Int.sub_nonneg_of_le hh.le) htop hbottom
  refine ⟨(x, y), (mem_gridPoints b x y).mpr ⟨hx, hy⟩, ?_⟩
  rw [hf, hf]
  linarith

theorem holds_of_mem_gridPoints (hb : b.isEmpty = false) {p : α × α} (hp : p ∈ gridPoints b) :
    b.Holds p := by
  obtain ⟨⟨-, -, hcolumns⟩, -, -, hrows⟩ := isRangeOf_gridPoints (α := α) hb
  obtain ⟨hleft, hright⟩ := hcolumns _ (List.mem_map_of_mem hp)
  obtain ⟨htop, hbottom⟩ := hrows _ (List.mem_map_of_mem hp)
  exact ⟨hleft, hright, htop, hbottom⟩

/-- The range of an affine coordinate over the grid points is its range over the rectangle. -/
theorem IsAffineIn.range_eq (hf : IsAffineIn f) (hb : b.isEmpty = false) {r : ValueRange α}
    (hr : ValueRange.IsRangeOf (some r) ((gridPoints b).map f)) :
    (∃ p, b.Holds p ∧ f p = r.lo) ∧ (∃ p, b.Holds p ∧ f p = r.hi) ∧
      ∀ p, b.Holds p → value r.lo ≤ value (f p) ∧ value (f p) ≤ value r.hi := by
  obtain ⟨hlo, hhi, hin⟩ := hr
  have hattained {v : α} (hv : v ∈ (gridPoints b).map f) : ∃ p, b.Holds p ∧ f p = v := by
    obtain ⟨p, hp, hpv⟩ := List.mem_map.mp hv
    exact ⟨p, holds_of_mem_gridPoints hb hp, hpv⟩
  refine ⟨hattained hlo, hattained hhi, fun p hp => ⟨?_, ?_⟩⟩
  · obtain ⟨q, hq, hle⟩ := hf.exists_gridPoint_le hb hp
    exact ((le_iff _ _).mp (hin _ (List.mem_map_of_mem hq)).1).trans hle
  · obtain ⟨q, hq, hle⟩ := hf.neg.exists_gridPoint_le hb hp
    rw [ExactRounding.value_neg, ExactRounding.value_neg, neg_le_neg_iff] at hle
    exact hle.trans ((le_iff _ _).mp (hin _ (List.mem_map_of_mem hq)).2)

end corners

/-- Both grids have their pixels at degrees. -/
structure IsAffine (t : GridTransform α) : Prop where
  source : t.source.IsAffine
  target : t.target.IsAffine

variable {t : GridTransform α}

/-- The target pixel of a source pixel. -/
def image (t : GridTransform α) (p : α × α) : α × α :=
  let q := t.target.inverse.apply (t.source.transform.apply p)
  (q.1 + t.offset.1, q.2 + t.offset.2)

omit [ExactRounding α] in
theorem IsAffine.forward (ht : t.IsAffine) (p : α × α) : t.forward p = some (t.image p) := by
  simp only [GridTransform.forward, ht.source.pixelToDegrees, GeoReference.degreesToPixel,
    GeoReference.degreesToPoint, ht.target.projector, Option.bind_eq_bind, Option.bind_some]
  rfl

theorem IsAffine.reverse_image (ht : t.IsAffine) (p : α × α) : t.reverse (t.image p) = some p := by
  have hback (v d : α) : v + d - d = v := value_injective (by simp)
  simp only [reverse, image, hback, ht.target.pixelToDegrees,
    (Affine.apply_inverse ht.target.inverse _).2, Option.bind_eq_bind, Option.bind_some,
    ht.source.degreesToPixel]

theorem IsAffine.exists_image (ht : t.IsAffine) (q : α × α) :
    ∃ p, t.reverse q = some p ∧ t.image p = q := by
  have hback (v d : α) : v - d + d = v := value_injective (by simp)
  refine ⟨t.source.inverse.apply (t.target.transform.apply (q.1 - t.offset.1, q.2 - t.offset.2)),
    ?_, ?_⟩
  · simp only [reverse, ht.target.pixelToDegrees, GeoReference.degreesToPixel,
      GeoReference.degreesToPoint, ht.source.projector, Option.bind_eq_bind, Option.bind_some]
    rfl
  · simp only [image, (Affine.apply_inverse ht.source.inverse _).2,
      (Affine.apply_inverse ht.target.inverse _).1, hback]

theorem isAffineIn_image (t : GridTransform α) :
    IsAffineIn (fun p => (t.image p).1) ∧ IsAffineIn fun p => (t.image p).2 := by
  have hcolumn : IsAffineIn (Prod.fst : α × α → α) := ⟨1, 0, 0, fun p => by ring⟩
  have hrow : IsAffineIn (Prod.snd : α × α → α) := ⟨0, 1, 0, fun p => by ring⟩
  obtain ⟨hlon, hlat⟩ := hcolumn.apply hrow t.source.transform
  obtain ⟨hx, hy⟩ := hlon.apply hlat t.target.inverse
  exact ⟨hx.add_const t.offset.1, hy.add_const t.offset.2⟩

/-- The box of a rectangle holds its image and is no larger than it has to be. -/
theorem IsAffine.isBoxOf [SaturatingIndex α] (ht : t.IsAffine) {b : PixelBox}
    (hb : b.isEmpty = false) : t.IsBoxOf indexCut b (t.forwardBox b) := by
  obtain ⟨e, hbox, hcolumns, hrows⟩ := exists_extent ht.forward hb
  obtain ⟨haffineX, haffineY⟩ := t.isAffineIn_image
  obtain ⟨⟨p, hp, hleft⟩, ⟨p', hp', hright⟩, hcolumn⟩ := haffineX.range_eq hb hcolumns
  obtain ⟨⟨q, hq, htop⟩, ⟨q', hq', hbottom⟩, hrow⟩ := haffineY.range_eq hb hrows
  obtain ⟨hleftHolds, hleftTight⟩ := first_pixel e.minX
  obtain ⟨hrightHolds, hrightTight⟩ := last_pixel e.maxX
  obtain ⟨htopHolds, htopTight⟩ := first_pixel e.minY
  obtain ⟨hbottomHolds, hbottomTight⟩ := last_pixel e.maxY
  rw [hbox]
  constructor
  case holds =>
    intro v w hv hw
    rw [ht.forward, Option.some.injEq] at hw
    subst hw
    exact ⟨hleftHolds _ (hcolumn v hv).1, hrightHolds _ (hcolumn v hv).2,
      htopHolds _ (hrow v hv).1, hbottomHolds _ (hrow v hv).2⟩
  case left =>
    refine ⟨p, _, hp, ht.forward p, ?_⟩
    rw [hleft]
    exact hleftTight
  case right =>
    refine ⟨p', _, hp', ht.forward p', ?_⟩
    rw [hright]
    exact hrightTight
  case top =>
    refine ⟨q, _, hq, ht.forward q, ?_⟩
    rw [htop]
    exact htopTight
  case bottom =>
    refine ⟨q', _, hq', ht.forward q', ?_⟩
    rw [hbottom]
    exact hbottomTight

end GridTransform

section
variable {α σ : Type} [Cartography α] [Arith σ] [ExactCartography α] [SaturatingIndex α]

/-- Images in degrees on a canvas in degrees. Pixels of both grids come back to where they were.
The box of an image holds all of it and is less than a pixel too large on each side, up to the
range of an index. An image that is placed has no shift and closes on itself or ends at its edge,
and none is refused for being turned. If the sides of its box are numbers of 64 bits like the
edges, the image is placed unless the box is empty. -/
theorem Placement.place_degrees {definition definition' : String} {datum datum' : Datum α}
    {transform transform' : Affine α} {source target : GeoReference α}
    (hsource : GeoReference.make definition datum transform = .ok source)
    (hsourceDegrees : source.isDegrees = true)
    (htarget : GeoReference.make definition' datum' transform' = .ok target)
    (htargetDegrees : target.isDegrees = true) :
    (∀ offset : α × α,
      let t : GridTransform α := ⟨source, target, offset⟩
      (∀ p, (t.forward p).bind t.reverse = some p) ∧
        (∀ q, (t.reverse q).bind t.forward = some q) ∧
        ∀ cols rows : Nat, 1 ≤ cols → 1 ≤ rows →
          t.IsBoxOf indexCut (.ofImage cols rows) (t.forwardBox (.ofImage cols rows))) ∧
    ∀ (input : PlacementInput α σ) (adjustments : Adjustments σ), input.georef = source →
      let box := (GridTransform.between source target).forwardBox
        (.ofImage input.source.cols input.source.rows)
      (match place input target adjustments with
        | .ok p => p.shift = (ofInt 0, ofInt 0) ∧ (p.edge = .zero ∨ p.edge = .cylindrical)
        | .error e => ∀ name, e ≠ .reprojection (.rotatedFault name)) ∧
      (1 ≤ input.source.cols → 1 ≤ input.source.rows → box.width < 2 ^ 63 → box.height < 2 ^ 63 →
        if box.isEmpty then
          place input target adjustments =
            .error (.reprojection (.degenerate input.source.name box.width box.height))
        else (place input target adjustments).isOk = true) := by
  have haffine (offset : α × α) : GridTransform.IsAffine ⟨source, target, offset⟩ :=
    ⟨GeoReference.isAffine_make hsource hsourceDegrees,
      GeoReference.isAffine_make htarget htargetDegrees⟩
  have hboxOf (offset : α × α) {cols rows : Nat} (hcols : 1 ≤ cols) (hrows : 1 ≤ rows) :
      GridTransform.IsBoxOf indexCut ⟨source, target, offset⟩ (.ofImage cols rows)
        (GridTransform.forwardBox ⟨source, target, offset⟩ (.ofImage cols rows)) := by
    refine (haffine offset).isBoxOf (PixelBox.isEmpty_eq_false_iff.mpr ?_)
    simp only [PixelBox.ofImage, PixelBox.ofSize]
    omega
  refine ⟨fun offset => ⟨fun p => ?_, fun q => ?_, fun cols rows => hboxOf offset⟩,
    fun input adjustments hinput => ?_⟩
  · rw [(haffine offset).forward, Option.bind_some, (haffine offset).reverse_image]
  · obtain ⟨p, hp, hq⟩ := (haffine offset).exists_image q
    rw [hp, Option.bind_some, (haffine offset).forward, hq]
  · subst hinput
    intro box
    have ht : (GridTransform.between input.georef target).IsAffine := haffine _
    have hback : ((GridTransform.between input.georef target).forward (ofInt 0, ofInt 0)).bind
        (GridTransform.between input.georef target).reverse = some (ofInt 0, ofInt 0) := by
      rw [ht.forward, Option.bind_some, ht.reverse_image]
    obtain ⟨edge, hedge, hplace⟩ := place_of_fault?_eq_none input
      (GridTransform.fault?_eq_none hback input.source.cols input.source.rows) adjustments
    rw [hplace]
    refine ⟨?_, fun hcols hrows hwidth hheight => ?_⟩
    · split
      · next hp =>
        split at hp
        · cases hp
        · obtain rfl := Except.ok.inj hp
          exact ⟨rfl, hedge⟩
      · next he =>
        split at he
        · obtain rfl := Except.error.inj he
          simp
        · cases he
    · have hstart : (ofInt 0 : α) ≤ ofInt 0 := (le_iff _ _).mpr le_rfl
      have hend (n : Nat) : (ofInt 0 : α) ≤ ofInt (0 + n) := (le_iff _ _).mpr (by simp)
      have hcorner : (PixelBox.ofImage input.source.cols input.source.rows).Holds
          ((ofInt 0, ofInt 0) : α × α) := ⟨hstart, hend _, hstart, hend _⟩
      have hsides : 0 ≤ box.width ∧ 0 ≤ box.height :=
        (hboxOf _ hcols hrows).nonneg hcorner (ht.forward _)
      have hcolumns : wrapIndex box.width = box.width := wrapIndex_eq (by omega) hwidth
      have hlines : wrapIndex box.height = box.height := wrapIndex_eq (by omega) hheight
      by_cases hempty : box.width ≤ 0 ∨ box.height ≤ 0
      · rw [if_pos (by simpa [PixelBox.isEmpty] using hempty), hcolumns, hlines, if_pos hempty]
      · rw [if_neg (by simpa [PixelBox.isEmpty] using hempty), hcolumns, hlines, if_neg hempty]
        rfl

end

/-- A turned image on a sheared canvas. -/
theorem Placement.place_degrees_turned :
    ∃ source target : GeoReference Rat,
      GeoReference.ofDegrees ⟨1, 1, 0, 1, -1, 0⟩ .wgs84 = .ok source ∧
      GeoReference.ofDegrees ⟨2, 1, 5, 0, -1, 3⟩ .wgs84 = .ok target ∧
      let t : GridTransform Rat := ⟨source, target, 1 / 2, 0⟩
      (t.forward (3, 2)).bind t.reverse = some (3, 2) ∧
        (t.reverse (1, 7)).bind t.forward = some (1, 7) ∧
        t.IsBoxOf indexCut (.ofImage 3 2) (t.forwardBox (.ofImage 3 2)) := by
  have hturned : value (⟨1, 1, 0, 1, -1, 0⟩ : Affine Rat).determinant ≠ 0 := by decide +kernel
  have hsheared : value (⟨2, 1, 5, 0, -1, 3⟩ : Affine Rat).determinant ≠ 0 := by decide +kernel
  obtain ⟨source, hsource, hsourceDegrees⟩ := GeoReference.exists_ofDegrees hturned .wgs84
  obtain ⟨target, htarget, htargetDegrees⟩ := GeoReference.exists_ofDegrees hsheared .wgs84
  obtain ⟨hgrids, -⟩ :=
    place_degrees (σ := Rat) hsource hsourceDegrees htarget htargetDegrees
  obtain ⟨hforward, hreverse, hbox⟩ := hgrids (1 / 2, 0)
  exact ⟨source, target, hsource, htarget, hforward _, hreverse _,
    hbox 3 2 (by decide) (by decide)⟩

/-- The end of a box that is too far away becomes the last index of 64 bits. -/
theorem GridTransform.not_isBoxOf_far :
    ∃ source target : GeoReference Rat,
      GeoReference.ofDegrees (.steps (10 ^ 20) (-1) 0 0) .wgs84 = .ok source ∧
      source.isDegrees = true ∧
      GeoReference.ofDegrees (.steps 1 (-1) 0 0) .wgs84 = .ok target ∧
      target.isDegrees = true ∧
      let t := GridTransform.between source target
      ¬ t.IsBoxOf id (.ofImage 1 1) (t.forwardBox (.ofImage 1 1)) := by
  have hlarge : value (Affine.steps (10 ^ 20 : Rat) (-1) 0 0).determinant ≠ 0 := by decide +kernel
  have hunit : value (Affine.steps (1 : Rat) (-1) 0 0).determinant ≠ 0 := by decide +kernel
  obtain ⟨source, hsource, hsourceDegrees⟩ := GeoReference.exists_ofDegrees hlarge .wgs84
  obtain ⟨target, htarget, htargetDegrees⟩ := GeoReference.exists_ofDegrees hunit .wgs84
  refine ⟨source, target, hsource, hsourceDegrees, htarget, htargetDegrees, fun hbox => ?_⟩
  have ht : (between source target).IsAffine :=
    ⟨GeoReference.isAffine_make hsource hsourceDegrees,
      GeoReference.isAffine_make htarget htargetDegrees⟩
  obtain ⟨e, hextent, -⟩ := exists_extent (b := .ofImage 1 1) ht.forward (by decide)
  have hlast : ((between source target).forwardBox (.ofImage 1 1)).maxX ≤ 2 ^ 63 - 1 := by
    rw [hextent]
    exact max_le (by decide) (min_le_left _ _)
  have hinverse : (Affine.steps (1 : Rat) (-1) 0 0).inverse? = some ⟨1, 0, 0, 0, -1, 0⟩ := by
    decide +kernel
  have himage : ((between source target).image (1, 0)).1 = 10 ^ 20 := by
    have htransform := (GeoReference.make_eq_ok hsource).1
    have htargetInverse := (GeoReference.make_eq_ok htarget).2
    rw [hinverse, Option.some.injEq] at htargetInverse
    simp only [image, between, htransform, ← htargetInverse]
    decide +kernel
  have hcorner : (PixelBox.ofImage 1 1).Holds ((1, 0) : Rat × Rat) := by
    rw [PixelBox.Holds]
    decide +kernel
  have hholds := (hbox.holds (1, 0) _ hcorner (ht.forward (1, 0))).2.1
  change ((between source target).image (1, 0)).1 ≤ _ at hholds
  rw [himage] at hholds
  have hlast : (((between source target).forwardBox (.ofImage 1 1)).maxX : Rat) ≤ 2 ^ 63 - 1 := by
    exact_mod_cast hlast
  linarith

end TilePyramid
