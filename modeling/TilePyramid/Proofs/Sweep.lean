import TilePyramid.Raster.Basic

/-!
# Sweeps over pixel grids

A sweep changes the cells of a rectangle in a grid that is stored row by row. It changes each cell
of the rectangle once and no other, whatever the order of the steps. Setting a tile into a raster
is a sweep.
-/
namespace TilePyramid

section
variable {β : Type}

/-- Changes `w` cells of one row of a grid with rows of `width` cells, from column `x0` on. -/
def sweepRow (width x0 row w : Nat) (change : Nat → β → β) (cells : Array β) : Array β :=
  (List.range w).foldl (fun cells dx => cells.modify (row * width + (x0 + dx)) (change dx)) cells

/-- Changes the cells of a rectangle of `w` by `h` cells, its corner at `(x0, y0)`. The change
knows the place of a cell within the rectangle. -/
def sweep (width x0 y0 w h : Nat) (change : Nat → Nat → β → β) (cells : Array β) : Array β :=
  (List.range h).foldl (fun cells dy =>
    sweepRow width x0 (y0 + dy) w (fun dx => change dx dy) cells) cells

@[simp] theorem size_sweepRow (width x0 row w : Nat) (change : Nat → β → β) (cells : Array β) :
    (sweepRow width x0 row w change cells).size = cells.size := by
  induction w with
  | zero => rfl
  | succ w ih => simpa only [sweepRow, List.range_succ, List.foldl_append, List.foldl_cons,
      List.foldl_nil, Array.size_modify] using ih

@[simp] theorem size_sweep (width x0 y0 w h : Nat) (change : Nat → Nat → β → β)
    (cells : Array β) : (sweep width x0 y0 w h change cells).size = cells.size := by
  induction h with
  | zero => rfl
  | succ h ih => simpa only [sweep, List.range_succ, List.foldl_append, List.foldl_cons,
      List.foldl_nil, size_sweepRow] using ih

theorem gridIndex_lt {width height u v : Nat} (hu : u < width) (hv : v < height) :
    v * width + u < width * height := by
  have hrow := Nat.mul_le_mul_right width (Nat.succ_le_of_lt hv)
  rw [Nat.succ_mul, Nat.mul_comm height] at hrow
  omega

theorem gridIndex_inj {width u u' v v' : Nat} (hu : u < width) (hu' : u' < width) :
    v * width + u = v' * width + u' ↔ v = v' ∧ u = u' := by
  constructor
  · intro h
    have hv : (v * width + u) / width = v := by
      rw [Nat.mul_comm, Nat.mul_add_div (by omega), Nat.div_eq_of_lt hu, Nat.add_zero]
    have hv' : (v' * width + u') / width = v' := by
      rw [Nat.mul_comm, Nat.mul_add_div (by omega), Nat.div_eq_of_lt hu', Nat.add_zero]
    have he : v = v' := by rw [← hv, ← hv', h]
    subst he
    exact ⟨rfl, by omega⟩
  · rintro ⟨rfl, rfl⟩
    rfl

private theorem getElem?_sweepRow {width x0 row w : Nat} (change : Nat → β → β)
    (cells : Array β) (hw : x0 + w ≤ width) {u v : Nat} (hu : u < width) :
    (sweepRow width x0 row w change cells)[v * width + u]? =
      if v = row ∧ x0 ≤ u ∧ u < x0 + w then cells[v * width + u]?.map (change (u - x0))
      else cells[v * width + u]? := by
  induction w with
  | zero =>
    rw [if_neg (by omega)]
    rfl
  | succ w ih =>
    have ih := ih (by omega)
    have step : sweepRow width x0 row (w + 1) change cells =
        (sweepRow width x0 row w change cells).modify (row * width + (x0 + w)) (change w) := by
      simp only [sweepRow, List.range_succ, List.foldl_append, List.foldl_cons, List.foldl_nil]
    have hidx : row * width + (x0 + w) = v * width + u ↔ row = v ∧ x0 + w = u :=
      gridIndex_inj (by omega) hu
    rw [step, Array.getElem?_modify, ih]
    -- The last step reaches one cell, which the steps before it have left alone.
    by_cases hlast : row = v ∧ x0 + w = u
    · rw [if_pos (hidx.mpr hlast)]
      obtain ⟨rfl, rfl⟩ := hlast
      rw [if_neg (by omega), if_pos (by omega), Nat.add_sub_cancel_left]
    · rw [if_neg (mt hidx.mp hlast)]
      by_cases hin : v = row ∧ x0 ≤ u ∧ u < x0 + w
      · rw [if_pos hin, if_pos (by omega)]
      · rw [if_neg hin, if_neg (by omega)]

/-- After a sweep a cell of the rectangle is changed once, and every other cell is as before. -/
theorem getElem?_sweep {width x0 y0 w h : Nat} (change : Nat → Nat → β → β) (cells : Array β)
    (hw : x0 + w ≤ width) {u v : Nat} (hu : u < width) :
    (sweep width x0 y0 w h change cells)[v * width + u]? =
      if (x0 ≤ u ∧ u < x0 + w) ∧ y0 ≤ v ∧ v < y0 + h then
        cells[v * width + u]?.map (change (u - x0) (v - y0))
      else cells[v * width + u]? := by
  induction h with
  | zero =>
    rw [if_neg (by omega)]
    rfl
  | succ h ih =>
    have step : sweep width x0 y0 w (h + 1) change cells =
        sweepRow width x0 (y0 + h) w (fun dx => change dx h)
          (sweep width x0 y0 w h change cells) := by
      simp only [sweep, List.range_succ, List.foldl_append, List.foldl_cons, List.foldl_nil]
    rw [step, getElem?_sweepRow _ _ hw hu, ih]
    by_cases hlast : v = y0 + h ∧ x0 ≤ u ∧ u < x0 + w
    · obtain ⟨rfl, hx⟩ := hlast
      rw [if_pos ⟨rfl, hx⟩, if_neg (by omega), if_pos (by omega), Nat.add_sub_cancel_left]
    · rw [if_neg hlast]
      by_cases hin : (x0 ≤ u ∧ u < x0 + w) ∧ y0 ≤ v ∧ v < y0 + h
      · rw [if_pos hin, if_pos (by omega)]
      · rw [if_neg hin, if_neg (by omega)]

end

namespace Raster

variable {σ : Type}

theorem size_tabulate (width height bands : Nat) (channel : Channel)
    (f : Nat → Nat → Pixel σ) :
    (tabulate width height bands channel f).pixels.size = width * height :=
  Array.size_ofFn

theorem pixel?_tabulate {width height bands : Nat} {channel : Channel}
    {f : Nat → Nat → Pixel σ} {x y : Nat} (hx : x < width) (hy : y < height) :
    (tabulate width height bands channel f).pixel? x y = some (f x y) := by
  have hi := gridIndex_lt hx hy
  have hmod : (y * width + x) % width = x := by
    rw [Nat.mul_comm, Nat.mul_add_mod, Nat.mod_eq_of_lt hx]
  have hdiv : (y * width + x) / width = y := by
    rw [Nat.mul_comm, Nat.mul_add_div (by omega), Nat.div_eq_of_lt hx, Nat.add_zero]
  simp only [pixel?, tabulate, Array.getElem?_ofFn, dif_pos hi, hmod, hdiv]

theorem tabulate_congr {width height bands : Nat} {channel : Channel}
    {f g : Nat → Nat → Pixel σ} (h : ∀ x < width, ∀ y < height, f x y = g x y) :
    tabulate width height bands channel f = tabulate width height bands channel g := by
  simp only [tabulate, mk.injEq, true_and]
  congr 1
  funext i
  have hw : 0 < width := Nat.pos_of_mul_pos_right (Nat.zero_lt_of_lt i.isLt)
  exact h _ (Nat.mod_lt _ hw) _ (Nat.div_lt_of_lt_mul i.isLt)

variable [Arith σ]

theorem pixel_tabulate {width height bands : Nat} {channel : Channel}
    {f : Nat → Nat → Pixel σ} {x y : Nat} (hx : x < width) (hy : y < height) :
    (tabulate width height bands channel f).pixel x y = f x y := by
  rw [pixel, pixel?_tabulate hx hy, Option.getD_some]

theorem size_blank (width height bands : Nat) (channel : Channel) :
    (blank width height bands channel : Raster σ).pixels.size = width * height :=
  size_tabulate ..

theorem blit_eq_sweep (r tile : Raster σ) (x y : Nat) :
    r.blit tile x y =
      { r with
        pixels := sweep r.width x y tile.width tile.height (fun dx dy _ => tile.pixel dx dy)
          r.pixels } := by
  have row (w dy : Nat) (r : Raster σ) :
      (List.range w).foldl (fun r dx =>
          r.modify (x + dx) (y + dy) fun _ => tile.pixel dx dy) r =
        { r with
          pixels := sweepRow r.width x (y + dy) w (fun dx _ => tile.pixel dx dy) r.pixels } := by
    induction w with
    | zero => rfl
    | succ w ih =>
      rw [List.range_succ, List.foldl_append, ih]
      simp only [sweepRow, modify, List.range_succ, List.foldl_append, List.foldl_cons,
        List.foldl_nil]
  rw [blit]
  induction tile.height with
  | zero => rfl
  | succ h ih =>
    rw [List.range_succ, List.foldl_append, ih, List.foldl_cons, List.foldl_nil, row]
    simp only [sweep, List.range_succ, List.foldl_append, List.foldl_cons, List.foldl_nil]

@[simp] theorem blit_width (r tile : Raster σ) (x y : Nat) : (r.blit tile x y).width = r.width := by
  rw [blit_eq_sweep]

@[simp] theorem blit_height (r tile : Raster σ) (x y : Nat) :
    (r.blit tile x y).height = r.height := by
  rw [blit_eq_sweep]

@[simp] theorem blit_bands (r tile : Raster σ) (x y : Nat) : (r.blit tile x y).bands = r.bands := by
  rw [blit_eq_sweep]

@[simp] theorem blit_channel (r tile : Raster σ) (x y : Nat) :
    (r.blit tile x y).channel = r.channel := by
  rw [blit_eq_sweep]

@[simp] theorem blit_size (r tile : Raster σ) (x y : Nat) :
    (r.blit tile x y).pixels.size = r.pixels.size := by
  rw [blit_eq_sweep]
  exact size_sweep ..

theorem exists_foldl_blit {ι : Type} (tiles : List ι) (raster : ι → Raster σ) (left top : ι → Nat)
    (r : Raster σ) :
    ∃ pixels, pixels.size = r.pixels.size ∧
      tiles.foldl (fun r i => r.blit (raster i) (left i) (top i)) r =
        { r with pixels := pixels } := by
  induction tiles generalizing r with
  | nil => exact ⟨r.pixels, rfl, rfl⟩
  | cons i rest ih =>
    obtain ⟨pixels, hsize, hr⟩ := ih (r.blit (raster i) (left i) (top i))
    refine ⟨pixels, hsize.trans (blit_size ..), ?_⟩
    rw [List.foldl_cons, hr, blit_eq_sweep]

theorem eq_tabulate {r : Raster σ} (hsize : r.pixels.size = r.width * r.height) :
    r = tabulate r.width r.height r.bands r.channel r.pixel := by
  have hpixels : r.pixels = (tabulate r.width r.height r.bands r.channel r.pixel).pixels := by
    apply Array.ext
    · simp only [tabulate, Array.size_ofFn, hsize]
    · intro i hi hi'
      simp only [tabulate, Array.getElem_ofFn, pixel, pixel?]
      rw [Nat.div_add_mod', Array.getElem?_eq_getElem hi, Option.getD_some]
  exact congrArg (fun pixels => { r with pixels := pixels }) hpixels

end Raster
end TilePyramid
