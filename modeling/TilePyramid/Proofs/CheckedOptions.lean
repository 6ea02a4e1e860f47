import TilePyramid.Proofs.CommonFormat

/-!
# Options that have passed their check

The check of the options fills in the output name and the bounds before it has found out all that
may be wrong with them. Main statement: what it leaves passes it again unchanged, and a run of what
it leaves has one source for every input, and a single one where it works with just one.
-/
namespace TilePyramid

theorem map_eq_of_mapM {ε β γ δ : Type} {f : β → Except ε γ} {k : γ → δ} {g : β → δ}
    (hf : ∀ x y, f x = .ok y → k y = g x) {xs : List β} {ys : List γ} (h : xs.mapM f = .ok ys) :
    ys.map k = xs.map g := by
  induction xs generalizing ys with
  | nil =>
    obtain rfl := Except.ok.inj h
    rfl
  | cons x xs ih =>
    rw [List.mapM_cons] at h
    obtain ⟨y, hy, h⟩ := bind_eq_ok h
    obtain ⟨rest, hrest, h⟩ := bind_eq_ok h
    obtain rfl := Except.ok.inj h
    rw [List.map_cons, List.map_cons, hf x y hy, ih hrest]

theorem length_eq_of_mapM {ε β γ : Type} {f : β → Except ε γ} {xs : List β} {ys : List γ}
    (h : xs.mapM f = .ok ys) : ys.length = xs.length := by
  have hunits := map_eq_of_mapM (k := fun _ => ()) (g := fun _ => ()) (fun _ _ _ => rfl) h
  have hlength := congrArg List.length hunits
  rwa [List.length_map, List.length_map] at hlength

namespace Options

section sides
variable {α σ : Type}

/-- Bounds are set on all four sides or on none. -/
def HasWholeBounds (o : Options α σ) : Prop :=
  (o.north.isSome ∧ o.south.isSome ∧ o.east.isSome ∧ o.west.isSome) ∨
    (o.north = none ∧ o.south = none ∧ o.east = none ∧ o.west = none)

theorem bounds_isSome_iff {o : Options α σ} : o.bounds.isSome = true ↔
    o.north.isSome ∧ o.south.isSome ∧ o.east.isSome ∧ o.west.isSome := by
  rw [bounds]
  cases o.north <;> cases o.south <;> cases o.east <;> cases o.west <;> simp

theorem hasAnyBound_eq_false_iff {o : Options α σ} : o.hasAnyBound = false ↔
    o.north = none ∧ o.south = none ∧ o.east = none ∧ o.west = none := by
  simp only [hasAnyBound, Bool.or_eq_false_iff, Option.isSome_eq_false_iff,
    Option.isNone_iff_eq_none, and_assoc]

theorem hasWholeBounds_iff {o : Options α σ} :
    o.HasWholeBounds ↔ (o.hasAnyBound = true → o.bounds.isSome = true) := by
  rw [HasWholeBounds, ← bounds_isSome_iff, ← hasAnyBound_eq_false_iff]
  cases hany : o.hasAnyBound with
  | true => simp
  | false => simp

theorem boundsFault?_eq_none_iff {o : Options α σ} : o.boundsFault? = none ↔
    ((o.wholeGlobe = true ∨ o.hasAnyBound = true) → o.inputFiles.length = 1) ∧
      (o.wholeGlobe = false → o.HasWholeBounds) := by
  rw [boundsFault?, hasWholeBounds_iff]
  by_cases hcount : o.inputFiles.length = 1 <;> cases o.wholeGlobe <;> cases o.hasAnyBound <;>
    cases o.bounds <;> simp [hcount]

theorem length_of_isPlain {o : Options α σ} (h : o.modeFault? = none) (hplain : o.isPlain = true) :
    o.inputFiles.length = 1 := by
  by_contra hseveral
  rw [modeFault?] at h
  rw [isPlain, Bool.or_eq_true, decide_eq_true_eq, decide_eq_true_eq] at hplain
  rcases hplain with hmode | hkind
  · simp [hmode, hseveral] at h
  · simp only [hkind] at h
    split at h
    · cases h
    · split at h
      · cases h
      · simp [hseveral] at h

end sides

section filling
variable {α σ : Type}

theorem named_named (o : Options α σ) : o.named.named = o.named := by
  have hname : (o.outputName.or o.derivedName).or o.derivedName =
      o.outputName.or o.derivedName := by
    rw [Option.or_assoc, Option.or_self]
  exact congrArg (fun name => { o with outputName := name }) hname

variable [Arith α]

theorem bounded_bounded (o : Options α σ) : o.bounded.bounded = o.bounded := by
  cases hglobe : o.wholeGlobe <;> simp [bounded, hglobe]

theorem named_bounded (o : Options α σ) : o.bounded.named = o.named.bounded := by
  cases hglobe : o.wholeGlobe <;> simp [bounded, named, derivedName, hglobe]

theorem inputFault?_bounded [NumberText α] (o : Options α σ) :
    o.bounded.inputFault? = o.inputFault? := by
  cases hglobe : o.wholeGlobe <;> simp [bounded, inputFault?, hglobe]

theorem hasWholeBounds_bounded {o : Options α σ} (h : o.wholeGlobe = false → o.HasWholeBounds) :
    o.bounded.HasWholeBounds := by
  cases hglobe : o.wholeGlobe with
  | true => simp [bounded, hglobe, HasWholeBounds]
  | false => simpa [bounded, hglobe] using h hglobe

theorem boundsFault?_bounded {o : Options α σ} (h : o.boundsFault? = none) :
    o.bounded.boundsFault? = none := by
  obtain ⟨hone, hwhole⟩ := boundsFault?_eq_none_iff.mp h
  refine boundsFault?_eq_none_iff.mpr ⟨fun hsome => ?_, fun _ => hasWholeBounds_bounded hwhole⟩
  rw [inputFiles_bounded]
  cases hglobe : o.wholeGlobe with
  | true => exact hone (.inl hglobe)
  | false =>
    rw [bounded, if_neg (by rw [hglobe]; decide)] at hsome
    exact hone hsome

theorem bounded_named_eq (o : Options α σ) :
    o.named.bounded = { o with
      outputName := o.named.bounded.outputName
      north := o.named.bounded.north
      south := o.named.bounded.south
      east := o.named.bounded.east
      west := o.named.bounded.west } := by
  cases hglobe : o.wholeGlobe <;> simp [bounded, named, hglobe]

end filling

section check
variable {α σ : Type} [Arith α] [NumberText α]

/-- What a check that succeeds leaves of options: they pass it again as they are, they are those
that were given but for the name and the bounds, and no side is left open if another one is bound.
-/
structure IsChecked (o checked : Options α σ) : Prop where
  again : checked.validate = (checked, none)
  same : checked = { o with
    outputName := checked.outputName
    north := checked.north
    south := checked.south
    east := checked.east
    west := checked.west }
  whole : checked.HasWholeBounds

theorem isChecked_of_validate {o checked : Options α σ} (h : o.validate = (checked, none)) :
    o.IsChecked checked := by
  obtain ⟨hinput, hbounds, hmode, rfl⟩ := validate_eq_none_iff.mp h
  have hnamed : o.named.bounded.named = o.named.bounded := by rw [named_bounded, named_named]
  refine ⟨validate_eq_none_iff.mpr ⟨?_, ?_, ?_, ?_⟩, o.bounded_named_eq, ?_⟩
  · rw [inputFault?_bounded]
    exact hinput
  · rw [hnamed]
    exact boundsFault?_bounded hbounds
  · rw [hnamed, bounded_bounded]
    exact hmode
  · rw [hnamed, bounded_bounded]
  · exact hasWholeBounds_bounded (boundsFault?_eq_none_iff.mp hbounds).2

end check
end Options

section
variable {α σ : Type} [Cartography α] [Arith σ]

theorem Placement.name_place {input : PlacementInput α σ} {target : GeoReference α}
    {adjustments : Adjustments σ} {p : Placement α σ}
    (h : Placement.place input target adjustments = .ok p) : p.name = input.source.name := by
  rw [Placement.place] at h
  split at h
  · cases h
  · obtain ⟨edge, -, h⟩ := bind_eq_ok h
    obtain rfl := Except.ok.inj h
    rfl

end

namespace Mosaic

/-- A run has a source for each of its inputs, and one at least. It has no other if it goes without
a canvas, or if bounds are given. -/
structure Supplies {α σ : Type} (checked : Options α σ) (sources : List (Source α σ)) : Prop where
  nonempty : sources ≠ []
  length_eq : sources.length = checked.inputFiles.length
  of_isPlain : checked.isPlain = true → ∃ s, sources = [s]
  of_hasAnyBound : checked.hasAnyBound = true → ∃ s, sources = [s]

section
variable {α σ : Type} [Arith α] [NumberText α]

theorem supplies_of_checkedOptions {o checked : Options α σ} {sources : List (Source α σ)}
    (h : checkedOptions o sources = .ok checked) : Supplies checked sources := by
  obtain ⟨hvalid, hlength⟩ := checkedOptions_eq_ok_iff.mp h
  have hagain := (Options.isChecked_of_validate hvalid).again
  obtain ⟨-, hbounds, hmode, hself⟩ := Options.validate_eq_none_iff.mp hagain
  rw [← hself] at hmode
  have hone (hcount : checked.inputFiles.length = 1) : ∃ s, sources = [s] :=
    List.length_eq_one_iff.mp (hlength.trans hcount)
  refine ⟨sources_ne_nil h, hlength, fun hplain => ?_, fun hany => ?_⟩
  · exact hone (Options.length_of_isPlain hmode hplain)
  · exact hone ((Options.boundsFault?_eq_none_iff.mp hbounds).1 (.inr hany))

end

section
variable {α σ : Type} [Cartography α] [Arith σ]

omit [Arith σ] in
theorem length_inputs {o : Options α σ} {sources : List (Source α σ)} {r : Resolution α}
    (h : Resolution.resolve o sources = .ok r) : r.inputs.length = sources.length := by
  obtain ⟨found, hfound, h⟩ := bind_eq_ok h
  change (if _ then _ else _) = _ at h
  split at h
  · cases h
  · obtain ⟨inputs, hinputs, h⟩ := bind_eq_ok h
    change (if _ then _ else _) = _ at h
    split at h
    · cases h
    · obtain ⟨canvas, -, h⟩ := bind_eq_ok h
      obtain rfl := Except.ok.inj h
      rw [length_eq_of_mapM hinputs, List.length_zip, length_eq_of_mapM hfound, Nat.min_self]

theorem names_of_placements {o : Options α σ} {sources : List (Source α σ)} {r : Resolution α}
    {range : Option (ValueRange σ)} {placed : List (Placement α σ)}
    (hr : Resolution.resolve o sources = .ok r) (h : placements o sources r range = .ok placed) :
    placed.map Placement.name = sources.map Source.name := by
  have hnames := map_eq_of_mapM (g := fun i => i.source.name) (fun _ _ => Placement.name_place) h
  have hsources : (sources.zip r.inputs).map Prod.fst = sources :=
    List.map_fst_zip (length_inputs hr).ge
  have hname : (fun i => i.source.name) ∘
      (fun i => placementInput o (workChannel o sources) i.1 i.2) = Source.name ∘ Prod.fst := rfl
  rw [hnames, List.map_map, hname, ← List.map_map, hsources]

variable [Narrow α σ]

theorem plan_of_checkedOptions {o checked : Options α σ} {sources : List (Source α σ)}
    (h : checkedOptions o sources = .ok checked) (range : Option (ValueRange σ)) :
    (∃ s, checked.isPlain = true ∧ sources = [s] ∧ plan o sources range =
      (Plan.ofExcept (checkRange checked range) >>= fun _ => plainPlan checked s range)) ∨
    (checked.isPlain = false ∧ plan o sources range =
      (Plan.ofExcept (checkRange checked range) >>= fun _ => mosaicPlan checked sources range)) := by
  cases hplain : checked.isPlain with
  | true =>
    obtain ⟨s, rfl⟩ := (supplies_of_checkedOptions h).of_isPlain hplain
    refine .inl ⟨s, rfl, rfl, ?_⟩
    rw [plan, h, Plan.ofExcept_ok_bind, hplain]
  | false =>
    refine .inr ⟨rfl, ?_⟩
    rw [plan, h, Plan.ofExcept_ok_bind, hplain]

/-- Options that pass their check pass it again unchanged. They differ from what was given in the
name and the bounds at most, and bounds are set on all sides or on none. A run of them has one
source for every input, and one at least; a run without a canvas has exactly one, which it cuts,
and so does a run with bounds. A run on a canvas places every source, in order. -/
theorem checkedOptions_settled (o : Options α σ) :
    (∀ checked, o.validate = (checked, none) → o.IsChecked checked) ∧
      ∀ sources checked, checkedOptions o sources = .ok checked →
        { o with inputFiles := inputsOf o sources }.IsChecked checked ∧
        Supplies checked sources ∧
        (∀ range,
          (∃ s, checked.isPlain = true ∧ sources = [s] ∧ plan o sources range =
            (Plan.ofExcept (checkRange checked range) >>= fun _ => plainPlan checked s range)) ∨
          (checked.isPlain = false ∧ plan o sources range =
            (Plan.ofExcept (checkRange checked range) >>= fun _ =>
              mosaicPlan checked sources range))) ∧
        ∀ r range placed, Resolution.resolve checked sources = .ok r →
          placements checked sources r range = .ok placed →
            placed.map Placement.name = sources.map Source.name := by
  refine ⟨fun checked => Options.isChecked_of_validate, fun sources checked h => ?_⟩
  have hvalid := (checkedOptions_eq_ok_iff.mp h).1
  exact ⟨Options.isChecked_of_validate hvalid, supplies_of_checkedOptions h,
    plan_of_checkedOptions h, fun r range placed => names_of_placements⟩

end

/-- Bounds of the whole globe, and two sources that no inputs are named for. -/
theorem checkedOptions_settled_pair :
    let globe : Options Rat Float32 := { Options.globeRun 1 8 with wholeGlobe := true }
    let o : Options Rat Float32 := { Options.globeRun 2 8 with inputFiles := [] }
    let sources : List (Source Rat Float32) :=
      [{ Source.clearPixel 1 .u8 (-90) 90 with name := "west" },
        { Source.clearPixel 3 .u16 45 45 with name := "east" }]
    (∃ checked, globe.validate = (checked, none) ∧ checked.north = some 90 ∧
      globe.IsChecked checked) ∧
    ∃ checked r placed, checkedOptions o sources = .ok checked ∧
      Resolution.resolve checked sources = .ok r ∧
        placements checked sources r none = .ok placed ∧
          Supplies checked sources ∧ placed.map Placement.name = ["west", "east"] := by
  intro globe o sources
  have hglobe : globe.validate = (globe.named.bounded, none) := rfl
  obtain ⟨checked, r, placed, hchecked, hr, hplaced, -⟩ := exists_placed o sources none
    (fun _ _ placed => placed.length) 2 (by decide +kernel)
  obtain ⟨-, hrun⟩ := checkedOptions_settled o
  obtain ⟨-, hsupplies, -, hnames⟩ := hrun sources checked hchecked
  exact ⟨⟨_, hglobe, rfl, (checkedOptions_settled globe).1 _ hglobe⟩, checked, r, placed, hchecked, hr,
    hplaced, hsupplies, hnames r none placed hr hplaced⟩

end Mosaic
end TilePyramid
