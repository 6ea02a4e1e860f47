import TilePyramid.Proofs.Depth
import TilePyramid.Proofs.FinishedRuns
import TilePyramid.Proofs.LeafCount
import TilePyramid.Proofs.SteadyReports

/-!
# The reports of a plan

A generator reports each leaf before it is written, as a share of the leaves that it has counted in
advance, and the whole at the end. The count is right, so that the fractions are steady and pass the
share of the generator as they are. Whether a plan ends well or not, what leaves its shares is
steady.
-/
namespace TilePyramid

variable {α σ β γ : Type}

def Action.fraction? : Action α σ → Option α
  | .report f => some f
  | _ => none

namespace Plan

theorem reports_eq (p : Plan α σ β) : p.reports = p.actions.filterMap Action.fraction? := rfl

theorem reports_bind_of_ok {p : Plan α σ β} {b : β} (h : p.outcome = .ok b)
    (next : β → Plan α σ γ) : (p >>= next).reports = p.reports ++ (next b).reports := by
  change (p.andThen next).reports = _
  simp only [reports_eq, andThen, h, List.filterMap_append]

theorem reports_bind_of_error {p : Plan α σ β} {e : Error} (h : p.outcome = .error e)
    (next : β → Plan α σ γ) : (p >>= next).reports = p.reports := by
  change (p.andThen next).reports = _
  simp only [reports_eq, andThen, h]

theorem reports_metadata (files : List (Path × String)) :
    (act (α := α) (σ := σ) (files.map fun f => .metadata f.1 f.2)).reports = [] := by
  simp only [reports_eq, act, List.filterMap_map]
  exact List.filterMap_eq_nil_iff.mpr fun _ _ => rfl

theorem reports_within [Arith α] (start stop : α) (p : Plan α σ β) :
    (p.within start stop).reports = (Share.between start stop).reportAll p.reports := by
  have hshared (s : Share α) (actions : List (Action α σ)) :
      (shareActions s actions).filterMap Action.fraction? =
        s.reportAll (actions.filterMap Action.fraction?) := by
    induction actions generalizing s with
    | nil => rfl
    | cons a rest ih =>
      cases a with
      | report f =>
        rw [shareActions, List.filterMap_append, ih]
        cases hsent : (s.report f).2 with
        | none => simp [Action.fraction?, Share.reportAll, hsent]
        | some g => simp [Action.fraction?, Share.reportAll, hsent]
      | tile path raster => exact ih s
      | metadata path text => exact ih s
  exact hshared _ _

section steady
variable [Arith α] [ExactFinite α] {lo mid hi : Rat}

open ExactFinite

theorem isSteady_bind {p : Plan α σ β} {next : β → Plan α σ γ}
    (hp : IsSteady lo mid p.reports) (hnext : ∀ b, IsSteady mid hi (next b).reports)
    (hlo : lo ≤ mid) (hhi : mid ≤ hi) : IsSteady lo hi (p >>= next).reports := by
  cases h : p.outcome with
  | error e =>
    rw [reports_bind_of_error h, ← List.append_nil p.reports]
    exact hp.append .nil hlo hhi
  | ok b =>
    rw [reports_bind_of_ok h]
    exact hp.append (hnext b) hlo hhi

theorem isSteady_ofExcept_bind {x : Except Error β} {next : β → Plan α σ γ}
    (hnext : ∀ b, IsSteady lo hi (next b).reports) :
    IsSteady lo hi (ofExcept x >>= next).reports := by
  cases x with
  | error e => exact .nil
  | ok b => exact hnext b

theorem isSteady_within {start stop : α} (hstart : Arith.isFinite start = true)
    (hstop : Arith.isFinite stop = true) (hle : value start ≤ value stop) (p : Plan α σ β) :
    IsSteady (value start) (value stop) (p.within start stop).reports := by
  rw [reports_within]
  exact Share.isSteady_between hstart hstop hle _

theorem map_value_within {start stop : α} (hstart : Arith.isFinite start = true)
    (hstop : Arith.isFinite stop = true) (hle : value start ≤ value stop) {p : Plan α σ β}
    (hp : IsSteady 0 1 p.reports) :
    (p.within start stop).reports.map value =
      p.reports.map fun f => value start + (value stop - value start) * value f := by
  rw [reports_within]
  exact Share.map_value_between hstart hstop hle hp

end steady

end Plan

/-- The fractions of a pyramid with so many leaves: one for each leaf, and the whole at the end. -/
def leafFractions (leaves : Nat) : List Rat :=
  (List.range leaves).map (fun (k : Nat) => ((k + 1 : Nat) : Rat) / leaves) ++ [1]

/-- What is reported of a pyramid with so many leaves. -/
def leafReports (α : Type) [Arith α] (leaves : Int) (done : Nat) : List α :=
  (List.range done).map (fun (k : Nat) => ofInt (k + 1) / ofInt (max leaves 1)) ++ [ofInt 1]

section leaves
variable [Arith α] [ExactFinite α]

open ExactFinite

private theorem value_leafReport {leaves k : Nat} (hk : k < leaves) :
    let f : α := ofInt (k + 1) / ofInt (max leaves 1)
    Arith.isFinite f = true ∧ value f = ((k + 1 : Nat) : Rat) / leaves := by
  have hleaves : max (leaves : Int) 1 = leaves := by omega
  have hne : value (ofInt leaves : α) ≠ 0 := by
    rw [value_ofInt]
    exact_mod_cast (Nat.zero_le k).trans_lt hk |>.ne'
  have hquotient := div_of_finite (isFinite_ofInt (α := α) (k + 1)) (isFinite_ofInt leaves) hne
  rw [value_ofInt, value_ofInt] at hquotient
  push_cast at hquotient ⊢
  rwa [hleaves]

theorem map_value_leafReports (leaves : Nat) :
    (leafReports α leaves leaves).map value = leafFractions leaves := by
  rw [leafReports, leafFractions, List.map_append, List.map_map]
  congr 1
  · exact List.map_congr_left fun k hk => (value_leafReport (List.mem_range.mp hk)).2
  · rw [List.map_singleton, value_one]

theorem isSteady_leafReports (leaves : Nat) : IsSteady 0 1 (leafReports α leaves leaves) := by
  have hreports : IsSteady 0 1 ((List.range leaves).map fun (k : Nat) =>
      (ofInt (k + 1) / ofInt (max leaves 1) : α)) := by
    constructor
    · simp only [List.forall_mem_map, List.mem_range]
      exact fun k hk => (value_leafReport hk).1
    · simp only [List.forall_mem_map, List.mem_range]
      intro k hk
      rw [(value_leafReport hk).2]
      refine ⟨by positivity, div_le_one_of_le₀ ?_ (Nat.cast_nonneg _)⟩
      exact_mod_cast hk
    · rw [List.pairwise_map]
      refine List.pairwise_lt_range.imp_of_mem fun hk hl hkl => ?_
      rw [(value_leafReport (List.mem_range.mp hk)).2, (value_leafReport (List.mem_range.mp hl)).2]
      gcongr
  have hwhole : IsSteady 1 1 [(ofInt 1 : α)] :=
    .cons (isFinite_ofInt 1) value_one.ge value_one.le .nil
  exact hreports.append hwhole zero_le_one le_rfl

end leaves

namespace Generator

section actions
variable [Arith α]

theorem reports_tileActions (info : PyramidInfo) (mode : OutputMode) (total done : Int)
    (nodes : List (Tree (RenderedTile σ))) :
    (tileActions (α := α) info mode total done nodes).filterMap Action.fraction? =
      (List.range (nodes.countP fun n => n.value.tile.level = info.maxLevel)).map
        fun (k : Nat) => ofInt (done + k + 1) / ofInt (max total 1) := by
  -- From any number of leaves that are done already, which the numbers are counted from.
  induction nodes generalizing done with
  | nil => rfl
  | cons node rest ih =>
    rw [tileActions]
    split
    · next hleaf =>
      have hnext (k : Nat) : done + 1 + k + 1 = done + (k + 1 : Nat) + 1 := by omega
      rw [List.countP_cons_of_pos (by simpa using hleaf), List.range_succ_eq_map, List.map_cons,
        List.map_map, List.filterMap_cons, List.filterMap_cons]
      simp only [Action.fraction?, ih, Function.comp_def, Nat.succ_eq_add_one, hnext]
      rw [Nat.cast_zero, add_zero]
    · next hinner =>
      rw [List.countP_cons_of_neg (by simpa using hinner), List.filterMap_cons]
      exact ih done

variable [NumberText α] [Arith σ]

theorem cut_reports_eq_ok {info : PyramidInfo} {format : Format α} {crop : PixelBox}
    {source : TileSource σ} {root : TileTree}
    (h : (cut info format crop source).outcome = .ok root) :
    (cut info format crop source).reports =
      (Share.between (ofInt 0) (ofInt 1)).reportAll
        (leafReports α (leavesWithin crop info.tileSize)
          (root.postorder.countP fun n => n.value.level = info.maxLevel)) := by
  rw [cut, Plan.reports_within]
  simp only [cut, Plan.within] at h
  cases hr : source.render info.tileSize crop info.maxLevel
      (.root (info.tileSize <<< info.maxLevel : Nat)) with
  | none =>
    rw [hr] at h
    cases h
  | some rendered =>
    rw [hr] at h
    obtain ⟨_, -, h, -⟩ := Plan.bind_actions_eq_ok h
    obtain ⟨files, -, hnext, h⟩ := Plan.ofExcept_bind_eq_ok h
    obtain ⟨_, -, h, -⟩ := Plan.bind_actions_eq_ok h
    obtain rfl := Except.ok.inj h
    have hlevels : ((rendered.map RenderedTile.tile).postorder.countP fun n =>
        n.value.level = info.maxLevel) =
          rendered.postorder.countP fun n => n.value.tile.level = info.maxLevel := by
      rw [Tree.postorder_map, List.countP_map]
      exact List.countP_congr fun n _ => by simp [Tree.value_map]
    dsimp only
    rw [Plan.reports_bind_of_ok rfl, hnext, Plan.reports_bind_of_ok rfl,
      Plan.reports_metadata, hlevels]
    have hleaves := reports_tileActions (α := α) info format.mode
      (leavesWithin crop info.tileSize) 0 rendered.postorder
    simp only [zero_add] at hleaves
    rw [Plan.reports_eq, Plan.act, hleaves]
    rfl

variable [ExactFinite α]

open ExactFinite

theorem isSteady_cut (info : PyramidInfo) (format : Format α) (crop : PixelBox)
    (source : TileSource σ) : IsSteady 0 1 (cut info format crop source).reports := by
  rw [← value_zero (α := α), ← value_one (α := α)]
  exact Plan.isSteady_within (isFinite_ofInt 0) (isFinite_ofInt 1) value_zero_le_one _

theorem isSteady_plan (g : Generator α) (source : TileSource σ) :
    IsSteady 0 1 (g.plan source).reports := by
  rw [plan]
  split
  · exact .nil
  · split
    · dsimp only
      split
      · exact .nil
      · exact isSteady_cut _ _ _ _
    · exact .nil

theorem map_value_cut_reports {info : PyramidInfo} {format : Format α} {crop : PixelBox}
    {source : TileSource σ} {root : TileTree}
    (htree : IsCellTree info.tileSize info.maxLevel crop.Mem root)
    (hcount : leavesWithin crop info.tileSize = root.leafCount)
    (h : (cut info format crop source).outcome = .ok root) :
    (cut info format crop source).reports.map value = leafFractions root.leafCount := by
  rw [cut_reports_eq_ok h, htree.countP_level_eq_leafCount, hcount,
    Share.map_value_between (isFinite_ofInt 0) (isFinite_ofInt 1) value_zero_le_one
      (isSteady_leafReports _), ← map_value_leafReports (α := α)]
  refine List.map_congr_left fun f _ => ?_
  rw [value_zero, value_one, zero_add, sub_zero, one_mul]

theorem map_value_reports_of_plan {g : Generator α} {source : TileSource σ} {root : TileTree}
    {tileSize : Nat} (ht : g.tileSize = some tileSize) (hpos : 0 < tileSize)
    (h : (g.plan source).outcome = .ok root) :
    (g.plan source).reports.map value = leafFractions root.leafCount := by
  have htree := plan_isCellTree ht hpos h
  obtain ⟨-, fileType, format, -, -, hcut⟩ := plan_outcome_eq_ok ht h
  have hcount : leavesWithin (g.window source) tileSize = root.leafCount := by
    refine htree.leavesWithin_eq_leafCount hpos fun px py hp => ?_
    have himage := (mem_window.mp hp).2
    have hcover := le_tileSize_shiftLeft_maxLevelFor (max source.cols source.rows) hpos
    rw [Nat.shiftLeft_eq] at hcover
    simp only [PixelBox.Mem, PixelBox.ofImage, PixelBox.ofSize] at himage ⊢
    omega
  rw [hcut] at h ⊢
  exact map_value_cut_reports htree hcount h

end actions

end Generator

namespace Mosaic

open ExactFinite

variable [Cartography α] [ExactFinite α]

theorem prepareShare_eq :
    Arith.isFinite (prepareShare : α) = true ∧ value (prepareShare : α) = 5 / 100 := by
  have hne : value (ofInt 100 : α) ≠ 0 := by
    rw [value_ofInt]
    norm_num
  have h := div_of_finite (isFinite_ofInt (α := α) 5) (isFinite_ofInt 100) hne
  rw [value_ofInt, value_ofInt] at h
  push_cast at h
  exact h

theorem prepareShare_between : value (ofInt 0 : α) ≤ value (prepareShare : α) ∧
    value (prepareShare : α) ≤ value (ofInt 1 : α) := by
  rw [prepareShare_eq.2, value_zero, value_one]
  norm_num

variable [Arith σ]

theorem isSteady_treePlan (o : Options α σ) (image : TileSource σ) (settings : ViewerSettings α)
    (crop : PixelBox) : IsSteady 0 1 (treePlan o image settings crop).reports :=
  Generator.isSteady_plan _ _

theorem map_value_reports_of_treePlan {o : Options α σ} (htile : o.tileSize ≠ 0)
    {image : TileSource σ} {settings : ViewerSettings α} {crop : PixelBox} {root : TileTree}
    (h : (treePlan o image settings crop).outcome = .ok root) :
    (treePlan o image settings crop).reports.map value = leafFractions root.leafCount :=
  Generator.map_value_reports_of_plan (if_neg htile) (Nat.pos_of_ne_zero htile) h

theorem isSteady_plainPlan (o : Options α σ) (s : Source α σ) (range : Option (ValueRange σ)) :
    IsSteady 0 1 (plainPlan o s range).reports := by
  rw [plainPlan]
  refine Plan.isSteady_ofExcept_bind fun _ => ?_
  refine Plan.isSteady_ofExcept_bind fun settings => ?_
  exact Plan.isSteady_bind (isSteady_treePlan _ _ _ _) (fun _ => .nil) zero_le_one le_rfl

theorem map_value_reports_of_plainPlan {o : Options α σ} (htile : o.tileSize ≠ 0) {s : Source α σ}
    {range : Option (ValueRange σ)} {summary : Summary α}
    (h : (plainPlan o s range).outcome = .ok summary) :
    (plainPlan o s range).reports.map value = leafFractions summary.root.leafCount := by
  obtain ⟨image, settings, hstages⟩ := exists_plainRun h
  rw [Plan.reports_eq, hstages.actions_eq]
  exact map_value_reports_of_treePlan htile hstages.treePlan_eq

theorem isSteady_planPlain (o : Options α σ) (s : Source α σ) (range : Option (ValueRange σ)) :
    IsSteady 0 1 (planPlain o s range).reports := by
  rw [planPlain]
  refine Plan.isSteady_ofExcept_bind fun checked => ?_
  refine Plan.isSteady_ofExcept_bind fun _ => ?_
  exact isSteady_plainPlan _ _ _

theorem map_value_reports_of_planPlain {o : Options α σ} {s : Source α σ}
    {range : Option (ValueRange σ)} {summary : Summary α}
    (h : (planPlain o s range).outcome = .ok summary) :
    (planPlain o s range).reports.map value = leafFractions summary.root.leafCount := by
  obtain ⟨checked, hchecked, hrun⟩ := planPlain_eq_plainPlan h
  rw [hrun] at h ⊢
  exact map_value_reports_of_plainPlan (tileSize_checkedOptions hchecked) h

variable [Narrow α σ]

theorem isSteady_mosaicPlan (o : Options α σ) (sources : List (Source α σ))
    (range : Option (ValueRange σ)) : IsSteady 0 1 (mosaicPlan o sources range).reports := by
  obtain ⟨hfront, hback⟩ := prepareShare_between (α := α)
  rw [← value_zero (α := α), ← value_one (α := α), mosaicPlan]
  refine Plan.isSteady_ofExcept_bind fun r => ?_
  refine Plan.isSteady_ofExcept_bind fun placed => ?_
  refine Plan.isSteady_ofExcept_bind fun aligned => ?_
  refine Plan.isSteady_ofExcept_bind fun view => ?_
  have hprepared := Plan.isSteady_within (isFinite_ofInt 0) prepareShare_eq.1 hfront
    (Plan.report (α := α) (σ := σ) (ofInt 1))
  refine Plan.isSteady_bind hprepared (fun _ => ?_) hfront hback
  split
  · exact .nil
  · refine Plan.isSteady_ofExcept_bind fun settings => ?_
    have htree := Plan.isSteady_within prepareShare_eq.1 (isFinite_ofInt 1) hback
      (treePlan o view.tileSource settings (dataBox view))
    exact Plan.isSteady_bind htree (fun _ => .nil) hback le_rfl

/-- A run on a canvas reports its composite, and then the leaves of its tree in what is left. -/
theorem map_value_reports_of_mosaicPlan {o : Options α σ} (htile : o.tileSize ≠ 0)
    {sources : List (Source α σ)} {range : Option (ValueRange σ)} {summary : Summary α}
    (h : (mosaicPlan o sources range).outcome = .ok summary) :
    let P := value (prepareShare : α)
    (mosaicPlan o sources range).reports.map value =
      P :: (leafFractions summary.root.leafCount).map fun q => P + (1 - P) * q := by
  intro P
  obtain ⟨r, placed, view, settings, hstages⟩ := exists_canvasRun h
  obtain ⟨hfront, hback⟩ := prepareShare_between (α := α)
  have hwhole : IsSteady 0 1 (Plan.report (α := α) (σ := σ) (ofInt 1)).reports :=
    .cons (isFinite_ofInt 1) (zero_le_one.trans value_one.ge) value_one.le .nil
  have hprepared : (Plan.within (ofInt 0) prepareShare
      (Plan.report (α := α) (σ := σ) (ofInt 1))).reports.map value = [P] := by
    rw [Plan.map_value_within (isFinite_ofInt 0) prepareShare_eq.1 hfront hwhole]
    change [value (ofInt 0 : α) + (P - value (ofInt 0 : α)) * value (ofInt 1 : α)] = [P]
    rw [value_zero, value_one, zero_add, sub_zero, mul_one]
  have htree := Plan.map_value_within prepareShare_eq.1 (isFinite_ofInt 1) hback
    (isSteady_treePlan o view.tileSource settings (dataBox view))
  rw [value_one] at htree
  rw [Plan.reports_eq, hstages.actions_eq, List.filterMap_append, List.map_append]
  refine (congrArg₂ (· ++ ·) hprepared htree).trans ?_
  rw [← map_value_reports_of_treePlan htile hstages.treePlan_eq, List.map_map]
  rfl

/-- Whatever becomes of a run, its reports are steady. -/
theorem isSteady_plan (o : Options α σ) (sources : List (Source α σ))
    (range : Option (ValueRange σ)) : IsSteady 0 1 (plan o sources range).reports := by
  rw [plan]
  refine Plan.isSteady_ofExcept_bind fun checked => ?_
  refine Plan.isSteady_ofExcept_bind fun _ => ?_
  split
  · exact isSteady_plainPlan _ _ _
  · exact isSteady_mosaicPlan _ _ _

theorem map_value_reports_of_canvas {o : Options α σ} (hcanvas : o.isPlain = false)
    {sources : List (Source α σ)} {range : Option (ValueRange σ)} {summary : Summary α}
    (h : (plan o sources range).outcome = .ok summary) :
    let P := value (prepareShare : α)
    let n := summary.root.leafCount
    (plan o sources range).reports.map value =
      P :: (List.range n).map (fun (k : Nat) => P + (1 - P) * ((k + 1 : Nat) / n)) ++ [1] := by
  intro P n
  obtain ⟨checked, hchecked, hrun⟩ := plan_eq_mosaicPlan hcanvas h
  rw [hrun] at h ⊢
  rw [map_value_reports_of_mosaicPlan (tileSize_checkedOptions hchecked) h, leafFractions,
    List.map_append, List.map_map, List.map_singleton, mul_one, add_sub_cancel]
  rfl

theorem map_value_reports_of_isPlain {o : Options α σ} (hplain : o.isPlain = true)
    {sources : List (Source α σ)} {range : Option (ValueRange σ)} {summary : Summary α}
    (h : (plan o sources range).outcome = .ok summary) :
    (plan o sources range).reports.map value = leafFractions summary.root.leafCount := by
  obtain ⟨checked, s, hchecked, hrun⟩ := plan_eq_plainPlan hplain h
  rw [hrun] at h ⊢
  exact map_value_reports_of_plainPlan (tileSize_checkedOptions hchecked) h

end Mosaic
end TilePyramid
