import TilePyramid.Proofs.CheckedOptions
import TilePyramid.Proofs.EntryDocument

/-!
# Draw orders

The document of a node gives its tile a draw order, the level of the node above an offset that the
options set. The sum has 32 bits. Main statement: it grows by one from a node to its children and
puts finer tiles on top as long as the deepest level fits above the offset; if it does not, the
orders start over with zero.
-/
namespace TilePyramid

section
variable {tileSize maxLevel : Nat} {kept : Int → Int → Prop} {root : TileTree}

theorem IsCellTree.exists_edge (h : IsCellTree tileSize maxLevel kept root) (ht : 0 < tileSize)
    {level : Nat} (hlevel : level < maxLevel) :
    ∃ n ∈ root.preorder, n.value.level = level ∧ ∃ c, c ∈ n.children := by
  have hchild {n : TileTree} (hn : n ∈ root.preorder) (hlt : n.value.level < maxLevel) :
      ∃ c, c ∈ n.children :=
    List.exists_mem_of_ne_nil _ fun hnil => hlt.ne ((h.leaf_iff n hn).mp hnil)
  induction level with
  | zero =>
    have hroot := h.level_root ht
    exact ⟨root, root.self_mem_preorder, hroot, hchild root.self_mem_preorder (hroot ▸ hlevel)⟩
  | succ level ih =>
    obtain ⟨n, hn, rfl, c, hc⟩ := ih (by omega)
    have hmem := Tree.mem_preorder_of_mem_children hn hc
    have hdeeper := h.level_child hn hc
    exact ⟨c, hmem, hdeeper, hchild hmem (hdeeper ▸ hlevel)⟩

end

namespace Kml

section
variable {α : Type} [Arith α] (info : PyramidInfo) (extent : DegreeBox α) (maxLod : Int)
  (offset : UInt32) (n : TileTree)

/-- The draw order that the document of a node gives to its tile. -/
def drawOrder : Nat := (document info extent maxLod offset n).overlay.drawOrder.toNat

theorem drawOrder_eq : drawOrder info extent maxLod offset n =
    (offset.toNat + n.value.level) % 2 ^ 32 := by
  change (UInt32.ofNat n.value.level + offset).toNat = _
  rw [UInt32.toNat_add, UInt32.toNat_ofNat', Nat.mod_add_mod, Nat.add_comm]

theorem exists_text_eq [NumberText α] : ∃ front back : String,
    (document info extent maxLod offset n).text = front ++
      s!"    <drawOrder>{drawOrder info extent maxLod offset n}</drawOrder>\n" ++ back := by
  let d := document info extent maxLod offset n
  refine ⟨opening ++ d.region.text "  " ++ String.join (d.links.map Link.text) ++
      "  <GroundOverlay>\n",
    s!"    <Icon><href>{d.overlay.icon}</href></Icon>\n" ++ boxText "LatLonBox" "    " d.overlay.box ++
      "  </GroundOverlay>\n" ++ closing, ?_⟩
  rw [Document.text]
  simp only [String.append_assoc]
  rfl

end

/-- The draw orders of a tree, as sums that start over behind the greatest number of 32 bits. None
of them does so exactly if the deepest level fits above the offset, and only then do they grow by
one along every edge and with every level. -/
structure AreDrawOrders (order : TileTree → Nat) (offset : UInt32) (maxLevel : Nat)
    (root : TileTree) : Prop where
  eq_mod : ∀ n ∈ root.preorder, order n = (offset.toNat + n.value.level) % 2 ^ 32
  child_eq_mod : ∀ n ∈ root.preorder, ∀ c ∈ n.children, order c = (order n + 1) % 2 ^ 32
  sums_iff : (∀ n ∈ root.preorder, order n = offset.toNat + n.value.level) ↔
    offset.toNat + maxLevel < 2 ^ 32
  steps_iff : (∀ n ∈ root.preorder, ∀ c ∈ n.children, order c = order n + 1) ↔
    offset.toNat + maxLevel < 2 ^ 32
  finer_iff : (∀ m ∈ root.preorder, ∀ n ∈ root.preorder, m.value.level < n.value.level →
    order m < order n) ↔ offset.toNat + maxLevel < 2 ^ 32

section
variable {tileSize maxLevel : Nat} {kept : Int → Int → Prop} {root : TileTree}

theorem areDrawOrders {order : TileTree → Nat} {offset : UInt32} (ht : 0 < tileSize)
    (hcells : IsCellTree tileSize maxLevel kept root)
    (horder : ∀ n, order n = (offset.toNat + n.value.level) % 2 ^ 32) :
    AreDrawOrders order offset maxLevel root := by
  have hoffset := offset.toNat_lt
  have hsum (hfits : offset.toNat + maxLevel < 2 ^ 32) {n : TileTree} (hn : n ∈ root.preorder) :
      order n = offset.toNat + n.value.level := by
    have hlevel := hcells.level_le hn
    rw [horder, Nat.mod_eq_of_lt (by omega)]
  -- The levels go past the greatest number, so that one of them has it and the next has zero.
  have hrestart (hpast : ¬ offset.toNat + maxLevel < 2 ^ 32) :
      ∃ n ∈ root.preorder, ∃ c ∈ n.children, order n = 2 ^ 32 - 1 ∧ order c = 0 := by
    have hlast : 2 ^ 32 - 1 - offset.toNat < maxLevel := by omega
    obtain ⟨n, hn, hlevel, c, hc⟩ := hcells.exists_edge ht hlast
    refine ⟨n, hn, c, hc, ?_, ?_⟩
    · rw [horder, hlevel]
      omega
    · rw [horder, hcells.level_child hn hc, hlevel]
      omega
  refine ⟨fun n _ => horder n, fun n hn c hc => ?_, ⟨fun h => ?_, fun hfits n => hsum hfits⟩,
    ⟨fun h => ?_, fun hfits n hn c hc => ?_⟩, ⟨fun h => ?_, fun hfits m hm n hn hlt => ?_⟩⟩
  · rw [horder, horder, hcells.level_child hn hc, Nat.mod_add_mod, Nat.add_assoc]
  · by_contra hpast
    obtain ⟨n, hn, c, hc, -, hzero⟩ := hrestart hpast
    have hmem := Tree.mem_preorder_of_mem_children hn hc
    have hdeeper := hcells.level_child hn hc
    have hsums := h n hn
    have hsumc := h c hmem
    omega
  · by_contra hpast
    obtain ⟨n, hn, c, hc, -, hzero⟩ := hrestart hpast
    have hstep := h n hn c hc
    omega
  · rw [hsum hfits hn, hsum hfits (Tree.mem_preorder_of_mem_children hn hc),
      hcells.level_child hn hc, Nat.add_assoc]
  · by_contra hpast
    obtain ⟨n, hn, c, hc, -, hzero⟩ := hrestart hpast
    have hdeeper := hcells.level_child hn hc
    have hless := h n hn c (Tree.mem_preorder_of_mem_children hn hc) (by omega)
    omega
  · rw [hsum hfits hm, hsum hfits hn]
    omega

end
end Kml

namespace Mosaic

section
variable {α σ : Type} [Arith α] [NumberText α]

theorem kml_checkedOptions {o checked : Options α σ} {sources : List (Source α σ)}
    (h : checkedOptions o sources = .ok checked) : checked.kml = o.kml := by
  have hsame := (Options.isChecked_of_validate (checkedOptions_eq_ok_iff.mp h).1).same
  rw [hsame]

end

section
variable {α σ : Type} [Cartography α] [Arith σ] [Narrow α σ]

theorem exists_kml_files {o : Options α σ} (hmode : o.mode = .kml) {sources : List (Source α σ)}
    {range : Option (ValueRange σ)} {summary : Summary α}
    (h : (plan o sources range).outcome = .ok summary) :
    ∃ info maxLod kept, ∃ extent : DegreeBox α,
      (plan o sources range).files =
        Kml.files info extent maxLod o.kml.drawOrderOffset summary.root ∧
      0 < info.tileSize ∧ IsCellTree info.tileSize info.maxLevel kept summary.root := by
  obtain ⟨checked, image, extent, settings, hchecked, hsettings, hwrites⟩ :=
    exists_writes_of_plan h
  obtain ⟨htile, -, hmode', -, hpos, -⟩ := checkedOptions_eq_ok hchecked
  rw [ViewerSettings.ofOptions, hmode', hmode] at hsettings
  obtain rfl := Except.ok.inj hsettings
  obtain ⟨kept, hcells⟩ := hwrites.cells
  have hsize : 0 < checked.tileSize := Nat.pos_of_ne_zero (htile ▸ hpos)
  rw [← kml_checkedOptions hchecked]
  exact ⟨checked.pyramidOf image, checked.kml.maxLodPixels, kept, extent,
    (Except.ok.inj hwrites.files).symm, hsize, hcells⟩

/-- Every document of a super-overlay gives its tile the draw order that the offset of the options
and the level of the node add up to in 32 bits. So the orders grow by one along every edge, and
finer tiles come on top of coarser ones, exactly if the deepest level fits above the offset. -/
theorem plan_draw_orders {S : Type} {o : Options α σ} (hmode : o.mode = .kml)
    {sources : List (Source α σ)} {range : Option (ValueRange σ)} {w : TileWriter (StateM S) σ}
    {report : α → StateM S Unit} {s : S} {summary : Summary α}
    (h : (((plan o sources range).execute w report).run s).1 = .ok summary) :
    ∃ info maxLod, ∃ extent : DegreeBox α,
      (plan o sources range).files =
        Kml.files info extent maxLod o.kml.drawOrderOffset summary.root ∧
      let order := Kml.drawOrder info extent maxLod o.kml.drawOrderOffset
      Kml.AreDrawOrders order o.kml.drawOrderOffset info.maxLevel summary.root ∧
        ∀ n ∈ summary.root.preorder, ∃ front back : String,
          (Kml.documentPath info n.value,
            front ++ s!"    <drawOrder>{order n}</drawOrder>\n" ++ back) ∈
              (plan o sources range).files := by
  obtain ⟨info, maxLod, kept, extent, hfiles, hsize, hcells⟩ :=
    exists_kml_files hmode (Plan.execute_eq_ok h)
  refine ⟨info, maxLod, extent, hfiles,
    Kml.areDrawOrders hsize hcells fun n => Kml.drawOrder_eq _ _ _ _ n, fun n hn => ?_⟩
  obtain ⟨front, back, htext⟩ := Kml.exists_text_eq info extent maxLod o.kml.drawOrderOffset n
  refine ⟨front, back, ?_⟩
  rw [hfiles, Kml.files_eq, ← htext, Kml.Document.text_eq]
  exact List.mem_append_left _ (List.mem_map_of_mem hn)

end

/-- Above an offset of ten, a root and its four children. -/
theorem plan_draw_orders_square :
    let o : Options Rat Float32 := { Options.globeRun 1 8 with kml := ⟨10, 1024⟩ }
    o.mode = .kml ∧
      ∃ summary, (((plan o [.clearSquare 2 45 90 90] none).execute TileWriter.recorder
          fun _ => pure ()).run []).1 = .ok summary ∧
        summary.root.children.length = 4 ∧
          ∃ info maxLod, ∃ extent : DegreeBox Rat,
            (plan o [.clearSquare 2 45 90 90] none).files =
              Kml.files info extent maxLod 10 summary.root ∧
            Kml.drawOrder info extent maxLod 10 summary.root = 10 ∧
              ∀ c ∈ summary.root.children, Kml.drawOrder info extent maxLod 10 c = 11 := by
  intro o
  obtain ⟨summary, hrun, hshape⟩ := exists_recorded_run o [.clearSquare 2 45 90 90] none
    (fun s => (s.root.value.level, s.root.children.length)) (0, 4) (by decide +kernel)
  obtain ⟨hlevel, hfour⟩ := Prod.mk.inj hshape
  obtain ⟨info, maxLod, extent, hfiles, horders, -⟩ := plan_draw_orders (o := o) rfl hrun
  have hself := summary.root.self_mem_preorder
  have hroot := horders.eq_mod summary.root hself
  rw [hlevel] at hroot
  refine ⟨rfl, summary, hrun, hfour, info, maxLod, extent, hfiles, hroot, fun c hc => ?_⟩
  exact (horders.child_eq_mod _ hself c hc).trans (by rw [hroot]; rfl)

/-- Above the greatest offset the four children come below their parent. -/
theorem exists_draw_order_below :
    let o : Options Rat Float32 := { Options.globeRun 1 8 with kml := ⟨4294967295, 1024⟩ }
    ∃ summary, (((plan o [.clearSquare 2 45 90 90] none).execute TileWriter.recorder
        fun _ => pure ()).run []).1 = .ok summary ∧
      summary.root.children.length = 4 ∧
        ∃ info maxLod, ∃ extent : DegreeBox Rat,
          (plan o [.clearSquare 2 45 90 90] none).files =
            Kml.files info extent maxLod 4294967295 summary.root ∧
          Kml.drawOrder info extent maxLod 4294967295 summary.root = 4294967295 ∧
            ∀ c ∈ summary.root.children, Kml.drawOrder info extent maxLod 4294967295 c = 0 := by
  intro o
  obtain ⟨summary, hrun, hshape⟩ := exists_recorded_run o [.clearSquare 2 45 90 90] none
    (fun s => (s.root.value.level, s.root.children.length)) (0, 4) (by decide +kernel)
  obtain ⟨hlevel, hfour⟩ := Prod.mk.inj hshape
  obtain ⟨info, maxLod, kept, extent, hfiles, -, hcells⟩ :=
    exists_kml_files (o := o) rfl (Plan.execute_eq_ok hrun)
  refine ⟨summary, hrun, hfour, info, maxLod, extent, hfiles, ?_, fun c hc => ?_⟩
  · rw [Kml.drawOrder_eq, hlevel]
    rfl
  · rw [Kml.drawOrder_eq, hcells.level_child summary.root.self_mem_preorder hc, hlevel]
    rfl

end Mosaic
end TilePyramid
