import TilePyramid.Proofs.LinkedDocuments
import TilePyramid.Proofs.WriterCalls

/-!
# The entry document

The entry document of a super-overlay lies next to the directory of the pyramid and leads to the
document of the root, provided that the name of the pyramid has a last component to call it by. If
it has none, as `.` or the empty name, the word that stands in for it is the word for the root: the
entry document takes the path of the root's document, and its link leads nowhere.
-/
namespace TilePyramid

namespace Text

/-- What character data of an XML document stands for. -/
def readXml : List Char → List Char
  | '&' :: 'a' :: 'm' :: 'p' :: ';' :: cs => '&' :: readXml cs
  | '&' :: 'l' :: 't' :: ';' :: cs => '<' :: readXml cs
  | '&' :: 'g' :: 't' :: ';' :: cs => '>' :: readXml cs
  | '&' :: 'q' :: 'u' :: 'o' :: 't' :: ';' :: cs => '"' :: readXml cs
  | c :: cs => c :: readXml cs
  | [] => []

theorem readXml_cons {c : Char} (hc : c ≠ '&') (cs : List Char) :
    readXml (c :: cs) = c :: readXml cs := by
  rw [readXml.eq_def]
  split <;> simp_all

theorem toList_xml (text : String) :
    (xml text).toList = text.toList.flatMap fun c => (xmlChar c).toList := by
  rw [xml]
  induction text.toList with
  | nil => rfl
  | cons c cs ih => simp [ih]

theorem readXml_xmlChar (c : Char) (cs : List Char) :
    readXml ((xmlChar c).toList ++ cs) = c :: readXml cs := by
  by_cases hamp : c = '&'
  · subst hamp
    rfl
  · by_cases hless : c = '<'
    · subst hless
      rfl
    · by_cases hmore : c = '>'
      · subst hmore
        rfl
      · by_cases hquote : c = '"'
        · subst hquote
          rfl
        · rw [xmlChar, if_neg hamp, if_neg hless, if_neg hmore, if_neg hquote,
            String.toList_singleton, List.singleton_append, readXml_cons hamp]

theorem readXml_append (text : String) (cs : List Char) :
    readXml ((xml text).toList ++ cs) = text.toList ++ readXml cs := by
  rw [toList_xml]
  induction text.toList with
  | nil => rfl
  | cons c rest ih =>
    rw [List.flatMap_cons, List.append_assoc, readXml_xmlChar, ih, List.cons_append]

/-- The text that character data of an XML document stands for. -/
def ofXml (text : String) : String := String.ofList (readXml text.toList)

end Text

section
variable {tileSize maxLevel : Nat} {kept : Int → Int → Prop} {root : TileTree}

theorem IsCellTree.level_root (ht : 0 < tileSize) (h : IsCellTree tileSize maxLevel kept root) :
    root.value.level = 0 := by
  have hroot := root.self_mem_preorder
  obtain ⟨hlevel, hx, hy, hmeets⟩ := (h.occurs_iff _ _ _).mp ⟨root, hroot, rfl⟩
  -- The first cell meets what the cell of the root meets, so a node of the tree has its place, and
  -- below the root no level is less than that of the root.
  have hfirst := hmeets.above ht (Nat.zero_le _) hlevel
  rw [Nat.sub_zero, Nat.div_eq_of_lt hx, Nat.div_eq_of_lt hy] at hfirst
  obtain ⟨n, hn, hplace⟩ := (h.occurs_iff 0 0 0).mpr
    ⟨Nat.zero_le _, Nat.one_pos, Nat.one_pos, hfirst⟩
  have hstep : ∀ m ∈ root.preorder, ∀ c ∈ m.children, m.value.level ≤ c.value.level := by
    intro m hm c hc
    rw [h.level_child hm hc]
    exact Nat.le_succ _
  have hle {m : TileTree}
      (hm : Relation.ReflTransGen (fun m c : TileTree => m.value.level ≤ c.value.level) root m) :
      root.value.level ≤ m.value.level := by
    induction hm with
    | refl => exact le_rfl
    | tail _ hlast ih => exact ih.trans hlast
  have hbelow := hle (Tree.reflTransGen_of_mem_preorder hstep hn)
  have hzero : n.value.level = 0 := congrArg Prod.fst hplace
  omega

end

namespace Kml

variable {α : Type} [Arith α]

/-- What the link of an entry document says to those who read its XML. -/
def Entry.reference (e : Entry α) : String := Text.ofXml e.link.href

theorem reference_entry (info : PyramidInfo) (extent : DegreeBox α) (root : TileTree) :
    (entry info extent root).reference = info.stem ++ "/" ++ "root.kml" := by
  have hplain : Text.readXml "/root.kml".toList = "/root.kml".toList := rfl
  rw [Entry.reference, entry, Text.ofXml, String.toList_append, Text.readXml_append, hplain,
    String.ofList_append, String.ofList_toList, String.ofList_toList, String.append_assoc]
  rfl

private theorem isName_rootDocument : Path.IsName "root.kml" := by
  constructor <;> decide

section
variable {info : PyramidInfo} {n : String}

theorem components_resolve_entry (h : info.name.fileName? = some n) :
    ((entryPath info).resolve (info.stem ++ "/" ++ "root.kml")).components =
      info.name.components ++ [.name "root.kml"] := by
  obtain ⟨q, hq⟩ := Path.exists_parent? h
  have hname := Path.isName_of_fileName? h
  have hjoin := q.join_join_name hname isName_rootDocument.startsWith
  have hentry : entryPath info = q.join ⟨n ++ ".kml"⟩ := by
    rw [entryPath, PyramidInfo.beside, stem_of_fileName? h, Path.withFileName, h,
      Option.isSome_some, if_pos rfl, hq, Option.getD_some]
  have hdown : (n ++ "/" ++ "root.kml").startsWith "/" = false := by
    rw [String.append_assoc]
    exact hname.startsWith_append ("/" ++ "root.kml")
  rw [hentry, stem_of_fileName? h, Path.components_resolve_join q (isName_kml h) hdown, ← hjoin,
    Path.components_join_name _ isName_rootDocument, Path.components_join_name q hname,
    Path.components_parent? hq, ← Path.components_of_fileName? h]

theorem entryPath_of_fileName? (h : info.name.fileName? = none) :
    entryPath info = info.name.join ⟨"root.kml"⟩ := by
  have hstem : info.stem = "root" := by rw [PyramidInfo.stem, h, Option.getD_none]
  rw [entryPath, PyramidInfo.beside, hstem, Path.withFileName, h]
  rfl

end

section
variable (info : PyramidInfo) {tileSize maxLevel : Nat} {kept : Int → Int → Prop} {root : TileTree}

theorem documentPath_root (ht : 0 < tileSize) (hcells : IsCellTree tileSize maxLevel kept root) :
    documentPath info root.value = info.name.join ⟨"root.kml"⟩ := by
  have hlevel := hcells.level_root ht
  have hstem : root.value.stem = "root" := by
    rcases (hcells.isPlaced root.self_mem_preorder).stem_eq with ⟨-, hstem⟩ | ⟨hother, -⟩
    · exact hstem
    · exact absurd hlevel hother
  rw [documentPath, documentName, hstem]
  rfl

theorem resolve_entry_iff (ht : 0 < tileSize) (hcells : IsCellTree tileSize maxLevel kept root)
    (extent : DegreeBox α) :
    ((entryPath info).resolve (entry info extent root).reference).components =
        (documentPath info root.value).components ↔ info.name.fileName?.isSome = true := by
  rw [reference_entry, documentPath_root info ht hcells,
    Path.components_join_name info.name isName_rootDocument]
  cases hname : info.name.fileName? with
  | some n => exact iff_of_true (components_resolve_entry hname) rfl
  | none =>
    have hstem : info.stem = "root" := by rw [PyramidInfo.stem, hname, Option.getD_none]
    have hroot : Path.IsName "root" := by constructor <;> decide
    have hjoin := info.name.join_join_name hroot isName_rootDocument.startsWith
    have hdown : ("root" ++ "/" ++ "root.kml").startsWith "/" = false :=
      hroot.startsWith_append ("/" ++ "root.kml")
    refine iff_of_false ?_ Bool.false_ne_true
    rw [entryPath_of_fileName? hname, hstem,
      Path.components_resolve_join info.name isName_rootDocument hdown, ← hjoin,
      Path.components_join_name _ isName_rootDocument, Path.components_join_name _ hroot]
    intro heq
    have hlength := congrArg List.length heq
    simp at hlength

variable [NumberText α]

/-- The documents of a super-overlay get paths of their own exactly if its name has a last
component. -/
theorem nodup_files_iff (ht : 0 < tileSize) (hcells : IsCellTree tileSize maxLevel kept root)
    (extent : DegreeBox α) (maxLod : Int) (offset : UInt32) :
    ((files info extent maxLod offset root).map fun f => f.1.components).Nodup ↔
      info.name.fileName?.isSome = true := by
  have hpaths : ((files info extent maxLod offset root).map fun f => f.1.components) =
      (root.preorder.map fun n => (documentPath info n.value).components) ++
        [(entryPath info).components] := by
    rw [files_eq, List.map_append, List.map_map]
    rfl
  rw [hpaths, List.nodup_append_comm, List.singleton_append, List.nodup_cons]
  have hdocuments : (root.preorder.map fun n => (documentPath info n.value).components).Nodup :=
    nodup_documentPaths hcells
  constructor
  · rintro ⟨hnew, -⟩
    by_contra hname
    rw [Option.not_isSome_iff_eq_none] at hname
    refine hnew (List.mem_map.mpr ⟨root, root.self_mem_preorder, ?_⟩)
    rw [documentPath_root info ht hcells, entryPath_of_fileName? hname]
  · intro hname
    obtain ⟨n, hn⟩ := Option.isSome_iff_exists.mp hname
    refine ⟨fun hmem => ?_, hdocuments⟩
    obtain ⟨m, hm, hpath⟩ := List.mem_map.mp hmem
    refine not_prefix_beside hn ?_
    change info.name.components <+: (entryPath info).components
    rw [← hpath, components_documentPath info (hcells.isPlaced hm)]
    exact List.prefix_append _ _

end
end Kml

namespace Mosaic

/-- A run for a globe viewer writes one metadata file for every node and one more, the entry
document. The files have paths of their own, and the link of the entry document leads to the
document of the root, exactly if the output name has a last component. Then the entry document lies
next to the directory; otherwise it replaces the document of the root. -/
theorem plan_entry_document {α σ S : Type} [Cartography α] [Arith σ] [Narrow α σ]
    {o : Options α σ} (hmode : o.mode = .kml) {sources : List (Source α σ)}
    {range : Option (ValueRange σ)} {w : TileWriter (StateM S) σ} {report : α → StateM S Unit}
    {s : S} {summary : Summary α}
    (h : (((plan o sources range).execute w report).run s).1 = .ok summary) :
    let log := (((plan o sources range).execute w.logged (besideLog report)).run (s, [])).2.2
    let written := log.filterMap fun a => a.call.file?
    ∃ checked info maxLod offset, ∃ extent : DegreeBox α,
      checkedOptions o sources = .ok checked ∧ info.name = checked.name ∧
      (∀ a ∈ log, a.answer = .ok ()) ∧
      written = (summary.root.preorder.map fun n => (Kml.documentPath info n.value,
          Text.ofLines (Kml.document info extent maxLod offset n).lines)) ++
        [(Kml.entryPath info, Text.ofLines (Kml.entry info extent summary.root).lines)] ∧
      written.length = summary.root.count + 1 ∧
      ((written.map fun f => f.1.components).Nodup ↔ checked.name.fileName?.isSome = true) ∧
      (((Kml.entryPath info).resolve (Kml.entry info extent summary.root).reference).components =
          (Kml.documentPath info summary.root.value).components ↔
        checked.name.fileName?.isSome = true) ∧
      (∀ n, checked.name.fileName? = some n → (Kml.entryPath info).components =
        checked.name.components.dropLast ++ [.name (n ++ ".kml")]) ∧
      (checked.name.fileName? = none →
        Kml.entryPath info = Kml.documentPath info summary.root.value) := by
  intro log written
  obtain ⟨checked, image, extent, settings, hchecked, hsettings, hwrites⟩ :=
    exists_writes_of_plan (Plan.execute_eq_ok h)
  obtain ⟨htile, -, hmode', -, hpos, -⟩ := checkedOptions_eq_ok hchecked
  rw [ViewerSettings.ofOptions, hmode', hmode] at hsettings
  obtain rfl := Except.ok.inj hsettings
  obtain ⟨kept, hcells⟩ := hwrites.cells
  have hsize : 0 < (checked.pyramidOf image).tileSize := by
    change 0 < checked.tileSize
    omega
  have hlog : log = (plan o sources range).calls.map fun c => ⟨c, .ok ()⟩ :=
    Plan.asked_of_execute_eq_ok h
  have hwritten : written = Kml.files (checked.pyramidOf image) extent checked.kml.maxLodPixels
      checked.kml.drawOrderOffset summary.root := by
    have hfiles := Except.ok.inj hwrites.files
    refine Eq.trans ?_ hfiles.symm
    rw [← Plan.filterMap_file?_calls]
    change log.filterMap _ = _
    rw [hlog, List.filterMap_map]
    rfl
  have hnodup := Kml.nodup_files_iff (checked.pyramidOf image) hsize hcells extent
    checked.kml.maxLodPixels checked.kml.drawOrderOffset
  rw [← hwritten] at hnodup
  refine ⟨checked, checked.pyramidOf image, _, _, extent, hchecked, rfl, ?_,
    hwritten.trans (Kml.files_eq _ _ _ _ _), ?_, hnodup,
    Kml.resolve_entry_iff _ hsize hcells extent, fun n hn => ?_, fun hname => ?_⟩
  · intro a ha
    rw [hlog] at ha
    obtain ⟨c, -, rfl⟩ := List.mem_map.mp ha
    rfl
  · rw [hwritten, Kml.files_eq, List.length_append, List.length_map, Tree.length_preorder]
    rfl
  · have hlast : (checked.pyramidOf image).name.fileName? = some n := hn
    exact Kml.components_beside hlast
  · have hnone : (checked.pyramidOf image).name.fileName? = none := hname
    rw [Kml.entryPath_of_fileName? hnone, Kml.documentPath_root _ hsize hcells]

/-- A root and its four children: five documents and the entry document, at six paths. -/
theorem plan_entry_document_square :
    let p := plan (.globeRun 1 8) [.clearSquare 2 45 90 90] none
    let written := ((p.execute TileWriter.recorder.logged (besideLog fun _ => pure ())).run
      ([], [])).2.2.filterMap fun a => a.call.file?
    (Options.globeRun 1 8).mode = .kml ∧
      ∃ summary, ((p.execute TileWriter.recorder fun _ => pure ()).run []).1 = .ok summary ∧
        written.length = 6 ∧ (written.map fun f => f.1.components).Nodup := by
  intro p written
  obtain ⟨summary, hrun, hnodes⟩ := exists_recorded_run (.globeRun 1 8) [.clearSquare 2 45 90 90]
    none (fun s => s.root.count) 5 (by decide +kernel)
  obtain ⟨checked, info, maxLod, offset, extent, hchecked, -, -, -, hcount, hnodup, -⟩ :=
    plan_entry_document (o := .globeRun 1 8) rfl hrun
  have hname : ((checkedOptions (.globeRun 1 8) [.clearSquare 2 45 90 90]).toOption.map fun o =>
      o.name.fileName?) = some (some "square") := by decide +kernel
  rw [hchecked] at hname
  have hsome : checked.name.fileName?.isSome = true := by
    rw [show checked.name.fileName? = some "square" from Option.some.inj hname]
    rfl
  rw [hnodes] at hcount
  exact ⟨rfl, summary, hrun, hcount, hnodup.mpr hsome⟩

/-- Below the current directory the entry document replaces the document of the root. -/
theorem plan_entry_document_lost :
    let p := plan { Options.globeRun 1 8 with outputName := some ⟨"."⟩ } [.clearSquare 2 45 90 90]
      none
    (∃ summary, ((p.execute TileWriter.recorder fun _ => pure ()).run []).1 = .ok summary) ∧
      ¬(p.files.map fun f => f.1.components).Nodup := by
  intro p
  obtain ⟨summary, hrun, -⟩ := exists_recorded_run
    { Options.globeRun 1 8 with outputName := some ⟨"."⟩ } [.clearSquare 2 45 90 90] none
    (fun s => s.root.count) 5 (by decide +kernel)
  exact ⟨⟨summary, hrun⟩, by decide +kernel⟩

end Mosaic
end TilePyramid
