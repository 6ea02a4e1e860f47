import TilePyramid.Proofs.Resolving
import TilePyramid.Source.ImageFile
import Mathlib.Data.String.Basic

/-!
# World files beside an image

The first candidate for the world file of an image is made of the first and the last byte of the
extension. Main statement: an image that decodes is loaded with the first candidate that is a file,
unless its extension has two bytes or more and begins or ends with a character of several bytes.
Such an extension cannot be cut there, and loading breaks off.
-/
namespace TilePyramid

namespace Text

theorem utf8Size_toLower (c : Char) : c.toLower.utf8Size = c.utf8Size := by
  delta Char.toLower
  split
  · next hupper =>
    obtain ⟨-, hlast⟩ := hupper
    rw [UInt32.le_iff_toNat_le] at hlast
    have hc : c.utf8Size = 1 := by
      rw [Char.utf8Size_eq_one_iff, UInt32.le_iff_toNat_le]
      exact hlast.trans (by decide)
    have hend : 'Z'.val.toNat = 90 := rfl
    have hshift : ('a'.val - 'A'.val).toNat = 32 := rfl
    have hone : (127 : UInt32).toNat = 127 := rfl
    rw [hc, Char.utf8Size_eq_one_iff, UInt32.le_iff_toNat_le, UInt32.toNat_add, hshift]
    omega
  · rfl

theorem toList_lower (text : String) : (lower text).toList = text.toList.map Char.toLower := by
  rw [lower, String.toList_ofList]

theorem utf8ByteSize_eq (s : String) : s.utf8ByteSize = String.utf8Len s.toList := by
  rw [← String.utf8ByteSize_ofList, String.ofList_toList]

theorem utf8ByteSize_lower (text : String) : (lower text).utf8ByteSize = text.utf8ByteSize := by
  rw [utf8ByteSize_eq, utf8ByteSize_eq, toList_lower]
  induction text.toList with
  | nil => rfl
  | cons c cs ih =>
    rw [List.map_cons, String.utf8Len_cons, String.utf8Len_cons, ih, utf8Size_toLower]

theorem utf8ByteSize_eq_one_iff {s : String} :
    s.utf8ByteSize = 1 ↔ ∃ c, s.toList = [c] ∧ c.utf8Size = 1 := by
  rw [utf8ByteSize_eq]
  constructor
  · intro h
    cases hs : s.toList with
    | nil =>
      rw [hs] at h
      cases h
    | cons c cs =>
      rw [hs, String.utf8Len_cons] at h
      have hpos := c.utf8Size_pos
      obtain rfl := String.utf8Len_eq_zero.mp (show String.utf8Len cs = 0 by omega)
      exact ⟨c, rfl, by simpa using h⟩
  · rintro ⟨c, hs, hc⟩
    rw [hs, String.utf8Len_cons, hc]
    rfl

theorem isValid_one_iff {s : String} :
    (⟨1⟩ : String.Pos.Raw).IsValid s ↔ ∃ c cs, s.toList = c :: cs ∧ c.utf8Size = 1 := by
  rw [String.Pos.Raw.isValid_iff_exists_append]
  constructor
  · rintro ⟨front, back, rfl, hsize⟩
    obtain ⟨c, hfront, hc⟩ := utf8ByteSize_eq_one_iff.mp (congrArg String.Pos.Raw.byteIdx hsize).symm
    exact ⟨c, back.toList, by rw [String.toList_append, hfront]; rfl, hc⟩
  · rintro ⟨c, cs, hs, hc⟩
    refine ⟨String.ofList [c], String.ofList cs, ?_, ?_⟩
    · rw [← String.ofList_append, List.singleton_append, ← hs, String.ofList_toList]
    · have hone := utf8ByteSize_eq_one_iff.mpr ⟨c, String.toList_ofList, hc⟩
      exact congrArg String.Pos.Raw.mk hone.symm

theorem isValid_last_iff {s : String} (hs : s ≠ "") :
    (⟨s.utf8ByteSize - 1⟩ : String.Pos.Raw).IsValid s ↔
      ∃ cs c, s.toList = cs ++ [c] ∧ c.utf8Size = 1 := by
  have hpos : s.utf8ByteSize ≠ 0 := fun h => hs (String.utf8ByteSize_eq_zero_iff.mp h)
  rw [String.Pos.Raw.isValid_iff_exists_append]
  constructor
  · rintro ⟨front, back, rfl, hsize⟩
    have hfront : (front ++ back).utf8ByteSize - 1 = front.utf8ByteSize :=
      congrArg String.Pos.Raw.byteIdx hsize
    rw [String.utf8ByteSize_append] at hfront hpos
    obtain ⟨c, hback, hc⟩ := utf8ByteSize_eq_one_iff.mp (show back.utf8ByteSize = 1 by omega)
    exact ⟨front.toList, c, by rw [String.toList_append, hback], hc⟩
  · rintro ⟨cs, c, htext, hc⟩
    have hsplit : s = String.ofList cs ++ String.ofList [c] := by
      rw [← String.ofList_append, ← htext, String.ofList_toList]
    have hone := utf8ByteSize_eq_one_iff.mpr ⟨c, String.toList_ofList, hc⟩
    refine ⟨String.ofList cs, String.ofList [c], hsplit, ?_⟩
    have hsize := congrArg String.utf8ByteSize hsplit
    rw [String.utf8ByteSize_append, hone] at hsize
    exact congrArg String.Pos.Raw.mk (by omega)

/-- The first and the last byte of a text are characters of it, so that either can be cut off. -/
def EndsInBytes (s : String) : Prop :=
  (⟨1⟩ : String.Pos.Raw).IsValid s ∧ (⟨s.utf8ByteSize - 1⟩ : String.Pos.Raw).IsValid s

theorem endsInBytes_iff {s : String} (hs : s ≠ "") : EndsInBytes s ↔
    (∃ c, s.toList.head? = some c ∧ c.utf8Size = 1) ∧
      ∃ c, s.toList.getLast? = some c ∧ c.utf8Size = 1 := by
  rw [EndsInBytes, isValid_one_iff, isValid_last_iff hs]
  refine and_congr ⟨?_, ?_⟩ ⟨?_, ?_⟩
  · rintro ⟨c, cs, hs, hc⟩
    exact ⟨c, by rw [hs, List.head?_cons], hc⟩
  · rintro ⟨c, hs, hc⟩
    obtain ⟨cs, hs⟩ := List.head?_eq_some_iff.mp hs
    exact ⟨c, cs, hs, hc⟩
  · rintro ⟨cs, c, hs, hc⟩
    exact ⟨c, by rw [hs, List.getLast?_concat], hc⟩
  · rintro ⟨c, hs, hc⟩
    obtain ⟨cs, hs⟩ := List.getLast?_eq_some_iff.mp hs
    exact ⟨cs, c, hs, hc⟩

theorem EndsInBytes.exists_ends {s : String} (h : EndsInBytes s) (hsize : 2 ≤ s.utf8ByteSize) :
    ∃ first middle last, s.toList = first :: (middle ++ [last]) ∧ first.utf8Size = 1 ∧
      last.utf8Size = 1 := by
  have hne : s ≠ "" := by
    rintro rfl
    exact absurd hsize (by decide)
  obtain ⟨first, rest, hfront, hfirst⟩ := isValid_one_iff.mp h.1
  obtain ⟨before, last, hback, hlast⟩ := (isValid_last_iff hne).mp h.2
  cases before with
  | nil =>
    rw [utf8ByteSize_eq, hback, List.nil_append, String.utf8Len_cons, hlast] at hsize
    exact absurd hsize (by decide)
  | cons c middle =>
    obtain rfl : first = c := (List.cons.inj (hfront.symm.trans hback)).1
    exact ⟨first, middle, last, hback, hfirst, hlast⟩

end Text

theorem FileTree.read_of_file? {σ : Type} (t : FileTree σ) {path : Path} {place : List String}
    {content : FileContent σ} (hreach : t.reach [] path.components = some place)
    (hfile : t.file? place = some content) (hpath : namesDirectory path = false) :
    t.read path = .ok content := by
  simp only [read, hreach, hfile, hpath]
  rfl

namespace ImageFile

theorem worldExtensions_of_size {ext : String} (h : ext.utf8ByteSize < 2) :
    worldExtensions ext = .ok [Text.lower ext ++ "w", "wld"] := by
  rw [worldExtensions, Text.utf8ByteSize_lower, if_pos h]

theorem worldExtensions_of_ends {ext : String} {first last : Char} {middle : List Char}
    (h : ext.toList = first :: (middle ++ [last])) (hfirst : first.utf8Size = 1)
    (hlast : last.utf8Size = 1) :
    worldExtensions ext = .ok [String.ofList [first.toLower, last.toLower, 'w'],
      Text.lower ext ++ "w", "wld"] := by
  have hsize : ¬ (Text.lower ext).utf8ByteSize < 2 := by
    rw [Text.utf8ByteSize_lower, Text.utf8ByteSize_eq, h, String.utf8Len_cons,
      String.utf8Len_append, String.utf8Len_cons, hfirst, hlast]
    omega
  have hfront : (Text.lower ext).toList.head? = some first.toLower := by
    rw [Text.toList_lower, h, List.map_cons, List.head?_cons]
  have hback : (Text.lower ext).toList.getLast? = some last.toLower := by
    rw [Text.toList_lower, h, List.getLast?_map, ← List.cons_append, List.getLast?_concat]
    rfl
  rw [worldExtensions, if_neg hsize]
  simp only [hfront, hback, Text.utf8Size_toLower, hfirst, hlast, decide_true, Bool.and_self,
    if_true]

theorem worldExtensions_of_not_ends {ext : String} (h : 2 ≤ ext.utf8ByteSize)
    (hends : ¬ Text.EndsInBytes ext) :
    worldExtensions ext = .error (.extensionEnds (Text.lower ext)) := by
  have hne : ext ≠ "" := by
    rintro rfl
    exact absurd h (by decide)
  have hlist : ext.toList ≠ [] := fun hnil => hne (String.toList_eq_nil_iff.mp hnil)
  have hhead := List.head?_eq_some_head hlist
  have hlast := List.getLast?_eq_some_getLast hlist
  have hfront : (Text.lower ext).toList.head? = some (ext.toList.head hlist).toLower := by
    rw [Text.toList_lower, List.head?_map, hhead]
    rfl
  have hback : (Text.lower ext).toList.getLast? = some (ext.toList.getLast hlist).toLower := by
    rw [Text.toList_lower, List.getLast?_map, hlast]
    rfl
  have hbytes : ¬ ((ext.toList.head hlist).utf8Size = 1 ∧
      (ext.toList.getLast hlist).utf8Size = 1) := fun hboth =>
    hends ((Text.endsInBytes_iff hne).mpr ⟨⟨_, hhead, hboth.1⟩, _, hlast, hboth.2⟩)
  rw [worldExtensions, if_neg (by rw [Text.utf8ByteSize_lower]; omega)]
  simp only [hfront, hback, Text.utf8Size_toLower, Bool.and_eq_true, decide_eq_true_eq,
    if_neg hbytes]

theorem worldPaths_of_extension {path : Path} {ext : String} (h : path.extension? = some ext) :
    worldPaths path = (worldExtensions ext).map fun names => names.map path.withExtension := by
  simp only [worldPaths, h]

section
variable {α σ : Type} [Cartography α] [Decimal.OfLiteral α]

theorem readText_ne_extensionEnds (t : FileTree σ) (path : Path) (ext : String) :
    readText t path ≠ .error (.extensionEnds ext) := by
  refine bind_ne_error ?_ fun content _ => ?_
  · rw [FileTree.read]
    split
    · simp
    · split
      · simp
      · split <;> simp
  · cases content <;> simp

omit [Cartography α] in
theorem read_ne_extensionEnds [Arith α] (text ext : String) :
    (WorldFile.read text : Except Error (Affine α)) ≠ .error (.extensionEnds ext) := by
  refine bind_ne_error ?_ fun values _ => ?_
  · refine mapM_ne_error fun w _ => ?_
    split <;> simp
  · split <;> simp

omit [Decimal.OfLiteral α] in
theorem ofDegrees_ne_extensionEnds (transform : Affine α) (datum : Datum α) (ext : String) :
    GeoReference.ofDegrees transform datum ≠ .error (.extensionEnds ext) := by
  rw [GeoReference.ofDegrees, GeoReference.make]
  split
  · simp
  · dsimp only
    split
    · simp
    · split <;> simp

/-- What the world file says that was found for an image. -/
def georefOf (t : FileTree σ) : Option Path → Except Error (Option (GeoReference α))
  | none => return none
  | some world => do
    let transform ← WorldFile.read (← readText t world)
    return some (← GeoReference.ofDegrees transform .wgs84)

/-- An image with what its world file says. -/
def loadWith [Arith σ] (t : FileTree σ) (path : Path) (encoded : EncodedImage σ)
    (world : Option Path) : Except Error (Source α σ) := do
  let georef ← georefOf t world
  return { name := path.text, raster := .ofImage encoded.image, nodata := none, georef }

theorem georefOf_ne_extensionEnds (t : FileTree σ) (world : Option Path) (ext : String) :
    (georefOf t world : Except Error (Option (GeoReference α))) ≠ .error (.extensionEnds ext) := by
  cases world with
  | none => simp [georefOf]
  | some world =>
    refine bind_ne_error (readText_ne_extensionEnds t world ext) fun text _ => ?_
    refine bind_ne_error (read_ne_extensionEnds text ext) fun transform _ => ?_
    exact bind_ne_error (ofDegrees_ne_extensionEnds transform .wgs84 ext) fun _ _ => by simp

section
variable [Arith σ] {t : FileTree σ} {path : Path} {encoded : EncodedImage σ}
  (hread : t.read path = .ok (.image encoded))

include hread

theorem load_of_worldPaths {paths : List Path} (h : worldPaths path = .ok paths) :
    (load t path : Except Error (Source α σ)) = loadWith t path encoded (paths.find? t.isFile) := by
  rw [load, hread]
  simp only [georef?, worldFile?, h, Except.map]
  cases paths.find? t.isFile <;> rfl

theorem load_of_error {e : Error} (h : worldPaths path = .error e) :
    (load t path : Except Error (Source α σ)) = .error e := by
  rw [load, hread]
  simp only [georef?, worldFile?, h]
  rfl

/-- Loading an image breaks off for its extension exactly if that has two bytes or more and begins
or ends with a character of several bytes. Otherwise the georeference is that of the first file
among the candidates: the first and the last character with a `w`, the whole extension with a `w`,
and `wld`, in lower case. A shorter extension has the last two of them, and no extension has none.
-/
theorem load_world_file :
    let loaded : Except Error (Source α σ) := load t path
    let loadedAmong (names : List String) : Except Error (Source α σ) :=
      loadWith t path encoded ((names.map path.withExtension).find? t.isFile)
    ((∃ e, loaded = .error (.extensionEnds e)) ↔
      ∃ ext, path.extension? = some ext ∧ 2 ≤ ext.utf8ByteSize ∧ ¬ Text.EndsInBytes ext) ∧
    (path.extension? = none → loaded = loadWith t path encoded none) ∧
    ∀ ext, path.extension? = some ext →
      (ext.utf8ByteSize < 2 → loaded = loadedAmong [Text.lower ext ++ "w", "wld"]) ∧
      (2 ≤ ext.utf8ByteSize → Text.EndsInBytes ext → ∃ first middle last,
        ext.toList = first :: (middle ++ [last]) ∧ loaded = loadedAmong
          [String.ofList [first.toLower, last.toLower, 'w'], Text.lower ext ++ "w", "wld"]) := by
  intro loaded loadedAmong
  have hgoes {paths : List Path} (h : worldPaths path = .ok paths) (e : String) :
      loaded ≠ .error (.extensionEnds e) := by
    refine (load_of_worldPaths hread h).trans_ne ?_
    exact bind_ne_error (georefOf_ne_extensionEnds t _ e) fun _ _ => by simp
  cases hext : path.extension? with
  | none =>
    have hpaths : worldPaths path = .ok [] := by rw [worldPaths, hext]
    refine ⟨iff_of_false (fun ⟨e, h⟩ => hgoes hpaths e h) (by simp), fun _ => ?_, by simp⟩
    exact load_of_worldPaths hread hpaths
  | some ext =>
    have hpaths {names : List String} (h : worldExtensions ext = .ok names) :
        worldPaths path = .ok (names.map path.withExtension) := by
      rw [worldPaths_of_extension hext, h]
      rfl
    simp only [Option.some.injEq, exists_eq_left', forall_eq', reduceCtorEq, false_implies, true_and]
    by_cases hsize : ext.utf8ByteSize < 2
    · have hshort := hpaths (worldExtensions_of_size hsize)
      refine ⟨iff_of_false (fun ⟨e, h⟩ => hgoes hshort e h) (by omega), fun _ => ?_, by omega⟩
      exact load_of_worldPaths hread hshort
    · by_cases hends : Text.EndsInBytes ext
      · obtain ⟨first, middle, last, htext, hfirst, hlast⟩ := hends.exists_ends (by omega)
        have hlong := hpaths (worldExtensions_of_ends htext hfirst hlast)
        refine ⟨iff_of_false (fun ⟨e, h⟩ => hgoes hlong e h) (by simp [hends]), by omega,
          fun _ _ => ⟨first, middle, last, htext, ?_⟩⟩
        exact load_of_worldPaths hread hlong
      · have hfails : worldPaths path = .error (.extensionEnds (Text.lower ext)) := by
          rw [worldPaths_of_extension hext, worldExtensions_of_not_ends (by omega) hends]
          rfl
        exact ⟨iff_of_true ⟨_, load_of_error hread hfails⟩ ⟨by omega, hends⟩, by omega,
          fun _ h => absurd h hends⟩

end
end

/-- A directory of an image of one pixel and of world files beside it. -/
def besideImage (image : String) (worlds : List String) : FileTree Float32 where
  directories := []
  files := ([image], .image ⟨.png, ⟨.l8, 1, 1, #[ofInt 7]⟩, .standard⟩) ::
    worlds.map fun world => ([world], .text "1 0 0 -1 0 0")

/-- Of two world files the one that comes first among the candidates is read. -/
theorem load_world_file_png :
    let t := besideImage "x.PNG" ["x.wld", "x.pngw"]
    ∃ encoded, t.read ⟨"x.PNG"⟩ = .ok (.image encoded) ∧
      (load t ⟨"x.PNG"⟩ : Except Error (Source Float Float32)) =
        loadWith t ⟨"x.PNG"⟩ encoded (some ⟨"x.pngw"⟩) := by
  intro t
  have hreach : t.reach [] (Path.components ⟨"x.PNG"⟩) = some ["x.PNG"] := by decide +kernel
  have hread := t.read_of_file? hreach rfl (by decide +kernel)
  refine ⟨_, hread, ?_⟩
  obtain ⟨-, -, hworld⟩ := load_world_file (α := Float) hread
  have hends : Text.EndsInBytes "PNG" :=
    (Text.endsInBytes_iff (by decide)).mpr ⟨⟨'P', rfl, rfl⟩, 'G', rfl, rfl⟩
  obtain ⟨first, middle, last, htext, hload⟩ :=
    (hworld "PNG" (by decide +kernel)).2 (by decide) hends
  obtain rfl : 'P' = first := (List.cons.inj htext).1
  obtain rfl : 'G' = last := by
    have hlast := congrArg List.getLast? htext
    rw [← List.cons_append, List.getLast?_concat] at hlast
    exact Option.some.inj hlast
  have hfound : ((([String.ofList ['p', 'g', 'w'], Text.lower "PNG" ++ "w", "wld"].map
      (Path.withExtension ⟨"x.PNG"⟩)).find? t.isFile).map Path.text) = some "x.pngw" := by
    decide +kernel
  obtain ⟨world, hfound, hname⟩ := Option.map_eq_some_iff.mp hfound
  obtain rfl : world = ⟨"x.pngw"⟩ := congrArg Path.mk hname
  exact hload.trans (congrArg _ hfound)

/-- The last of three letters has two bytes, and the world file is not found. -/
theorem load_breaks_off :
    let t := besideImage "x.jpé" ["x.wld"]
    (∃ encoded, t.read ⟨"x.jpé"⟩ = .ok (.image encoded)) ∧ t.isFile ⟨"x.wld"⟩ = true ∧
      (load t ⟨"x.jpé"⟩ : Except Error (Source Float Float32)) = .error (.extensionEnds "jpé") := by
  intro t
  have hreach : t.reach [] (Path.components ⟨"x.jpé"⟩) = some ["x.jpé"] := by decide +kernel
  have hread := t.read_of_file? hreach rfl (by decide +kernel)
  exact ⟨⟨_, hread⟩, by decide +kernel, load_of_error hread rfl⟩

end ImageFile
end TilePyramid
