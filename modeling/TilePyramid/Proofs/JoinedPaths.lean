import TilePyramid.Path

/-!
# Joined paths

What joins of paths do to components. A slash takes a text apart wherever it stands, so a name that
is joined to a path is one component more, and the parent of a path is what comes before its last
component. A reference in a file leads to what it would lead to from the directory of the file.
-/
namespace TilePyramid.Path

/-- A text that is a component of its own: the name of a file or of a directory. -/
structure IsName (s : String) : Prop where
  nonempty : s ≠ ""
  not_here : s ≠ "."
  not_parent : s ≠ ".."
  no_slash : '/' ∉ s.toList

/-- What a text adds to a path that it is joined to. -/
def stepsOf (text : String) : List Component := (componentsFrom 1 [] text.toList).map Prod.fst

section reading

private theorem close_nil (stop : Nat) : componentsFrom.close stop [] = [] := rfl

private theorem componentsFrom_slash (start : Nat) (word cs : List Char) :
    componentsFrom start word ('/' :: cs) =
      (if start = 0 then [(Component.root, 1)] else []) ++ componentsFrom.close start word ++
        componentsFrom (start + 1) [] cs := rfl

private theorem componentsFrom_char {c : Char} (hc : c ≠ '/') (start : Nat) (word cs : List Char) :
    componentsFrom start word (c :: cs) = componentsFrom (start + 1) (c :: word) cs :=
  if_neg hc

private theorem close_eq (stop : Nat) (word : List Char) :
    componentsFrom.close stop word = [] ∨ ∃ c, componentsFrom.close stop word = [(c, stop)] := by
  simp only [componentsFrom.close]
  split
  · exact .inl rfl
  · split
    · exact .inr ⟨_, rfl⟩
    · exact .inl rfl
  · exact .inr ⟨_, rfl⟩
  · exact .inr ⟨_, rfl⟩

private theorem close_eq_append {stop stop' : Nat} {word : List Char} {c : Component}
    {before after : List (Component × Nat)}
    (h : componentsFrom.close stop word = before ++ (c, stop') :: after) :
    before = [] ∧ after = [] ∧ stop' = stop := by
  rcases close_eq stop word with hnone | ⟨d, hone⟩
  · rw [hnone] at h
    simp at h
  · rw [hone, List.singleton_eq_append_iff] at h
    simp_all

private theorem close_name {s : String} (hs : IsName s) (stop : Nat) :
    componentsFrom.close stop s.toList.reverse = [(.name s, stop)] := by
  have hne (t : String) (h : s ≠ t) : s.toList.reverse ≠ t.toList.reverse :=
    fun heq => h (String.toList_inj.mp (List.reverse_inj.mp heq))
  simp only [componentsFrom.close]
  split
  · next h => exact absurd h (hne "" hs.nonempty)
  · next h => exact absurd h (hne "." hs.not_here)
  · next h => exact absurd h (hne ".." hs.not_parent)
  · rw [List.reverse_reverse, String.ofList_toList]

private theorem componentsFrom_of_noSlash (start : Nat) (word : List Char) {cs : List Char}
    (h : '/' ∉ cs) :
    componentsFrom start word cs =
      componentsFrom.close (start + cs.length) (cs.reverse ++ word) := by
  induction cs generalizing start word with
  | nil => rfl
  | cons c cs ih =>
    have hc : c ≠ '/' := (List.ne_of_not_mem_cons h).symm
    rw [componentsFrom_char hc, ih _ _ (List.not_mem_of_not_mem_cons h), List.length_cons,
      List.reverse_cons, List.append_assoc, List.singleton_append]
    congr 1
    omega

private theorem componentsFrom_name (start : Nat) {s : String} (hs : IsName s) :
    componentsFrom start [] s.toList = [(.name s, start + s.length)] := by
  rw [componentsFrom_of_noSlash start [] hs.no_slash, List.append_nil, close_name hs,
    String.length_toList]

private theorem componentsFrom_append_slash (start : Nat) (word cs ds : List Char) :
    componentsFrom start word (cs ++ '/' :: ds) =
      componentsFrom start word (cs ++ ['/']) ++ componentsFrom (start + cs.length + 1) [] ds := by
  induction cs generalizing start word with
  | nil =>
    rw [List.nil_append, List.nil_append, componentsFrom_slash, componentsFrom_slash]
    rw [componentsFrom, close_nil, List.append_nil]
    rfl
  | cons c cs ih =>
    have hlength : start + (c :: cs).length + 1 = start + 1 + cs.length + 1 := by
      rw [List.length_cons]
      omega
    rw [List.cons_append, List.cons_append, hlength]
    by_cases hc : c = '/'
    · rw [hc, componentsFrom_slash, componentsFrom_slash, ih]
      simp only [List.append_assoc]
    · rw [componentsFrom_char hc, componentsFrom_char hc, ih]

private theorem componentsFrom_append_last (start : Nat) (word : List Char) {cs : List Char}
    (h : start + cs.length ≠ 0) :
    componentsFrom start word (cs ++ ['/']) = componentsFrom start word cs := by
  induction cs generalizing start word with
  | nil =>
    rw [List.nil_append, componentsFrom_slash, if_neg (by simpa using h), componentsFrom, close_nil,
      List.append_nil]
    rfl
  | cons c cs ih =>
    rw [List.cons_append]
    by_cases hc : c = '/'
    · rw [hc, componentsFrom_slash, componentsFrom_slash, ih _ _ (by omega)]
    · rw [componentsFrom_char hc, componentsFrom_char hc, ih _ _ (by omega)]

private theorem map_fst_close {stop stop' : Nat} {word : List Char} (h : word.length < stop)
    (h' : word.length < stop') :
    (componentsFrom.close stop word).map Prod.fst =
      (componentsFrom.close stop' word).map Prod.fst := by
  simp only [componentsFrom.close]
  split
  · rfl
  · rw [List.length_singleton] at h h'
    rw [if_neg (by omega), if_neg (by omega)]
  · rfl
  · rfl

private theorem map_fst_componentsFrom {start start' : Nat} {word : List Char}
    (h : word.length < start) (h' : word.length < start') (cs : List Char) :
    (componentsFrom start word cs).map Prod.fst = (componentsFrom start' word cs).map Prod.fst := by
  induction cs generalizing start start' word with
  | nil => exact map_fst_close h h'
  | cons c cs ih =>
    by_cases hc : c = '/'
    · rw [hc, componentsFrom_slash, componentsFrom_slash, if_neg (by omega), if_neg (by omega)]
      simp only [List.nil_append, List.map_append]
      rw [map_fst_close h h', ih (Nat.succ_pos _) (Nat.succ_pos _)]
    · rw [componentsFrom_char hc, componentsFrom_char hc]
      exact ih (Nat.succ_lt_succ h) (Nat.succ_lt_succ h')

private theorem componentsFrom_take {start stop : Nat} {word cs : List Char} {c : Component}
    {before after : List (Component × Nat)} (hstart : start = 0 → word = [])
    (h : componentsFrom start word cs = before ++ (c, stop) :: after) :
    start ≤ stop ∧ stop ≤ start + cs.length ∧
      componentsFrom start word (cs.take (stop - start)) = before ++ [(c, stop)] := by
  induction cs generalizing start word before with
  | nil =>
    have hall : componentsFrom start word ([].take (stop - start)) = before ++ (c, stop) :: after :=
      (congrArg _ List.take_nil).trans h
    rw [componentsFrom] at h
    obtain ⟨rfl, rfl, rfl⟩ := close_eq_append h
    exact ⟨Nat.le_refl _, Nat.le_add_right _ _, hall⟩
  | cons d cs ih =>
    by_cases hd : d = '/'
    · subst hd
      rw [componentsFrom_slash] at h
      -- The component lies behind the slash, or it is what the slash ends or is itself.
      have hbehind {rest : List (Component × Nat)}
          (hrest : componentsFrom (start + 1) [] cs = rest ++ (c, stop) :: after)
          (hbefore : before = (if start = 0 then [(Component.root, 1)] else []) ++
            componentsFrom.close start word ++ rest) :
          start ≤ stop ∧ stop ≤ start + ('/' :: cs).length ∧
            componentsFrom start word (('/' :: cs).take (stop - start)) =
              before ++ [(c, stop)] := by
        obtain ⟨hle, hge, htake⟩ := ih (fun h => absurd h (Nat.succ_ne_zero _)) hrest
        have hsteps : stop - start = stop - (start + 1) + 1 := by omega
        refine ⟨by omega, by rw [List.length_cons]; omega, ?_⟩
        rw [hsteps, List.take_succ_cons, componentsFrom_slash, htake, hbefore,
          List.append_assoc _ rest]
      rcases List.append_eq_append_iff.mp h with ⟨rest, hbefore, hrest⟩ | ⟨ended, hended, hrest⟩
      · exact hbehind hrest hbefore
      · cases ended with
        | nil =>
          have hnext : componentsFrom (start + 1) [] cs = [] ++ (c, stop) :: after := hrest.symm
          exact hbehind hnext (by simpa using hended.symm)
        | cons e ended =>
          obtain ⟨rfl, -⟩ := List.cons_eq_cons.mp hrest
          by_cases hzero : start = 0
          · obtain rfl := hstart hzero
            subst hzero
            rw [if_pos rfl, close_nil, List.append_nil, List.singleton_eq_append_iff] at hended
            rcases hended with ⟨rfl, hroot⟩ | ⟨-, hnil⟩
            · obtain ⟨⟨rfl, rfl⟩, -⟩ := List.cons_eq_cons.mp hroot
              exact ⟨Nat.zero_le _, by rw [List.length_cons]; omega, rfl⟩
            · cases hnil
          · rw [if_neg hzero, List.nil_append] at hended
            obtain ⟨rfl, rfl, rfl⟩ := close_eq_append hended
            rw [Nat.sub_self, List.take_zero]
            exact ⟨Nat.le_refl _, Nat.le_add_right _ _, hended⟩
    · rw [componentsFrom_char hd] at h
      obtain ⟨hle, hge, htake⟩ := ih (fun h => absurd h (Nat.succ_ne_zero _)) h
      refine ⟨by omega, by rw [List.length_cons]; omega, ?_⟩
      have hsteps : stop - start = stop - (start + 1) + 1 := by omega
      rw [hsteps, List.take_succ_cons, componentsFrom_char hd, htake]

private theorem close_ne_nil {word : List Char} (hword : word ≠ []) :
    componentsFrom.close word.length word ≠ [] := by
  simp only [componentsFrom.close]
  split
  · exact absurd rfl hword
  · exact List.cons_ne_nil _ _
  · exact List.cons_ne_nil _ _
  · exact List.cons_ne_nil _ _

private theorem isName_of_mem_close {stop stop' : Nat} {word : List Char} (hword : '/' ∉ word)
    {n : String} (h : (Component.name n, stop') ∈ componentsFrom.close stop word) : IsName n := by
  simp only [componentsFrom.close] at h
  split at h
  · cases h
  · split at h <;> simp at h
  · simp at h
  · next w hnil hhere hparent =>
    obtain ⟨hn, -⟩ := Prod.mk.inj (List.mem_singleton.mp h)
    obtain rfl := Component.name.inj hn
    have hne {t : String} (heq : String.ofList word.reverse = t) : word = t.toList.reverse := by
      rw [← heq, String.toList_ofList, List.reverse_reverse]
    refine ⟨fun heq => hnil (hne heq), fun heq => hhere (hne heq), fun heq => hparent (hne heq), ?_⟩
    rw [String.toList_ofList, List.mem_reverse]
    exact hword

private theorem isName_of_mem_componentsFrom {start stop : Nat} {word cs : List Char}
    (hword : '/' ∉ word) {n : String}
    (h : (Component.name n, stop) ∈ componentsFrom start word cs) : IsName n := by
  induction cs generalizing start word with
  | nil => exact isName_of_mem_close hword h
  | cons c cs ih =>
    by_cases hc : c = '/'
    · rw [hc, componentsFrom_slash, List.mem_append, List.mem_append] at h
      rcases h with (hroot | hclosed) | hbehind
      · split at hroot <;> simp at hroot
      · exact isName_of_mem_close hword hclosed
      · exact ih List.not_mem_nil hbehind
    · rw [componentsFrom_char hc] at h
      exact ih (List.not_mem_cons_of_ne_of_not_mem (Ne.symm hc) hword) h

private theorem componentsFrom_ne_nil {word : List Char} (hword : word ≠ []) (cs : List Char) :
    componentsFrom word.length word cs ≠ [] := by
  induction cs generalizing word with
  | nil => exact close_ne_nil hword
  | cons c cs ih =>
    by_cases hc : c = '/'
    · rw [hc, componentsFrom_slash]
      refine List.append_ne_nil_of_left_ne_nil ?_ _
      exact List.append_ne_nil_of_right_ne_nil _ (close_ne_nil hword)
    · rw [componentsFrom_char hc]
      exact ih (List.cons_ne_nil c word)

end reading

variable {p : Path}

theorem components_eq_nil_iff : p.components = [] ↔ p.text = "" := by
  rw [components, List.map_eq_nil_iff, located, ← String.toList_eq_nil_iff]
  cases p.text.toList with
  | nil => exact iff_of_true rfl rfl
  | cons c cs =>
    refine iff_of_false ?_ (List.cons_ne_nil c cs)
    by_cases hc : c = '/'
    · rw [hc, componentsFrom_slash]
      exact List.cons_ne_nil _ _
    · rw [componentsFrom_char hc]
      exact componentsFrom_ne_nil (List.cons_ne_nil c []) cs

private theorem exists_toList_of_endsWith {s : String} (h : s.endsWith "/" = true) :
    ∃ cs, cs ++ ['/'] = s.toList := by
  rw [String.endsWith_eq_endsWith_toSlice, String.Slice.endsWith_string_iff,
    String.copy_toSlice] at h
  exact h

private theorem exists_located_join (hp : p.text ≠ "") {text : String}
    (ht : text.startsWith "/" = false) :
    ∃ start ≠ 0, (p.join ⟨text⟩).located = p.located ++ componentsFrom start [] text.toList := by
  have hsome : p.text.isEmpty = false := by simpa using hp
  have hlength : 0 + p.text.toList.length ≠ 0 := by simpa using hp
  rw [located, located, join, if_neg (by simp [ht]), hsome, Bool.false_or]
  by_cases hend : p.text.endsWith "/" = true
  · obtain ⟨cs, hcs⟩ := exists_toList_of_endsWith hend
    rw [if_pos hend, String.toList_append]
    refine ⟨0 + cs.length + 1, Nat.succ_ne_zero _, ?_⟩
    rw [← hcs, List.append_assoc]
    exact componentsFrom_append_slash 0 [] cs text.toList
  · rw [if_neg hend, String.toList_append, String.toList_append, List.append_assoc]
    refine ⟨0 + p.text.toList.length + 1, Nat.succ_ne_zero _, ?_⟩
    rw [← componentsFrom_append_last 0 [] hlength]
    exact componentsFrom_append_slash 0 [] p.text.toList text.toList

theorem components_join (hp : p.text ≠ "") {text : String} (ht : text.startsWith "/" = false) :
    (p.join ⟨text⟩).components = p.components ++ stepsOf text := by
  obtain ⟨start, hstart, hlocated⟩ := exists_located_join hp ht
  rw [components, hlocated, List.map_append, components, stepsOf,
    map_fst_componentsFrom (Nat.pos_of_ne_zero hstart) Nat.one_pos]

theorem IsName.startsWith_append {s : String} (hs : IsName s) (text : String) :
    (s ++ text).startsWith "/" = false := by
  rw [String.startsWith_string_eq_false_iff]
  rintro ⟨cs, hcs⟩
  cases hchars : s.toList with
  | nil => exact hs.nonempty (String.toList_eq_nil_iff.mp hchars)
  | cons c rest =>
    rw [String.toList_append, hchars] at hcs
    obtain rfl := List.head_eq_of_cons_eq hcs
    exact hs.no_slash (hchars ▸ List.mem_cons_self)

theorem IsName.startsWith {s : String} (hs : IsName s) : s.startsWith "/" = false := by
  have h := hs.startsWith_append ""
  rwa [String.append_empty] at h

theorem join_empty {q : Path} : Path.join ⟨""⟩ q = q := by
  simp [join]

theorem located_join_name (p : Path) {s : String} (hs : IsName s) :
    ∃ stop, (p.join ⟨s⟩).located = p.located ++ [(.name s, stop)] := by
  by_cases hp : p.text = ""
  · obtain rfl : p = ⟨""⟩ := congrArg Path.mk hp
    rw [join_empty]
    exact ⟨_, componentsFrom_name 0 hs⟩
  · obtain ⟨start, -, hlocated⟩ := exists_located_join hp hs.startsWith
    rw [componentsFrom_name start hs] at hlocated
    exact ⟨_, hlocated⟩

theorem components_join_name (p : Path) {s : String} (hs : IsName s) :
    (p.join ⟨s⟩).components = p.components ++ [.name s] := by
  obtain ⟨stop, hlocated⟩ := located_join_name p hs
  rw [components, hlocated, List.map_append]
  rfl

private theorem exists_join_eq (p : Path) : ∃ front : String, ∀ text : String,
    text.startsWith "/" = false → p.join ⟨text⟩ = ⟨front ++ text⟩ := by
  by_cases h : (p.text.isEmpty || p.text.endsWith "/") = true
  · refine ⟨p.text, fun text ht => ?_⟩
    rw [join, if_neg (by simp [ht]), if_pos h]
  · refine ⟨p.text ++ "/", fun text ht => ?_⟩
    rw [join, if_neg (by simp [ht]), if_neg h]

theorem join_join_name (p : Path) {s : String} (hs : IsName s) {text : String}
    (ht : text.startsWith "/" = false) :
    (p.join ⟨s⟩).join ⟨text⟩ = p.join ⟨s ++ "/" ++ text⟩ := by
  obtain ⟨front, hjoin⟩ := exists_join_eq p
  have hfirst : (s ++ "/" ++ text).startsWith "/" = false := by
    rw [String.append_assoc]
    exact hs.startsWith_append ("/" ++ text)
  have hsome : (front ++ s).isEmpty = false := by simp [hs.nonempty]
  have hlast : (front ++ s).endsWith "/" = false := by
    rw [Bool.eq_false_iff]
    intro hend
    obtain ⟨cs, hcs⟩ := exists_toList_of_endsWith hend
    rw [String.toList_append] at hcs
    have hchars : s.toList ≠ [] := fun hnil => hs.nonempty (String.toList_eq_nil_iff.mp hnil)
    obtain ⟨cs', c, hs'⟩ := List.eq_nil_or_concat s.toList |>.resolve_left hchars
    rw [hs', List.concat_eq_append, ← List.append_assoc] at hcs
    obtain rfl := List.singleton_inj.mp (List.append_inj' hcs rfl).2
    refine hs.no_slash ?_
    rw [hs', List.concat_eq_append]
    exact List.mem_append_right _ (List.mem_singleton_self _)
  rw [hjoin s hs.startsWith, hjoin _ hfirst, join, if_neg (by simp [ht]), hsome, hlast]
  simp only [Bool.or_false, Bool.false_eq_true, if_false, String.append_assoc]

theorem components_parent? {q : Path} (h : p.parent? = some q) :
    q.components = p.components.dropLast := by
  rw [parent?] at h
  split at h
  · cases h
  · cases h
  · next e hlast =>
    obtain rfl := Option.some.inj h
    rw [components, components, List.reverse_eq_cons_iff.mp hlast]
    rfl
  · next e d stop rest _ hlast =>
    obtain rfl := Option.some.inj h
    have hlocated : p.located = rest.reverse ++ (d, stop) :: [e] := by
      rw [List.reverse_eq_iff.mp hlast]
      simp
    obtain ⟨-, -, htake⟩ := componentsFrom_take (fun _ => rfl) hlocated
    rw [components, located, takeText, String.toList_ofList, components, hlocated]
    rw [Nat.sub_zero] at htake
    rw [htake]
    simp

theorem fileName?_join (p : Path) {s : String} (hs : IsName s) :
    (p.join ⟨s⟩).fileName? = some s := by
  obtain ⟨stop, hlocated⟩ := located_join_name p hs
  rw [fileName?, hlocated, List.getLast?_concat]

theorem exists_parent? {n : String} (h : p.fileName? = some n) : ∃ q, p.parent? = some q := by
  rw [fileName?] at h
  split at h
  · next stop hlast =>
    obtain ⟨before, hlocated⟩ := List.getLast?_eq_some_iff.mp hlast
    rw [parent?, hlocated, List.reverse_append, List.reverse_singleton, List.singleton_append]
    cases before.reverse <;> exact ⟨_, rfl⟩
  · cases h

theorem components_parent?_join (p : Path) {s : String} (hs : IsName s) :
    ((p.join ⟨s⟩).parent?.getD ⟨""⟩).components = p.components := by
  obtain ⟨q, hq⟩ := exists_parent? (fileName?_join p hs)
  rw [hq, Option.getD_some, components_parent? hq, components_join_name p hs,
    List.dropLast_concat]

theorem components_withFileName {n s : String} (h : p.fileName? = some n) (hs : IsName s) :
    (p.withFileName s).components = p.components.dropLast ++ [.name s] := by
  obtain ⟨q, hq⟩ := exists_parent? h
  rw [withFileName, h, Option.isSome_some, if_pos rfl, hq, Option.getD_some,
    components_join_name q hs, components_parent? hq]

/-- What a reference in a file leads to. It counts from the directory of the file. -/
def resolve (p : Path) (reference : String) : Path := (p.parent?.getD ⟨""⟩).join ⟨reference⟩

/-- A reference in a file leads to what it would lead to if it were joined to the directory. -/
theorem components_resolve_join (p : Path) {s reference : String} (hs : IsName s)
    (hr : reference.startsWith "/" = false) :
    ((p.join ⟨s⟩).resolve reference).components = (p.join ⟨reference⟩).components := by
  have hparent := components_parent?_join p hs
  rw [resolve]
  generalize (p.join ⟨s⟩).parent?.getD ⟨""⟩ = q at hparent ⊢
  by_cases hp : p.text = ""
  · rw [components_eq_nil_iff.mpr hp, components_eq_nil_iff] at hparent
    rw [show q = p from congrArg Path.mk (hparent.trans hp.symm)]
  · have hq : q.text ≠ "" := fun h =>
      hp (components_eq_nil_iff.mp (hparent.symm.trans (components_eq_nil_iff.mpr h)))
    rw [components_join hq hr, components_join hp hr, hparent]

theorem components_of_fileName? {n : String} (h : p.fileName? = some n) :
    p.components = p.components.dropLast ++ [.name n] := by
  rw [fileName?] at h
  split at h
  · next stop hlast =>
    obtain rfl := Option.some.inj h
    obtain ⟨before, hlocated⟩ := List.getLast?_eq_some_iff.mp hlast
    simp [components, hlocated]
  · cases h

theorem isName_of_fileName? {n : String} (h : p.fileName? = some n) : IsName n := by
  rw [fileName?] at h
  split at h
  · next stop hlast =>
    obtain rfl := Option.some.inj h
    exact isName_of_mem_componentsFrom List.not_mem_nil (List.mem_of_getLast? hlast)
  · cases h

theorem noSlash_of_fileName? {n : String} (h : p.fileName? = some n) : '/' ∉ n.toList :=
  (isName_of_fileName? h).no_slash

theorem IsName.of_mem {s : String} {c : Char} (hslash : '/' ∉ s.toList) (hc : c ∈ s.toList)
    (hdot : c ≠ '.') : IsName s where
  nonempty h := by simp [h] at hc
  not_here h := by simp [h, hdot] at hc
  not_parent h := by simp [h, hdot] at hc
  no_slash := hslash

end TilePyramid.Path
