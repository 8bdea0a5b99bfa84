import GoStencil.Path
import Mathlib.Data.List.Induction

/-!
# Paths by their components

Two paths lead to one place when they have the same components and both begin at the root, or
neither does. Nothing else of a path matters, and its parts are parts of the list of components.

* `Path.components`: the pieces that count.
* `Path.Same`: whether two paths have the same components.
* `components_join`: the components of a path inside another.
* `lastComponent?_eq`, `components_parent?`: the last component, and those before it.
-/

namespace GoStencil.Path

/-! ## 1. Pieces -/

section Pieces

variable {cs ds piece : List Char}

theorem splitSlash_slash (cs : List Char) : splitSlash ('/' :: cs) = [] :: splitSlash cs := by
  cases h : splitSlash cs with
  | nil => exact absurd h (splitSlash_ne_nil cs)
  | cons piece pieces => rw [splitSlash, h]; rfl

theorem splitSlash_cons {c : Char} {pieces : List (List Char)} (hc : c ≠ '/')
    (h : splitSlash cs = piece :: pieces) : splitSlash (c :: cs) = (c :: piece) :: pieces := by
  rw [splitSlash, h]
  exact if_neg hc

theorem splitSlash_of_not_mem (h : '/' ∉ cs) : splitSlash cs = [cs] := by
  induction cs with
  | nil => rfl
  | cons c cs ih =>
    rw [List.mem_cons, not_or] at h
    exact splitSlash_cons (Ne.symm h.1) (ih h.2)

theorem splitSlash_append_slash (cs ds : List Char) :
    splitSlash (cs ++ '/' :: ds) = splitSlash cs ++ splitSlash ds := by
  induction cs with
  | nil => exact splitSlash_slash ds
  | cons c cs ih =>
    by_cases hc : c = '/'
    · subst hc
      rw [List.cons_append, splitSlash_slash, ih, splitSlash_slash, List.cons_append]
    · cases h : splitSlash cs with
      | nil => exact absurd h (splitSlash_ne_nil cs)
      | cons piece pieces =>
        rw [h, List.cons_append] at ih
        rw [List.cons_append, splitSlash_cons hc ih, splitSlash_cons hc h, List.cons_append]

/-- What holds no slash goes into the last piece. -/
theorem exists_splitSlash_append (cs : List Char) (h : '/' ∉ ds) :
    ∃ before last, splitSlash (cs ++ ds) = before ++ [last ++ ds] := by
  induction cs with
  | nil => exact ⟨[], [], splitSlash_of_not_mem h⟩
  | cons c cs ih =>
    obtain ⟨before, last, ih⟩ := ih
    by_cases hc : c = '/'
    · subst hc
      exact ⟨[] :: before, last, by rw [List.cons_append, splitSlash_slash, ih]; rfl⟩
    · cases before with
      | nil => exact ⟨[], c :: last, splitSlash_cons hc ih⟩
      | cons piece before => exact ⟨(c :: piece) :: before, last, splitSlash_cons hc ih⟩

theorem not_mem_of_mem_splitSlash (h : piece ∈ splitSlash cs) : '/' ∉ piece := by
  induction cs generalizing piece with
  | nil =>
    cases List.mem_singleton.mp h
    exact List.not_mem_nil
  | cons c cs ih =>
    by_cases hc : c = '/'
    · subst hc
      rw [splitSlash_slash] at h
      rcases List.mem_cons.mp h with rfl | h
      · exact List.not_mem_nil
      · exact ih h
    · cases hsplit : splitSlash cs with
      | nil => exact absurd hsplit (splitSlash_ne_nil cs)
      | cons first pieces =>
        rw [splitSlash_cons hc hsplit] at h
        rw [hsplit] at ih
        rcases List.mem_cons.mp h with rfl | h
        · rw [List.mem_cons, not_or]
          exact ⟨Ne.symm hc, ih List.mem_cons_self⟩
        · exact ih (List.mem_cons_of_mem _ h)

theorem joinSlash_isPrefixOf (before after : List (List Char)) :
    joinSlash before <+: joinSlash (before ++ after) := by
  induction before with
  | nil => exact List.nil_prefix
  | cons piece rest ih =>
    cases rest with
    | nil =>
      cases after with
      | nil => exact List.prefix_refl _
      | cons => exact List.prefix_append ..
    | cons next rest =>
      exact (List.prefix_append_right_inj piece).mpr (List.cons_prefix_cons.mpr ⟨rfl, ih⟩)

theorem splitSlash_joinSlash {pieces : List (List Char)} (hne : pieces ≠ [])
    (h : ∀ piece ∈ pieces, '/' ∉ piece) : splitSlash (joinSlash pieces) = pieces := by
  induction pieces with
  | nil => exact absurd rfl hne
  | cons piece pieces ih =>
    obtain ⟨hpiece, hpieces⟩ := List.forall_mem_cons.mp h
    cases pieces with
    | nil => exact splitSlash_of_not_mem hpiece
    | cons next rest =>
      rw [joinSlash, splitSlash_append_slash, splitSlash_of_not_mem hpiece,
        ih (List.cons_ne_nil _ _) hpieces, List.singleton_append]
      exact List.cons_ne_nil _ _

end Pieces

/-! ## 2. Components -/

/-- The pieces of a path that count, in order. -/
def componentsOf (cs : List Char) : List (List Char) :=
  (splitSlash cs).filter isComponent

/-- The components of a path, in order. -/
def components (path : String) : List (List Char) :=
  componentsOf path.toList

/-- Whether a path begins at the root. -/
def IsAbsolute (path : String) : Prop :=
  path.toList.head? = some '/'

instance (path : String) : Decidable (IsAbsolute path) :=
  inferInstanceAs (Decidable (_ = _))

/-- Whether two paths lead to one place, whatever their components lead to. -/
structure Same (path other : String) : Prop where
  absolute : IsAbsolute path ↔ IsAbsolute other
  components : components path = components other

section Components

variable {cs ds : List Char}

theorem componentsOf_append_slash (cs ds : List Char) :
    componentsOf (cs ++ '/' :: ds) = componentsOf cs ++ componentsOf ds := by
  rw [componentsOf, splitSlash_append_slash, List.filter_append]
  rfl

theorem componentsOf_slash (cs : List Char) : componentsOf ('/' :: cs) = componentsOf cs :=
  componentsOf_append_slash [] cs

theorem componentsOf_of_not_mem (h : '/' ∉ cs) (hcomponent : isComponent cs = true) :
    componentsOf cs = [cs] := by
  rw [componentsOf, splitSlash_of_not_mem h]
  exact List.filter_cons_of_pos hcomponent

theorem isComponent_of_length (h : 1 < cs.length) : isComponent cs = true := by
  rw [isComponent, Bool.and_eq_true, bne_iff_ne]
  constructor
  · rw [Bool.not_eq_true', List.isEmpty_eq_false_iff]
    rintro rfl
    exact absurd h (by decide)
  · rintro rfl
    exact absurd h (by decide)

/-- What holds no slash and is more than a dot is the end of the last component. -/
theorem exists_getLast?_componentsOf_append (cs : List Char) (h : '/' ∉ ds)
    (hlength : 1 < ds.length) :
    ∃ front, (componentsOf (cs ++ ds)).getLast? = some (front ++ ds) := by
  obtain ⟨before, last, hsplit⟩ := exists_splitSlash_append cs h
  have hcomponent : isComponent (last ++ ds) = true := isComponent_of_length (by
    rw [List.length_append]
    omega)
  refine ⟨last, ?_⟩
  rw [componentsOf, hsplit, List.filter_append, List.filter_cons_of_pos hcomponent,
    List.filter_nil, List.getLast?_concat]

theorem splitHead_append (cs : List Char) : (splitHead cs).1 ++ (splitHead cs).2 = cs := by
  fun_cases splitHead cs <;> rfl

/-- What begins a path is no component, and decides whether the path begins at the root. -/
theorem splitHead_isPrefixOf (cs ds : List Char) : ds <+: (splitHead cs).2 →
    componentsOf ((splitHead cs).1 ++ ds) = componentsOf ds ∧
      (((splitHead cs).1 ++ ds).head? = some '/' ↔ cs.head? = some '/') := by
  fun_cases splitHead cs with
  | case1 rest => exact fun _ => ⟨componentsOf_slash ds, Iff.rfl⟩
  | case2 =>
    intro h
    cases List.prefix_nil.mp h
    exact ⟨rfl, Iff.rfl⟩
  | case3 rest =>
    refine fun h => ⟨?_, Iff.rfl⟩
    cases ds with
    | nil => rfl
    | cons d ds =>
      obtain ⟨rfl, -⟩ := List.cons_prefix_cons.mp h
      exact (componentsOf_append_slash ['.'] ds).trans (componentsOf_append_slash [] ds).symm
  | case4 _ hroot =>
    rintro ⟨after, rfl⟩
    have hhead : (ds ++ after).head? ≠ some '/' := by
      intro hhead
      obtain ⟨rest, hcs⟩ := List.head?_eq_some_iff.mp hhead
      exact hroot rest hcs
    refine ⟨rfl, iff_of_false (fun hds => hhead ?_) hhead⟩
    rw [List.head?_append, show ds.head? = some '/' from hds]
    rfl

theorem componentsOf_splitHead (cs : List Char) :
    componentsOf (splitHead cs).2 = componentsOf cs := by
  rw [← (splitHead_isPrefixOf cs _ (List.prefix_refl _)).1, splitHead_append]

/-! ## 3. Parts of a path -/

/-- The pieces up to the last that counts, when one counts. -/
theorem trimmed_cases (pieces : List (List Char)) :
    trimmed pieces = [] ∧ pieces.filter isComponent = [] ∨
      ∃ before last after, pieces = before ++ last :: after ∧ isComponent last = true ∧
        after.filter isComponent = [] ∧ trimmed pieces = last :: before.reverse := by
  induction pieces using List.reverseRecOn with
  | nil => exact .inl ⟨rfl, rfl⟩
  | append_singleton pieces piece ih =>
    cases hpiece : isComponent piece with
    | true =>
      refine .inr ⟨pieces, piece, [], rfl, hpiece, rfl, ?_⟩
      rw [trimmed, List.reverse_concat, List.dropWhile_cons_of_neg (by simp [hpiece])]
    | false =>
      have htrimmed : trimmed (pieces ++ [piece]) = trimmed pieces := by
        rw [trimmed, List.reverse_concat, List.dropWhile_cons_of_pos (by simp [hpiece]), trimmed]
      rw [htrimmed, List.filter_append, List.filter_cons_of_neg (by simp [hpiece]),
        List.filter_nil, List.append_nil]
      rcases ih with ih | ⟨before, last, after, rfl, hlast, hafter, ih⟩
      · exact .inl ih
      · refine .inr ⟨before, last, after ++ [piece], ?_, hlast, ?_, ih⟩
        · rw [List.append_assoc, List.cons_append]
        · rw [List.filter_append, hafter, List.filter_cons_of_neg (by simp [hpiece])]
          rfl

theorem lastComponent?_eq (path : String) :
    lastComponent? path = (components path).getLast? := by
  rw [lastComponent?, components, ← componentsOf_splitHead, componentsOf]
  rcases trimmed_cases (splitSlash (splitHead path.toList).2) with
    ⟨htrimmed, hfilter⟩ | ⟨before, last, after, hpieces, hlast, hafter, htrimmed⟩
  · rw [htrimmed, hfilter]
    rfl
  · rw [htrimmed, hpieces, List.filter_append, List.filter_cons_of_pos hlast, hafter,
      List.getLast?_concat]
    rfl

theorem exists_append_trimmed (pieces : List (List Char)) :
    ∃ rest, pieces = (trimmed pieces).reverse ++ rest ∧ rest.filter isComponent = [] := by
  rcases trimmed_cases pieces with ⟨h, hfilter⟩ | ⟨before, last, after, rfl, -, hafter, h⟩
  · exact ⟨pieces, by rw [h]; rfl, hfilter⟩
  · refine ⟨after, ?_, hafter⟩
    rw [h, List.reverse_cons, List.reverse_reverse, List.append_assoc, List.singleton_append]

theorem componentsOf_joinSlash {pieces : List (List Char)} (h : ∀ piece ∈ pieces, '/' ∉ piece) :
    componentsOf (joinSlash pieces) = pieces.filter isComponent := by
  by_cases hne : pieces = []
  · rw [hne]
    rfl
  · rw [componentsOf, splitSlash_joinSlash hne h]

/-- **The parent of a path has all its components but the last.** -/
theorem components_parent? {path parent : String} (h : parent? path = some parent) :
    components parent = (components path).dropLast ∧
      (components path ≠ [] → (IsAbsolute parent ↔ IsAbsolute path)) := by
  have hcomponents : components path =
      (splitSlash (splitHead path.toList).2).filter isComponent :=
    (componentsOf_splitHead path.toList).symm
  unfold parent? at h
  rcases trimmed_cases (splitSlash (splitHead path.toList).2) with
    ⟨htrimmed, hfilter⟩ | ⟨before, last, after, hpieces, hlast, hafter, htrimmed⟩
  · rw [hfilter] at hcomponents
    simp only [htrimmed, ite_eq_iff, reduceCtorEq, and_false, or_false, Option.some.injEq] at h
    obtain ⟨-, rfl⟩ := h
    rw [hcomponents]
    exact ⟨rfl, fun hne => absurd rfl hne⟩
  · obtain ⟨rest, hbefore, hrest⟩ := exists_append_trimmed before
    simp only [htrimmed, Option.some.injEq] at h
    subst h
    let kept := (trimmed before).reverse
    have hkept : splitSlash (splitHead path.toList).2 = kept ++ (rest ++ last :: after) := by
      rw [hpieces, ← List.append_assoc, ← hbefore]
    have hbegins : joinSlash kept <+: (splitHead path.toList).2 := by
      rw [← joinSlash_splitSlash (splitHead path.toList).2, hkept]
      exact joinSlash_isPrefixOf _ _
    have hslash : ∀ piece ∈ kept, '/' ∉ piece := fun piece hmem =>
      not_mem_of_mem_splitSlash (hkept ▸ List.mem_append_left _ hmem)
    obtain ⟨hhead, habsolute⟩ := splitHead_isPrefixOf path.toList _ hbegins
    constructor
    · rw [components, String.toList_ofList]
      rw [hcomponents, hkept, List.filter_append, List.filter_append, hrest,
        List.filter_cons_of_pos hlast, hafter, List.nil_append, List.dropLast_concat]
      exact hhead.trans (componentsOf_joinSlash hslash)
    · intro
      rw [IsAbsolute, String.toList_ofList]
      exact habsolute

theorem components_eq_nil_of_parent? {path : String} (h : parent? path = none) :
    components path = [] := by
  rw [components, ← componentsOf_splitHead, componentsOf]
  unfold parent? at h
  rcases trimmed_cases (splitSlash (splitHead path.toList).2) with
    ⟨-, hfilter⟩ | ⟨before, last, after, -, -, -, htrimmed⟩
  · exact hfilter
  · simp only [htrimmed, reduceCtorEq] at h

/-- A path inside another ends as the path does. -/
theorem exists_join (directory name : String) :
    ∃ before, (join directory name).toList = before ++ name.toList := by
  unfold join
  split
  · exact ⟨[], rfl⟩
  · split
    · exact ⟨_, String.toList_append⟩
    · exact ⟨_, String.toList_append⟩

/-- **A path inside another** has the components of both, in order. -/
theorem components_join (directory : String) {name : String} (h : ¬ IsAbsolute name) :
    components (join directory name) = components directory ++ components name ∧
      (IsAbsolute (join directory name) ↔ IsAbsolute directory) := by
  have hjoin : join directory name = if directory.isEmpty || directory.toList.getLast? = some '/'
      then directory ++ name else directory ++ "/" ++ name := if_neg h
  rw [hjoin]
  by_cases hempty : directory = ""
  · subst hempty
    exact ⟨rfl, iff_of_false h (by decide)⟩
  · obtain ⟨c, cs, hchars⟩ := List.exists_cons_of_ne_nil fun hnil =>
      hempty (String.toList_eq_nil_iff.mp hnil)
    split
    · rename_i hend
      have hlast : (c :: cs).getLast? = some '/' := by
        simpa [hempty, hchars] using hend
      obtain ⟨front, hfront⟩ := List.getLast?_eq_some_iff.mp hlast
      simp only [components, IsAbsolute, String.toList_append, hchars]
      refine ⟨?_, Iff.rfl⟩
      rw [hfront, List.append_assoc, List.singleton_append, componentsOf_append_slash,
        componentsOf_append_slash, List.append_assoc]
      rfl
    · simp only [components, IsAbsolute, String.toList_append, hchars, List.append_assoc]
      exact ⟨componentsOf_append_slash (c :: cs) name.toList, Iff.rfl⟩

/-- A name in a directory is its last component. -/
theorem components_join_name (directory : String) {name : String} (hslash : '/' ∉ name.toList)
    (hlength : 1 < name.toList.length) :
    components (join directory name) = components directory ++ [name.toList] ∧
      (IsAbsolute (join directory name) ↔ IsAbsolute directory) := by
  have hname : components name = [name.toList] :=
    componentsOf_of_not_mem hslash (isComponent_of_length hlength)
  have hrelative : ¬ IsAbsolute name := fun hhead => hslash (List.mem_of_head? hhead)
  have hjoin := components_join directory hrelative
  rwa [hname] at hjoin

/-- **Two names in one directory** lead to one place only when they are the same. -/
theorem same_join_iff {directory name other : String} (hname : '/' ∉ name.toList)
    (hlength : 1 < name.toList.length) (hother : '/' ∉ other.toList)
    (hlength' : 1 < other.toList.length) :
    Same (join directory name) (join directory other) ↔ name = other := by
  constructor
  · intro hsame
    have hcomponents := hsame.components
    rw [(components_join_name directory hname hlength).1,
      (components_join_name directory hother hlength').1] at hcomponents
    have hlast := congrArg List.getLast? hcomponents
    rw [List.getLast?_concat, List.getLast?_concat, Option.some.injEq] at hlast
    exact String.toList_inj.mp hlast
  · rintro rfl
    exact ⟨Iff.rfl, rfl⟩

/-! ## 4. Names of files -/

theorem not_mem_of_mem_components {path : String} {piece : List Char}
    (h : piece ∈ components path) : '/' ∉ piece :=
  not_mem_of_mem_splitSlash (List.mem_filter.mp h).1

/-- What is more than two dots is the name of a file exactly when it is the last component. -/
theorem fileName?_eq_some {path name : String} (hlength : 2 < name.toList.length) :
    fileName? path = some name ↔ (components path).getLast? = some name.toList := by
  rw [fileName?, lastComponent?_eq]
  cases (components path).getLast? with
  | none => simp
  | some last =>
    dsimp only
    rw [Option.some.injEq]
    constructor
    · intro h
      split at h
      · cases h
      · cases h
        exact String.toList_ofList.symm
    · rintro rfl
      rw [if_neg, String.ofList_toList]
      intro hdots
      rw [hdots] at hlength
      exact absurd hlength (by decide)

theorem not_mem_of_fileName? {path name : String} (h : fileName? path = some name) :
    '/' ∉ name.toList := by
  rw [fileName?, lastComponent?_eq] at h
  cases hlast : (components path).getLast? with
  | none =>
    rw [hlast] at h
    cases h
  | some last =>
    simp only [hlast] at h
    split at h
    · cases h
    · cases h
      rw [String.toList_ofList]
      exact not_mem_of_mem_components (List.mem_of_getLast? hlast)

theorem stemOf_isPrefixOf (name : List Char) : stemOf name <+: name := by
  unfold stemOf
  split
  · rename_i dot before hbefore
    split
    · exact List.prefix_refl _
    · obtain ⟨extension, hname⟩ := List.dropWhile_suffix (l := name.reverse) (· != '.')
      rw [hbefore] at hname
      refine ⟨dot :: extension.reverse, List.reverse_inj.mp ?_⟩
      rw [← hname]
      simp
  · exact List.prefix_refl _

/-- The stem of a name is what stands before its extension. -/
theorem stemOf_append {stem extension : List Char} (hne : stem ≠ []) (hdot : '.' ∉ extension) :
    stemOf (stem ++ '.' :: extension) = stem := by
  have hskip : ∀ c ∈ extension.reverse, (c != '.') = true := by
    intro c hmem
    rw [bne_iff_ne]
    rintro rfl
    exact hdot (List.mem_reverse.mp hmem)
  have hdrop : (stem ++ '.' :: extension).reverse.dropWhile (· != '.') = '.' :: stem.reverse := by
    rw [List.reverse_append, List.reverse_cons, List.append_assoc,
      List.dropWhile_append_of_pos hskip]
    rfl
  rw [stemOf, hdrop]
  dsimp only
  rw [if_neg (by simpa using hne), List.reverse_reverse]

theorem fileStem?_eq_some {path : String} {stem extension : List Char} (hne : stem ≠ [])
    (hextension : extension ≠ []) (hdot : '.' ∉ extension)
    (h : (components path).getLast? = some (stem ++ '.' :: extension)) :
    fileStem? path = some (String.ofList stem) := by
  have hlength : 2 < (stem ++ '.' :: extension).length := by
    have := List.length_pos_iff.mpr hne
    have := List.length_pos_iff.mpr hextension
    rw [List.length_append, List.length_cons]
    omega
  have hname : fileName? path = some (String.ofList (stem ++ '.' :: extension)) :=
    (fileName?_eq_some (by rwa [String.toList_ofList])).mpr (by rw [h, String.toList_ofList])
  rw [fileStem?, hname, Option.map_some, String.toList_ofList, stemOf_append hne hdot]

theorem not_mem_fileStem? (path : String) : '/' ∉ ((fileStem? path).getD "").toList := by
  rw [fileStem?]
  cases h : fileName? path with
  | none => exact List.not_mem_nil
  | some name =>
    rw [Option.map_some, Option.getD_some, String.toList_ofList]
    exact fun hmem => not_mem_of_fileName? h ((stemOf_isPrefixOf _).subset hmem)

end Components

end GoStencil.Path
