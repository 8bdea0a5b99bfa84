import GoStencil.OutputPlan
import GoStencil.Proofs.Lowercase
import GoStencil.Proofs.Path
import Mathlib

/-!
# No two files of a run share a name

A name that is taken gets a number. The numbered names of a base name are all different, so among
more numbers than there are names taken one is free, and the search for it ends there.

* `exists_free`: a free number comes soon.
* `isLeast_freeIndex`: the search finds the least one.
* `isPlan_planNames`: what the plan of the names gives to each file.
* `planOutputs_isPlan`: the files of a run.
-/

namespace GoStencil

/-! ## 1. Base names -/

/-- A base name, part by part in lower case. -/
theorem exists_outputFileName (namePrefix candidate template nameSuffix : String) :
    ∃ front back : String, Text.IsLowered (namePrefix ++ candidate).toList front.toList ∧
      Text.IsLowered ("_" ++ template ++ nameSuffix).toList back.toList ∧
      outputFileName namePrefix candidate template nameSuffix = front ++ back ++ ".go" := by
  have h := Text.exists_lowercase_append_go (namePrefix ++ candidate)
    ("_" ++ template ++ nameSuffix)
  rwa [show namePrefix ++ candidate ++ ("_" ++ template ++ nameSuffix) ++ ".go" =
    namePrefix ++ candidate ++ "_" ++ template ++ nameSuffix ++ ".go" by
      simp only [String.append_assoc]] at h

/-! ## 2. Numbered names -/

theorem indexedName_go (stem : String) (index : Nat) :
    indexedName (stem ++ ".go") index = stem ++ "_" ++ toString index ++ ".go" := by
  have hends : Text.endsWith (stem ++ ".go") ".go" = true := by
    rw [Text.endsWith, String.toList_append]
    exact List.isSuffixOf_iff_suffix.mpr (List.suffix_append ..)
  have hlength : (stem ++ ".go").toList.length - 3 = stem.toList.length := by
    rw [String.toList_append, List.length_append]
    exact Nat.add_sub_cancel _ 3
  rw [indexedName, if_pos hends, hlength, String.toList_append, List.take_left,
    String.ofList_toList]

theorem indexedName_inj {name : String} {i j : Nat} :
    indexedName name i = indexedName name j ↔ i = j := by
  refine ⟨fun h => Nat.repr_injective ?_, congrArg _⟩
  unfold indexedName at h
  split at h
  · exact (String.append_right_inj _).mp ((String.append_left_inj _).mp h)
  · exact (String.append_right_inj _).mp h

/-- **A free number comes soon**: not all of more numbers than there are names taken give names
    that are. -/
theorem exists_free (name : String) (taken : List String) (index : Nat) :
    ∃ k, index ≤ k ∧ k ≤ index + taken.length ∧ indexedName name k ∉ taken := by
  by_contra hnone
  have htaken : ∀ k, index ≤ k → k ≤ index + taken.length → indexedName name k ∈ taken := by
    intro k hle hge
    by_contra hfree
    exact hnone ⟨k, hle, hge, hfree⟩
  let tried := (List.range (taken.length + 1)).map fun j => indexedName name (index + j)
  have hnodup : tried.Nodup := List.nodup_range.map fun i j h => by
    have := indexedName_inj.mp h
    omega
  have hsub : tried ⊆ taken := by
    intro other hmem
    obtain ⟨j, hj, rfl⟩ := List.mem_map.mp hmem
    have := List.mem_range.mp hj
    exact htaken _ (by omega) (by omega)
  have hlength : tried.length = taken.length + 1 := by simp [tried]
  have := (hnodup.subperm hsub).length_le
  omega

/-- **The search finds the least number that gives a free name**, if it may try enough of them. -/
theorem isLeast_freeIndex {name : String} {taken : List String} {tries index : Nat}
    (h : ∃ k, index ≤ k ∧ k ≤ index + tries ∧ indexedName name k ∉ taken) :
    IsLeast {k | index ≤ k ∧ indexedName name k ∉ taken} (freeIndex name taken tries index) := by
  induction tries generalizing index with
  | zero =>
    obtain ⟨k, hle, hge, hfree⟩ := h
    obtain rfl : k = index := by omega
    exact ⟨⟨hle, hfree⟩, fun _ hother => hother.1⟩
  | succ tries ih =>
    obtain ⟨k, hle, hge, hfree⟩ := h
    rw [freeIndex]
    by_cases hindex : indexedName name index ∈ taken
    · rw [if_pos (List.contains_iff_mem.mpr hindex)]
      have hne : k ≠ index := by
        rintro rfl
        exact hfree hindex
      obtain ⟨⟨hfrom, hfound⟩, hleast⟩ := @ih (index + 1) ⟨k, by omega, by omega, hfree⟩
      refine ⟨⟨by omega, hfound⟩, fun other hother => hleast ⟨?_, hother.2⟩⟩
      have hother' : other ≠ index := by
        rintro rfl
        exact hother.2 hindex
      have := hother.1
      omega
    · rw [if_neg (by simpa using hindex)]
      exact ⟨⟨Nat.le_refl _, hindex⟩, fun _ hother => hother.1⟩

/-! ## 3. Plans -/

section Names

variable {name : String} {taken : List String} {index : Nat}

theorem freeName_of_not_mem (h : name ∉ taken) : freeName name taken index = name := by
  rw [freeName, if_neg (by simpa using h)]

theorem exists_freeName_of_mem (index : Nat) (h : name ∈ taken) :
    ∃ k, IsLeast {k | index ≤ k ∧ indexedName name k ∉ taken} k ∧
      freeName name taken index = indexedName name k := by
  rw [freeName, if_pos (List.contains_iff_mem.mpr h)]
  exact ⟨_, isLeast_freeIndex (exists_free name taken index), rfl⟩

theorem freeName_not_mem : freeName name taken index ∉ taken := by
  by_cases h : name ∈ taken
  · obtain ⟨k, hleast, heq⟩ := exists_freeName_of_mem index h
    rw [heq]
    exact hleast.1.2
  · rwa [freeName_of_not_mem h]

end Names

/-- **No name is given twice**, nor is one that was taken before. -/
theorem nodup_planNames (taken : List String) (index : Nat) (bases : List String) :
    (planNames taken index bases).Nodup ∧ (planNames taken index bases).Disjoint taken := by
  induction bases generalizing taken index with
  | nil => exact ⟨List.nodup_nil, List.disjoint_nil_left _⟩
  | cons base bases ih =>
    obtain ⟨hnodup, hdisjoint⟩ := ih (freeName base taken index :: taken) (index + 1)
    obtain ⟨hfree, hdisjoint⟩ := List.disjoint_cons_right.mp hdisjoint
    exact ⟨List.nodup_cons.mpr ⟨hfree, hnodup⟩,
      List.disjoint_cons_left.mpr ⟨freeName_not_mem, hdisjoint⟩⟩

/-- The name at a position is the free one when the names before it are taken. -/
theorem getElem?_planNames {taken : List String} {index : Nat} {bases : List String} {i : Nat}
    {base : String} (h : bases[i]? = some base) :
    (planNames taken index bases)[i]? = some
      (freeName base (((planNames taken index bases).take i).reverse ++ taken) (index + i)) := by
  induction bases generalizing taken index i with
  | nil => cases h
  | cons first bases ih =>
    cases i with
    | zero =>
      cases h
      rfl
    | succ i =>
      rw [planNames, List.getElem?_cons_succ, List.take_succ_cons, List.reverse_cons,
        List.append_assoc, List.singleton_append, ih h, Nat.add_right_comm, Nat.add_assoc]

/-- What a plan gives to files that would have some base names: no name twice; the base name where
    no earlier file has it; and elsewhere the base name with a number before its extension, the
    least from the position of the file on for which no earlier file has that name. -/
structure IsPlan (bases names : List String) : Prop where
  length : names.length = bases.length
  nodup : names.Nodup
  kept : ∀ (i : Nat) (base : String), bases[i]? = some base → base ∉ names.take i →
    names[i]? = some base
  numbered : ∀ (i : Nat) (base : String), bases[i]? = some base → base ∈ names.take i →
    ∃ stem k, base = stem ++ ".go" ∧
      IsLeast {k | i ≤ k ∧ stem ++ "_" ++ toString k ++ ".go" ∉ names.take i} k ∧
      names[i]? = some (stem ++ "_" ++ toString k ++ ".go")

theorem isPlan_planNames {bases : List String}
    (h : ∀ base ∈ bases, ∃ stem, base = stem ++ ".go") : IsPlan bases (planNames [] 0 bases) where
  length := length_planNames ..
  nodup := (nodup_planNames ..).1
  kept i base hbase hfree := by
    rw [getElem?_planNames hbase, List.append_nil]
    exact congrArg some (freeName_of_not_mem (by simpa using hfree))
  numbered i base hbase htaken := by
    obtain ⟨stem, rfl⟩ := h base (List.mem_of_getElem? hbase)
    obtain ⟨k, hleast, heq⟩ := exists_freeName_of_mem i (List.mem_reverse.mpr htaken)
    refine ⟨stem, k, rfl, ?_, ?_⟩
    · simpa only [indexedName_go, List.mem_reverse] using hleast
    · rw [getElem?_planNames hbase, List.append_nil, Nat.zero_add, heq, indexedName_go]

/-- A number is skipped when an earlier file has the name with it. -/
example :
    planNames [] 0 ["ints_2_2.go", "ints_2.go", "ints_2.go"] =
      ["ints_2_2.go", "ints_2.go", "ints_2_3.go"] := by
  decide +kernel

namespace IsPlan

variable {bases names : List String} {name : String}

/-- A planned name is a base name, or one with a number before its extension. -/
theorem exists_of_mem (h : IsPlan bases names) (hmem : name ∈ names) :
    ∃ base ∈ bases, name = base ∨
      ∃ stem k, base = stem ++ ".go" ∧ name = stem ++ "_" ++ toString (k : Nat) ++ ".go" := by
  obtain ⟨i, hi, rfl⟩ := List.mem_iff_getElem.mp hmem
  have hbound : i < bases.length := h.length ▸ hi
  have hbase := List.getElem?_eq_getElem hbound
  refine ⟨bases[i], List.getElem_mem hbound, ?_⟩
  by_cases htaken : bases[i] ∈ names.take i
  · obtain ⟨stem, k, hstem, -, hname⟩ := h.numbered i _ hbase htaken
    exact .inr ⟨stem, k, hstem, (List.getElem?_eq_some_iff.mp hname).2⟩
  · exact .inl (List.getElem?_eq_some_iff.mp (h.kept i _ hbase htaken)).2

theorem exists_append_go (h : IsPlan bases names)
    (hbases : ∀ base ∈ bases, ∃ stem, base = stem ++ ".go") (hmem : name ∈ names) :
    ∃ stem, name = stem ++ ".go" := by
  obtain ⟨base, hbase, rfl | ⟨stem, k, -, rfl⟩⟩ := h.exists_of_mem hmem
  · exact hbases _ hbase
  · exact ⟨_, rfl⟩

/-- Names without slashes lead to places of their own. -/
theorem pairwise_not_same (h : IsPlan bases names)
    (hbases : ∀ base ∈ bases, ∃ stem, base = stem ++ ".go")
    (hslash : ∀ name ∈ names, '/' ∉ name.toList) (directory : String) :
    (names.map (Path.join directory)).Pairwise fun path other => ¬ Path.Same path other := by
  have hlength : ∀ name ∈ names, 1 < name.toList.length := by
    intro name hmem
    obtain ⟨stem, rfl⟩ := h.exists_append_go hbases hmem
    rw [String.toList_append, List.length_append]
    exact Nat.lt_add_left _ (by decide)
  refine List.pairwise_map.mpr (h.nodup.imp_of_mem fun hname hother hne hsame => hne ?_)
  exact (Path.same_join_iff (hslash _ hname) (hlength _ hname) (hslash _ hother)
    (hlength _ hother)).mp hsame

end IsPlan

/-! ## 4. Files -/

/-- The names that the files of some outputs would have. -/
def Settings.baseNames (settings : Settings) (templatePath : String)
    (outputs : List Specialization) : List String :=
  outputs.map fun output => outputFileName settings.namePrefix output.name
    ((Path.fileStem? templatePath).getD "") settings.nameSuffix

section Outputs

variable (outputs : List Specialization) (templatePath directory : String) (settings : Settings)

theorem exists_append_go_of_mem_baseNames :
    ∀ base ∈ settings.baseNames templatePath outputs, ∃ stem, base = stem ++ ".go" := by
  intro base hmem
  obtain ⟨output, -, rfl⟩ := List.mem_map.mp hmem
  obtain ⟨front, back, -, -, h⟩ := exists_outputFileName settings.namePrefix output.name
    ((Path.fileStem? templatePath).getD "") settings.nameSuffix
  exact ⟨front ++ back, h⟩

theorem isPlan_baseNames :
    IsPlan (settings.baseNames templatePath outputs)
      (planNames [] 0 (settings.baseNames templatePath outputs)) :=
  isPlan_planNames (exists_append_go_of_mem_baseNames outputs templatePath settings)

theorem planOutputs_eq_map_zip :
    planOutputs outputs templatePath directory settings =
      ((planNames [] 0 (settings.baseNames templatePath outputs)).zip outputs).map
        fun named => ⟨Path.join directory named.1, named.2.file.render⟩ :=
  List.map_uncurry_zip_eq_zipWith.symm

theorem length_planNames_baseNames :
    (planNames [] 0 (settings.baseNames templatePath outputs)).length = outputs.length := by
  rw [length_planNames, Settings.baseNames, List.length_map]

theorem map_path_planOutputs :
    (planOutputs outputs templatePath directory settings).map (·.path) =
      (planNames [] 0 (settings.baseNames templatePath outputs)).map (Path.join directory) := by
  have hlength := length_planNames_baseNames outputs templatePath settings
  calc (planOutputs outputs templatePath directory settings).map (·.path)
    _ = ((planNames [] 0 (settings.baseNames templatePath outputs)).zip outputs).map
          (Path.join directory ∘ Prod.fst) := by
        rw [planOutputs_eq_map_zip, List.map_map]
        rfl
    _ = _ := by rw [← List.map_map, List.map_fst_zip hlength.le]

theorem map_contents_planOutputs :
    (planOutputs outputs templatePath directory settings).map (·.contents) =
      outputs.map (·.file.render) := by
  have hlength := length_planNames_baseNames outputs templatePath settings
  calc (planOutputs outputs templatePath directory settings).map (·.contents)
    _ = ((planNames [] 0 (settings.baseNames templatePath outputs)).zip outputs).map
          ((·.file.render) ∘ Prod.snd) := by
        rw [planOutputs_eq_map_zip, List.map_map]
        rfl
    _ = _ := by rw [← List.map_map, List.map_snd_zip hlength.ge]

/-- **No two files of a run share a name.** There is one file for each output, in their order, with
    the text of its module. The names are planned from the base names of the outputs, and unless one
    of them makes directories, no two files are written to one place. -/
theorem planOutputs_isPlan :
    ∃ names, IsPlan (settings.baseNames templatePath outputs) names ∧
      (planOutputs outputs templatePath directory settings).map (·.path) =
        names.map (Path.join directory) ∧
      (planOutputs outputs templatePath directory settings).map (·.contents) =
        outputs.map (·.file.render) ∧
      ((∀ name ∈ names, '/' ∉ name.toList) →
        (planOutputs outputs templatePath directory settings).Pairwise
          fun file other => ¬ Path.Same file.path other.path) := by
  have hplan := isPlan_baseNames outputs templatePath settings
  have hpaths := map_path_planOutputs outputs templatePath directory settings
  refine ⟨_, hplan, hpaths, map_contents_planOutputs outputs templatePath directory settings,
    fun hslash => ?_⟩
  have hplaces := hplan.pairwise_not_same
    (exists_append_go_of_mem_baseNames outputs templatePath settings) hslash directory
  rw [← hpaths] at hplaces
  exact List.pairwise_map.mp hplaces

end Outputs

end GoStencil
