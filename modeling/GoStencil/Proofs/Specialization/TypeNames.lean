import GoStencil.Proofs.Markers
import GoStencil.Proofs.Specialization.Leaks
import Mathlib.Data.List.Nodup
import Mathlib.Data.List.Pairwise

/-!
# Names of the types that are written

An output declares the related types of the template under new names.

* `Trial.filling`: what a trial puts between the head and the tail of the name of a related type.
* `Trial.declNameUnder_of_run`: every related type is written under such a name.
* `specialize_typeNames`: no two types are written under one name, and none under the name of a
  provider type, if the names of the related types differ enough; but two trials may use the same
  name.
* `specialize_typeNames_clash`: each of the conditions is needed.
-/

namespace GoStencil

/-! ## 1. Declarations with distinct names -/

/-- A list up to the declaration of a name, and from there on. -/
theorem exists_takeWhile_append {decl : TypeDecl} : ∀ {decls : List TypeDecl}, decl ∈ decls →
    (∀ other ∈ decls, other.name = decl.name → other = decl) →
      ∃ after, decls = decls.takeWhile (fun other => other.name ≠ decl.name) ++ decl :: after
  | first :: rest, hmem, hnames => by
    by_cases e : first.name = decl.name
    · cases hnames first List.mem_cons_self e
      exact ⟨rest, by rw [List.takeWhile_cons_of_neg (by simp), List.nil_append]⟩
    · rcases List.mem_cons.mp hmem with rfl | hmem
      · exact absurd rfl e
      · obtain ⟨after, h⟩ := exists_takeWhile_append hmem
          fun other hother => hnames other (List.mem_cons_of_mem _ hother)
        refine ⟨after, ?_⟩
        rw [List.takeWhile_cons_of_pos (by simpa using e), List.cons_append, ← h]

/-! ## 2. The names that a trial gives -/

namespace Trial

variable {trial : Trial} {candidate : TypeDecl} {subst grown last : Substitution}

/-- What stands between the head and the tail of a related type's name when it is named from a
    substitution: the names of the types that it refers to, or its own markers if it is bound to its
    name in parentheses. -/
def fillingFrom (trial : Trial) (candidate related : TypeDecl) (subst : Substitution) : String :=
  let filling := nameFilling trial.options.marker related.name
  match subst.getName? related.name with
  | none | some (.name _) =>
    filling (Text.capitalize candidate.name)
      ((related.type.references subst).map trial.options.nameOf)
  | some _ => filling trial.options.marker []

/-- The substitution from which a trial names a related type, after those before it. -/
def namedFrom (trial : Trial) (primary : TypeDecl) (others : List TypeDecl)
    (candidate related : TypeDecl) : Matched := do
  let subst ← trial.bindAll primary others candidate
  trial.bindRelated candidate (trial.related.takeWhile fun decl => decl.name ≠ related.name) subst

/-- What a trial puts between the head and the tail of the name of a related type. -/
def filling (trial : Trial) (primary : TypeDecl) (others : List TypeDecl)
    (candidate related : TypeDecl) : String :=
  match trial.namedFrom primary others candidate related with
  | .ok subst => trial.fillingFrom candidate related subst
  | .error _ => ""

theorem declNameUnder_of_bind {related : TypeDecl}
    (hmarker : isRelated trial.options.marker related.name = true)
    (h : subst.bind (.name related.name) (.name (relatedName trial.options.nameOf related.name
      trial.options.marker (related.type.references subst) (Text.capitalize candidate.name))) =
        .ok grown) :
    declNameUnder grown related.name =
      nameHead trial.options.marker related.name ++ trial.fillingFrom candidate related subst ++
        nameTail trial.options.marker related.name := by
  have hname := relatedName_eq hmarker trial.options.nameOf (related.type.references subst)
    (Text.capitalize candidate.name)
  unfold fillingFrom declNameUnder
  rcases Substitution.bind_eq_ok_iff.mp h with ⟨hnone, -⟩ | ⟨bound, hget, heq, rfl⟩
  · have hget := Substitution.get?_of_bind_fresh hnone h
    rw [Substitution.getName?, hget, Substitution.getName?, hnone]
    exact hname
  · rw [Substitution.getName?, hget]
    cases bound with
    | name ident =>
      have heq := TypeExpr.eq_name_of_equivalent rfl heq
      cases heq
      exact hname
    | _ => exact name_eq_of_isRelated hmarker

theorem bindRelated_append (trial : Trial) (candidate : TypeDecl) (after : List TypeDecl) :
    ∀ (before : List TypeDecl) (subst : Substitution),
      trial.bindRelated candidate (before ++ after) subst =
        trial.bindRelated candidate before subst >>= trial.bindRelated candidate after
  | [], _ => rfl
  | decl :: before, subst => by
    rw [List.cons_append, bindRelated, bindRelated]
    split
    · exact bindRelated_append trial candidate after before _
    · rfl

/-- When it is a related type's turn to be named, those before it have their names. -/
theorem exists_turn_of_bindRelated {decls : List TypeDecl} {related : TypeDecl}
    (hmem : related ∈ decls)
    (hnames : ∀ other ∈ decls, other.name = related.name → other = related)
    (h : trial.bindRelated candidate decls subst = .ok last) :
    ∃ mid grown, trial.bindRelated candidate
        (decls.takeWhile fun decl => decl.name ≠ related.name) subst = .ok mid ∧
      mid.bind (.name related.name) (.name (relatedName trial.options.nameOf related.name
        trial.options.marker (related.type.references mid) (Text.capitalize candidate.name))) =
          .ok grown ∧ grown ≤ last := by
  obtain ⟨after, hsplit⟩ := exists_takeWhile_append hmem hnames
  rw [hsplit, bindRelated_append] at h
  obtain ⟨mid, hmid, hlast⟩ := bind_eq_ok.mp h
  unfold bindRelated at hlast
  dsimp only at hlast
  split at hlast
  · rename_i grown hbind
    exact ⟨mid, grown, hmid, hbind, le_of_bindRelated hlast⟩
  · cases hlast

section Outputs

variable {options : Options} {template provider : SourceFile} {primary candidate : TypeDecl}
  {others : List TypeDecl} {output : Specialization}

/-- **The name that a trial writes a related type under.** -/
theorem declNameUnder_of_run {related : TypeDecl}
    (hrelated : related ∈ (Trial.of options template provider).related)
    (h : (Trial.of options template provider).run primary others candidate = .ok output) :
    declNameUnder output.substitution related.name = nameHead options.marker related.name ++
      (Trial.of options template provider).filling primary others candidate related ++
        nameTail options.marker related.name := by
  obtain ⟨first, rest, final, hfirst, hrest, hfinal, rfl⟩ := run_eq_ok_iff.mp h
  obtain ⟨hmem, hmarker⟩ := mem_related_of.mp hrelated
  have hnames : ∀ other ∈ (Trial.of options template provider).related,
      other.name = related.name → other = related :=
    fun other hother => Scope.eq_of_name_eq (mem_related_of.mp hother).1 hmem
  obtain ⟨before, grown, hbefore, hbind, hle⟩ := exists_turn_of_bindRelated hrelated hnames hfinal
  have hfrom : (Trial.of options template provider).namedFrom primary others candidate related =
      .ok before :=
    bind_eq_ok.mpr ⟨rest, bind_eq_ok.mpr ⟨first, hfirst, hrest⟩, hbefore⟩
  rw [filling, hfrom]
  dsimp only
  have hname := declNameUnder_of_bind hmarker hbind
  obtain ⟨bound, hget, -⟩ := Substitution.exists_get?_of_bind hbind
  rw [declNameUnder, Substitution.getName?, Substitution.get?_of_le hle hget]
  rwa [declNameUnder, Substitution.getName?, hget] at hname

end Outputs

end Trial

/-! ## 3. The names in the outputs -/

/-- The types that are written are the related ones. -/
theorem map_name_typeDecls {marker : String} {subst : Substitution} {file written : SourceFile}
    (h : written.decls =
      (file.decls.filter (Decl.isWritten marker)).map (Decl.instantiate subst)) :
    written.typeDecls.map (·.name) =
      (file.typeDecls.filter fun decl => isRelated marker decl.name).map fun decl =>
        declNameUnder subst decl.name := by
  unfold SourceFile.typeDecls
  rw [h]
  generalize file.decls = decls
  induction decls with
  | nil => rfl
  | cons decl rest ih =>
    cases decl with
    | type decl =>
      have hwritten : Decl.isWritten marker (.type decl) = isRelated marker decl.name := rfl
      rw [List.filterMap_cons, List.filter_cons, hwritten]
      dsimp only
      rw [List.filter_cons]
      by_cases hmarker : isRelated marker decl.name = true
      · rw [if_pos hmarker, if_pos hmarker, List.map_cons, List.filterMap_cons, List.map_cons, ← ih]
        rfl
      · rw [if_neg hmarker, if_neg hmarker]
        exact ih
    | func | value =>
      rw [List.filter_cons_of_pos rfl, List.map_cons, List.filterMap_cons, List.filterMap_cons]
      exact ih

/-- The names of all types that are written by a run. -/
def Specialized.typeNames (result : Specialized) : List String :=
  result.outputs.flatMap fun output => output.file.typeDecls.map (·.name)

theorem Specialized.pairwise_outputs_ofTrials {R : Specialization → Specialization → Prop}
    {results : List (Except Mismatch Specialization)} :
    (ofTrials results).outputs.Pairwise R ↔ results.Pairwise fun result later =>
      ∀ output output', result = .ok output → later = .ok output' → R output output' := by
  unfold ofTrials
  rw [List.pairwise_filterMap]
  refine List.Pairwise.iff fun result later => ?_
  cases result <;> cases later <;> simp

/-- Whether any two trials that succeed put different texts between the head and the tail of the
    name of each related type. -/
def Trial.FillsApart (trial : Trial) (primary : TypeDecl) (others : List TypeDecl) : Prop :=
  ∀ candidate ∈ trial.candidates, ∀ candidate' ∈ trial.candidates, candidate ≠ candidate' →
    ∀ output output', trial.run primary others candidate = .ok output →
      trial.run primary others candidate' = .ok output' → ∀ related ∈ trial.related,
        trial.filling primary others candidate related ≠
          trial.filling primary others candidate' related

section Names

variable {options : Options} {template provider : SourceFile}
  (hnodup : (template.typeDecls.map (·.name)).Nodup)

include hnodup

/-- The names of an output's types are those of the related types, replaced. -/
theorem map_name_of_mem_outputs {output : Specialization}
    (h : output ∈ (specialize options template provider).outputs) :
    output.file.typeDecls.map (·.name) =
      (Trial.of options template provider).related.map fun decl =>
        declNameUnder output.substitution decl.name := by
  obtain ⟨primary, others, -, candidate, -, hrun⟩ := mem_outputs_iff.mp h
  obtain ⟨_, _, final, -, -, -, rfl⟩ := Trial.run_eq_ok_iff.mp hrun
  rw [map_name_typeDecls (Trial.decls_file options template provider final)]
  show _ = (template.scope.types.filter fun decl => !!isRelated options.marker decl.name).map _
  rw [show template.scope.types = template.typeDecls from firstByName_eq_self hnodup]
  simp only [Bool.not_not]

/-- Every type that is written has the name of a related type, with other text for the markers. -/
theorem exists_fitsMarkers_of_mem_typeNames {name : String}
    (h : name ∈ (specialize options template provider).typeNames) :
    ∃ related ∈ (Trial.of options template provider).related,
      FitsMarkers options.marker related.name name := by
  obtain ⟨output, houtput, hname⟩ := List.mem_flatMap.mp h
  rw [map_name_of_mem_outputs hnodup houtput] at hname
  obtain ⟨related, hrelated, rfl⟩ := List.mem_map.mp hname
  obtain ⟨primary, others, -, candidate, -, hrun⟩ := mem_outputs_iff.mp houtput
  exact ⟨related, hrelated, _, Trial.declNameUnder_of_run hrelated hrun⟩

variable (hrelated : ∀ related ∈ (Trial.of options template provider).related,
    ∀ related' ∈ (Trial.of options template provider).related, ∀ text,
      FitsMarkers options.marker related.name text →
        FitsMarkers options.marker related'.name text → related = related')

include hrelated

/-- An output writes no two types under one name. -/
theorem nodup_names_of_mem_outputs {output : Specialization}
    (h : output ∈ (specialize options template provider).outputs) :
    (output.file.typeDecls.map (·.name)).Nodup := by
  rw [map_name_of_mem_outputs hnodup h]
  obtain ⟨primary, others, -, candidate, -, hrun⟩ := mem_outputs_iff.mp h
  refine List.Nodup.map_on (fun related hmem related' hmem' e => ?_)
    ((nodup_firstByName template.typeDecls).filter _)
  exact hrelated related hmem related' hmem' _ ⟨_, Trial.declNameUnder_of_run hmem hrun⟩
    ⟨_, e.trans (Trial.declNameUnder_of_run hmem' hrun)⟩

/-- Two outputs write no two types under one name if they put other texts for the markers. -/
theorem disjoint_names_iff {primary candidate candidate' : TypeDecl} {others : List TypeDecl}
    {output output' : Specialization}
    (h : (Trial.of options template provider).run primary others candidate = .ok output)
    (h' : (Trial.of options template provider).run primary others candidate' = .ok output')
    (hmem : output ∈ (specialize options template provider).outputs)
    (hmem' : output' ∈ (specialize options template provider).outputs) :
    (output.file.typeDecls.map (·.name)).Disjoint (output'.file.typeDecls.map (·.name)) ↔
      ∀ related ∈ (Trial.of options template provider).related,
        (Trial.of options template provider).filling primary others candidate related ≠
          (Trial.of options template provider).filling primary others candidate' related := by
  rw [map_name_of_mem_outputs hnodup hmem, map_name_of_mem_outputs hnodup hmem']
  constructor
  · intro hdisjoint related hmem e
    have hname := Trial.declNameUnder_of_run hmem h
    rw [e, ← Trial.declNameUnder_of_run hmem h'] at hname
    exact hdisjoint (List.mem_map_of_mem hmem) (List.mem_map.mpr ⟨related, hmem, hname.symm⟩)
  · intro hfillings name hname hname'
    obtain ⟨related, hmem, rfl⟩ := List.mem_map.mp hname
    obtain ⟨related', hmem', e⟩ := List.mem_map.mp hname'
    have hleft := Trial.declNameUnder_of_run hmem h
    have hright := Trial.declNameUnder_of_run hmem' h'
    cases hrelated related hmem related' hmem' _ ⟨_, hleft⟩ ⟨_, e.symm.trans hright⟩
    refine hfillings related hmem (String.toList_inj.mp ?_)
    have hlists := congrArg String.toList (hleft.symm.trans (e.symm.trans hright))
    simpa using hlists

/-- The outputs of a run write different names, two by two, exactly if its trials put other texts
    for the markers. -/
theorem pairwise_disjoint_names_iff {primary : TypeDecl} {others : List TypeDecl}
    (htargets : (Trial.of options template provider).targets = primary :: others) :
    ((specialize options template provider).outputs.Pairwise fun output output' =>
      (output.file.typeDecls.map (·.name)).Disjoint (output'.file.typeDecls.map (·.name))) ↔
        (Trial.of options template provider).FillsApart primary others := by
  have houtputs : (specialize options template provider).outputs = (Specialized.ofTrials
      ((Trial.of options template provider).candidates.map
        ((Trial.of options template provider).run primary others))).outputs := by
    unfold specialize
    dsimp only
    rw [htargets]
  have hmem : ∀ candidate ∈ (Trial.of options template provider).candidates, ∀ output,
      (Trial.of options template provider).run primary others candidate = .ok output →
        output ∈ (specialize options template provider).outputs :=
    fun candidate hcandidate output hrun => mem_outputs_iff.mpr ⟨primary, others, htargets,
      candidate, Scope.mem_mostStructuredFirst.mp hcandidate, hrun⟩
  have hdistinct : (Trial.of options template provider).candidates.Nodup :=
    (provider.scope.perm_mostStructuredFirst _).nodup_iff.mpr (nodup_firstByName _)
  rw [houtputs, Specialized.pairwise_outputs_ofTrials, List.pairwise_map]
  constructor
  · intro hpairs candidate hcandidate candidate' hcandidate' hne output output' h h'
    have : Std.Symm fun candidate candidate' => ∀ output output' : Specialization,
        (Trial.of options template provider).run primary others candidate = .ok output →
          (Trial.of options template provider).run primary others candidate' = .ok output' →
            (output.file.typeDecls.map (·.name)).Disjoint (output'.file.typeDecls.map (·.name)) :=
      ⟨fun _ _ hdisjoint output output' h h' _ hname hname' =>
        hdisjoint output' output h' h hname' hname⟩
    exact (disjoint_names_iff hnodup hrelated h h' (hmem _ hcandidate _ h)
      (hmem _ hcandidate' _ h')).mp (hpairs.forall hcandidate hcandidate' hne output output' h h')
  · intro hapart
    refine hdistinct.pairwise_of_forall_ne fun candidate hcandidate candidate' hcandidate' hne
      output output' h h' => ?_
    exact (disjoint_names_iff hnodup hrelated h h' (hmem _ hcandidate _ h)
      (hmem _ hcandidate' _ h')).mpr
        (hapart candidate hcandidate candidate' hcandidate' hne output output' h h')

end Names

/-- **No two types are written under one name**, and none under the name of a provider type, if no
    text looks like the names of two related types, and no provider type is called like one. Within
    an output this is so at any rate; over all outputs it is so exactly if any two trials put other
    texts for the markers. -/
theorem specialize_typeNames {options : Options} {template provider : SourceFile}
    (hnodup : (template.typeDecls.map (·.name)).Nodup)
    (hrelated : ∀ related ∈ (Trial.of options template provider).related,
      ∀ related' ∈ (Trial.of options template provider).related, ∀ text,
        FitsMarkers options.marker related.name text →
          FitsMarkers options.marker related'.name text → related = related')
    (hprovider : ∀ decl ∈ provider.typeDecls,
      ∀ related ∈ (Trial.of options template provider).related,
        ¬ FitsMarkers options.marker related.name decl.name) :
    (∀ output ∈ (specialize options template provider).outputs,
      (output.file.typeDecls.map (·.name)).Nodup) ∧
    (∀ name ∈ (specialize options template provider).typeNames,
      ∀ decl ∈ provider.typeDecls, decl.name ≠ name) ∧
    ((specialize options template provider).typeNames.Nodup ↔
      ∀ primary others, (Trial.of options template provider).targets = primary :: others →
        (Trial.of options template provider).FillsApart primary others) := by
  have hnames : ∀ output ∈ (specialize options template provider).outputs,
      (output.file.typeDecls.map (·.name)).Nodup :=
    fun output => nodup_names_of_mem_outputs hnodup hrelated
  refine ⟨hnames, ?_, ?_⟩
  · rintro name hname decl hdecl rfl
    obtain ⟨related, hmem, hfits⟩ := exists_fitsMarkers_of_mem_typeNames hnodup hname
    exact hprovider decl hdecl related hmem hfits
  · rw [Specialized.typeNames, List.nodup_flatMap, and_iff_right hnames]
    cases htargets : (Trial.of options template provider).targets with
    | nil =>
      have hnone : (specialize options template provider).outputs = [] := by
        unfold specialize
        dsimp only
        rw [htargets]
      rw [hnone]
      exact iff_of_true .nil nofun
    | cons primary others =>
      refine (pairwise_disjoint_names_iff hnodup hrelated htargets).trans ⟨?_, ?_⟩
      · intro hapart _ _ e
        cases e
        exact hapart
      · exact fun hapart => hapart primary others rfl

/-! ## 4. Names that are kept apart, and names that clash -/

/-- Lists of any items, with stacks and queues of what the lists hold. -/
def queuedLists : SourceFile :=
  .ofTypes "names" [.of "Item" .emptyInterface, .of "List" (.sliceOf "Item"),
    .of "_Stack" (.sliceOf "Item"), .of "_Queue" (.channelOf "Item")]

/-- Two lists, of different items. -/
def intsAndWords : SourceFile :=
  .ofTypes "names" [.of "Ints" (.sliceOf "int"), .of "Words" (.sliceOf "string")]

/-- No text ends both in `Stack` and in `Queue`, and the lists are called otherwise. -/
theorem specialize_typeNames_queues :
    (specialize .default queuedLists intsAndWords).typeNames =
      ["IntStack", "IntQueue", "StringStack", "StringQueue"] ∧
    (∀ name ∈ (specialize .default queuedLists intsAndWords).typeNames,
      ∀ decl ∈ intsAndWords.typeDecls, decl.name ≠ name) ∧
    ∀ primary others,
      (Trial.of .default queuedLists intsAndWords).targets = primary :: others →
        (Trial.of .default queuedLists intsAndWords).FillsApart primary others := by
  have hends : ∀ related ∈ (Trial.of .default queuedLists intsAndWords).related,
      ∀ related' ∈ (Trial.of .default queuedLists intsAndWords).related, related ≠ related' →
        ¬ (nameTail "_" related.name).toList <:+ (nameTail "_" related'.name).toList := by
    decide
  have hlists : ∀ decl ∈ intsAndWords.typeDecls,
      ∀ related ∈ (Trial.of .default queuedLists intsAndWords).related,
        ¬ (nameTail "_" related.name).toList <:+ decl.name.toList := by
    decide
  have hrelated : ∀ related ∈ (Trial.of .default queuedLists intsAndWords).related,
      ∀ related' ∈ (Trial.of .default queuedLists intsAndWords).related, ∀ text,
        FitsMarkers "_" related.name text → FitsMarkers "_" related'.name text →
          related = related' := by
    intro related hmem related' hmem' text h h'
    by_contra hne
    rcases h.nameTail_or h' with hends' | hends'
    · exact hends related hmem related' hmem' hne hends'
    · exact hends related' hmem' related hmem (fun e => hne e.symm) hends'
  obtain ⟨-, hprovider, hnodup⟩ := @specialize_typeNames .default queuedLists intsAndWords
    (by decide) hrelated fun decl hdecl related hmem h =>
      hlists decl hdecl related hmem h.nameTail_isSuffix
  exact ⟨rfl, hprovider, hnodup.mp (by decide)⟩

/-- A box of two items, with a stack of each. Either name fits what the other one may become. -/
def stackedBoxes : SourceFile :=
  .ofTypes "names" [.of "Left" .emptyInterface, .of "Right" .emptyInterface,
    .of "Box" (.struct (.cons ["left"] (.name "Left") none
      (.cons ["right"] (.name "Right") none .nil))),
    .of "_Stack" (.sliceOf "Left"), .of "Int_" (.sliceOf "Right")]

/-- A box of an `int` and a `stack`. -/
def oneBox : SourceFile :=
  .ofTypes "names" [.of "Crate" (.struct (.cons ["left"] (.name "int") none
    (.cons ["right"] (.name "stack") none .nil)))]

/-- Two lists of the same items. -/
def intsTwice : SourceFile :=
  .ofTypes "names" [.of "Ints" (.sliceOf "int"), .of "Counts" (.sliceOf "int")]

/-- A list, and a type that is called like the stack of its items. -/
def intsAndStack : SourceFile :=
  .ofTypes "names" [.of "Ints" (.sliceOf "int"), .of "IntStack" (.struct .nil)]

/-- **Names may clash** in three ways: within an output when a text looks like the names of two
    related types, between two outputs for lists of the same items, and with the name of a provider
    type. -/
theorem specialize_typeNames_clash :
    (stackedBoxes.typeDecls.map (·.name)).Nodup ∧ (queuedLists.typeDecls.map (·.name)).Nodup ∧
      ¬ (specialize .default stackedBoxes oneBox).typeNames.Nodup ∧
      ¬ (specialize .default queuedLists intsTwice).typeNames.Nodup ∧
      ∃ decl ∈ intsAndStack.typeDecls,
        decl.name ∈ (specialize .default queuedLists intsAndStack).typeNames := by
  decide

end GoStencil
