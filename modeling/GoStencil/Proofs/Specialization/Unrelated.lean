import GoStencil.Proofs.Extension
import GoStencil.Proofs.Matching.Footprint
import GoStencil.Proofs.SourceFile.Parsed
import GoStencil.Proofs.Specialization.Trials

/-!
# Provider types that have nothing to do with a trial

Where the primary target leads to all other targets, the first match of a trial binds them all and
no further type of the provider is used. Then a type that the provider does not mention can be added
to it, and the trials of the other types stay as they were.

* `Scope.Leads`: whether names lead from a type to a declared name.
* `TypeExpr.IsParsed.reaches_of_mem_names`: a match looks at every name in a type that was read.
* `Trial.bindsName_of_leads`: the first match of a trial binds what the primary target leads to.
* `Trial.run_eq_of_adds`: then the trial of a type does not depend on a type that is added.
* `specialize_insertType`: the outputs for the other types are the same, in the same order.
-/

namespace GoStencil

/-! ## 1. Names in types that were read -/

theorem FieldList.exists_mem_toList {type : TypeExpr} : ∀ {fields : FieldList},
    type ∈ fields.types → ∃ field ∈ fields.toList, field.type = type
  | .nil, h => by cases h
  | .cons names first tag rest, h => by
    rcases List.mem_cons.mp h with rfl | h
    · exact ⟨⟨names, type, tag⟩, List.mem_cons_self, rfl⟩
    · obtain ⟨field, hmem, e⟩ := exists_mem_toList h
      exact ⟨field, List.mem_cons_of_mem _ hmem, e⟩

theorem FieldList.mem_entryTypes_of_mem_toList {field : Field} : ∀ {fields : FieldList},
    field ∈ fields.toList → field.type ∈ fields.entryTypes
  | .nil, h => by cases h
  | .cons names type tag rest, h => by
    rcases List.mem_cons.mp h with rfl | h
    · refine List.mem_append_left _ (List.mem_replicate.mpr ⟨?_, rfl⟩)
      unfold entryCount
      omega
    · exact List.mem_append_right _ (mem_entryTypes_of_mem_toList h)

theorem Field.IsStructField.exists_effectiveName {field : Field} (h : field.IsStructField) :
    ∃ name, name ∈ effectiveNames field.names field.type := by
  unfold effectiveNames
  split
  · rename_i hnames
    have hembedded := h.embedded hnames
    generalize field.type = type at hembedded ⊢
    unfold TypeExpr.isEmbeddable at hembedded
    split at hembedded
    · rename_i elem
      cases elem with
      | name ident | qualified _ ident => exact ⟨ident, List.mem_cons_self⟩
      | _ => cases hembedded
    · cases type with
      | name ident | qualified _ ident => exact ⟨ident, List.mem_cons_self⟩
      | _ => cases hembedded
  · rename_i name names hnames
    exact ⟨name, hnames ▸ List.mem_cons_self⟩

theorem FieldList.mem_effectiveEntries_of_mem_toList {field : Field} {name : String}
    (hname : name ∈ effectiveNames field.names field.type) : ∀ {fields : FieldList},
    field ∈ fields.toList → (name, field.type) ∈ fields.effectiveEntries
  | .nil, h => by cases h
  | .cons names type tag rest, h => by
    rcases List.mem_cons.mp h with rfl | h
    · exact List.mem_append_left _ (List.mem_map_of_mem hname)
    · exact List.mem_append_right _ (mem_effectiveEntries_of_mem_toList hname h)

/-- **A match looks at every name in a type that was read**: its fields have names, and none of its
    parts is left out. -/
theorem TypeExpr.IsParsed.reaches_of_mem_names {scope : Scope} {ident : String} {key : Binding}
    (hkey : scope.Reaches (.name ident) key) {type : TypeExpr} (h : type.IsParsed) :
    ident ∈ type.names → scope.Reaches type key := by
  have entries : ∀ fields : FieldList,
      (∀ field ∈ fields.toList, ident ∈ field.type.variadicElem.names →
        scope.Reaches field.type.variadicElem key) →
      ident ∈ fields.typeNames → ∃ part ∈ fields.entryTypes, scope.Reaches part key := by
    intro fields ih hmem
    rw [FieldList.typeNames_eq_flatMap] at hmem
    obtain ⟨part, hpart, hmem⟩ := List.mem_flatMap.mp hmem
    obtain ⟨field, hfield, rfl⟩ := FieldList.exists_mem_toList hpart
    refine ⟨field.type, FieldList.mem_entryTypes_of_mem_toList hfield, ?_⟩
    have hreach := ih field hfield
    generalize field.type = type at hmem hreach ⊢
    cases type with
    | «variadic» elem => exact .subgoal List.mem_cons_self (hreach hmem)
    | _ => exact hreach hmem
  induction h with
  | name =>
    intro hmem
    cases List.mem_singleton.mp hmem
    exact hkey
  | qualified => nofun
  | pointer _ ih | slice _ ih | array _ _ ih | paren _ ih | channel _ _ ih =>
    exact fun hmem => .subgoal List.mem_cons_self (ih hmem)
  | map _ _ ihKey ihValue =>
    intro hmem
    rcases List.mem_append.mp hmem with hmem | hmem
    · exact .subgoal List.mem_cons_self (ihKey hmem)
    · exact .subgoal (List.mem_cons_of_mem _ List.mem_cons_self) (ihValue hmem)
  | function _ _ _ _ ihParams ihResults =>
    intro hmem
    rcases List.mem_append.mp hmem with hmem | hmem
    · obtain ⟨part, hpart, hreach⟩ := entries _ ihParams hmem
      exact .subgoal (List.mem_append_left _ hpart) hreach
    · obtain ⟨part, hpart, hreach⟩ := entries _ ihResults hmem
      exact .subgoal (List.mem_append_right _ hpart) hreach
  | @struct fields hfields _ ih =>
    intro hmem
    rw [names, FieldList.typeNames_eq_flatMap] at hmem
    obtain ⟨part, hpart, hmem⟩ := List.mem_flatMap.mp hmem
    obtain ⟨field, hfield, rfl⟩ := FieldList.exists_mem_toList hpart
    obtain ⟨name, hname⟩ := (hfields field hfield).exists_effectiveName
    have hentry := FieldList.mem_effectiveEntries_of_mem_toList hname hfield
    exact .subgoal (List.mem_map_of_mem hentry) (ih field hfield hmem)
  | @interface members _ _ ih =>
    intro hmem
    rw [names, FieldList.typeNames_eq_flatMap] at hmem
    obtain ⟨part, hpart, hmem⟩ := List.mem_flatMap.mp hmem
    obtain ⟨field, hfield, rfl⟩ := FieldList.exists_mem_toList hpart
    exact .subgoal hpart (ih field hfield hmem)

/-! ## 2. Targets that the primary target leads to -/

/-- Whether names lead from a type to a name: it is one of the names in the type, or in the
    definition of a name that the type leads to. -/
inductive Scope.Leads (scope : Scope) : TypeExpr → String → Prop where
  | name {type : TypeExpr} {ident : String} (h : ident ∈ type.names) : Leads scope type ident
  | definition {type : TypeExpr} {ident last : String} {decl : TypeDecl} (h : ident ∈ type.names)
      (hdecl : scope.lookup ident = some decl) (hrest : Leads scope decl.type last) :
      Leads scope type last

theorem Scope.Leads.names_ne_nil {scope : Scope} {type : TypeExpr} {ident : String}
    (h : scope.Leads type ident) : type.names ≠ [] := by
  cases h with
  | name h | definition h =>
    rintro e
    rw [e] at h
    cases h

theorem TypeDecl.names_of_isPlaceholder {decl : TypeDecl} (h : decl.isPlaceholder = true) :
    decl.type.names = [] := by
  unfold isPlaceholder TypeExpr.isEmptyInterface at h
  split at h
  · rename_i e
    rw [e]
    rfl
  · cases h

/-- What names lead to is within reach of a match. -/
theorem Scope.Leads.reaches {scope : Scope} (hparsed : ∀ decl ∈ scope.types, decl.type.IsParsed)
    {type : TypeExpr} {ident : String} (h : scope.Leads type ident) :
    type.IsParsed → scope.Reaches type (.name ident) := by
  induction h with
  | name h => exact fun htype => htype.reaches_of_mem_names (.name _) h
  | @definition _ _ _ decl h hdecl hrest ih =>
    intro htype
    have hdef : decl.isPlaceholder = false := by
      by_contra hvar
      exact hrest.names_ne_nil (TypeDecl.names_of_isPlaceholder (by simpa using hvar))
    exact htype.reaches_of_mem_names
      (.definition hdecl hdef (ih (hparsed decl (mem_of_lookup hdecl)))) h

theorem SourceFile.isParsed_of_mem_types {text : String} {sourceName : Option String}
    {file : SourceFile} (h : SourceFile.parse text sourceName = .ok file) :
    ∀ decl ∈ file.scope.types, decl.type.IsParsed := by
  intro decl hmem
  obtain ⟨item, hitem, hdecl⟩ := List.mem_filterMap.mp (mem_of_mem_firstByName hmem)
  have hparsed := (SourceFile.isParsed_of_parse h).decls item hitem
  cases hparsed with
  | type hname htype =>
    cases hdecl
    exact htype
  | func | value => cases hdecl

/-- Whether the definitions of all names that are bound are settled. -/
def Matcher.SettlesBound (matcher : Matcher) (subst : Substitution) : Prop :=
  ∀ ident decl, subst.bindsName ident = true → matcher.template.lookup ident = some decl →
    decl.isPlaceholder = false → ∃ found, matcher.Settled subst (.pair decl.type found)

/-- Implementing a declaration settles its definition. -/
theorem Matcher.settled_of_unifyDecl {matcher : Matcher} {target candidate : TypeDecl}
    {subst grown : Substitution} (h : matcher.unifyDecl target candidate subst = .ok grown)
    (hdef : target.isPlaceholder = false) :
    matcher.Settled grown (.pair target.type candidate.type) := by
  obtain ⟨mid, -, ⟨hvar, -⟩ | ⟨-, hunify⟩⟩ := unifyDecl_eq_ok h
  · rw [hdef] at hvar
    cases hvar
  · exact (run_of_unify hunify).settled (.refl matcher grown) _ List.mem_cons_self

/-- **Implementing a declaration settles the definitions of all names that it binds**, and those of
    the names that were bound before stay settled. -/
theorem Matcher.settlesBound_of_unifyDecl {matcher : Matcher} {target candidate : TypeDecl}
    {subst grown : Substitution} (h : matcher.unifyDecl target candidate subst = .ok grown)
    (htarget : matcher.template.lookup target.name = some target)
    (hsubst : matcher.SettlesBound subst) : matcher.SettlesBound grown := by
  intro ident decl hbound hdecl hdef
  by_cases e : ident = target.name
  · rw [e, htarget] at hdecl
    cases hdecl
    exact ⟨candidate.type, settled_of_unifyDecl h hdef⟩
  obtain ⟨mid, hbind, hrest⟩ := unifyDecl_eq_ok h
  have hmid : mid.bindsName ident = subst.bindsName ident := by
    rw [Substitution.bindsName, Substitution.bindsName, Substitution.getName?_of_bind_ne e hbind]
  have hextends : matcher.Extends subst mid :=
    extends_of_growsBy (.of_bind (mayAdd_name (P := fun _ => True) htarget trivial) hbind)
  rcases hrest with ⟨-, rfl⟩ | ⟨-, hunify⟩
  · obtain ⟨found, hfound⟩ := hsubst ident decl (hmid ▸ hbound) hdecl hdef
    exact ⟨found, hfound.of_extends hextends⟩
  · have hrun := run_of_unify hunify
    cases hfree : mid.bindsName ident with
    | true =>
      obtain ⟨found, hfound⟩ := hsubst ident decl (hmid ▸ hfree) hdecl hdef
      exact ⟨found, hfound.of_extends (hextends.trans hrun.extends)⟩
    | false =>
      obtain ⟨found, hfound⟩ := Option.isSome_iff_exists.mp hbound
      exact ⟨found, hrun.settled_of_binds ident found decl hfree hfound hdecl hdef⟩

namespace Trial

variable {options : Options} {template provider : SourceFile} {primary candidate : TypeDecl}
  {others : List TypeDecl} {subst : Substitution}

/-- **The first match of a trial binds what the primary target leads to.** -/
theorem bindsName_of_leads {text : String} {sourceName : Option String}
    (hparse : SourceFile.parse text sourceName = .ok template)
    (htargets : (Trial.of options template provider).targets = primary :: others)
    (h : (Trial.of options template provider).matcher.unifyDecl primary candidate .empty =
      .ok subst) {target : TypeDecl} (hmem : target ∈ others)
    (hleads : template.scope.Leads primary.type target.name) :
    subst.bindsName target.name = true := by
  have hlookup : ∀ decl ∈ primary :: others, template.scope.lookup decl.name = some decl := by
    intro decl hdecl
    rw [← htargets, mem_targets_of] at hdecl
    exact Scope.lookup_of_mem hdecl.1
  have hprimary := hlookup primary List.mem_cons_self
  have hdef : primary.isPlaceholder = false := by
    by_contra hvar
    exact hleads.names_ne_nil (TypeDecl.names_of_isPlaceholder (by simpa using hvar))
  have hparsed := SourceFile.isParsed_of_mem_types hparse
  have hreach := hleads.reaches hparsed (hparsed primary (Scope.mem_of_lookup hprimary))
  have hself := Matcher.settled_of_unifyDecl h hdef
  have hdefs : (Trial.of options template provider).matcher.SettlesBound subst :=
    Matcher.settlesBound_of_unifyDecl h hprimary nofun
  have hkey : (Trial.of options template provider).matcher.CanBind (.name target.name) :=
    Option.isSome_of_eq_some (hlookup target (List.mem_cons_of_mem _ hmem))
  exact Matcher.Settled.binds_of_reaches hdefs hreach hkey hself

/-- Targets that are all bound leave nothing to do. -/
theorem bindRest_of_bindsName {trial : Trial} : ∀ {targets : List TypeDecl}
    {consumed : List String}, (∀ target ∈ targets, subst.bindsName target.name = true) →
      trial.bindRest targets consumed subst = .ok subst
  | [], _, _ => rfl
  | target :: rest, consumed, h => by
    rw [bindRest, if_pos (h target List.mem_cons_self)]
    exact bindRest_of_bindsName fun other hmem => h other (List.mem_cons_of_mem _ hmem)

/-! ## 3. Trials with one more type -/

theorem bindRelated_of_options_eq {trial other : Trial} (h : other.options = trial.options)
    (candidate : TypeDecl) : ∀ (decls : List TypeDecl) (subst : Substitution),
      other.bindRelated candidate decls subst = trial.bindRelated candidate decls subst
  | [], _ => rfl
  | decl :: rest, subst => by
    unfold bindRelated
    dsimp only
    rw [h]
    split
    · exact bindRelated_of_options_eq h candidate rest _
    · rfl

theorem carryImports_of_imports_eq {scope wider : Scope} (h : wider.imports = scope.imports) :
    ∀ (qualifiers : List String) (imports : List ImportSpec),
      carryImports wider qualifiers imports = carryImports scope qualifiers imports
  | [], _ => rfl
  | qualifier :: rest, imports => by
    have hspec : wider.qualifierOf qualifier = scope.qualifierOf qualifier := by
      rw [Scope.qualifierOf, Scope.qualifierOf, h]
    unfold carryImports
    rw [hspec]
    split
    · exact carryImports_of_imports_eq h rest imports
    · split
      · exact carryImports_of_imports_eq h rest _
      · exact carryImports_of_imports_eq h rest imports

section Wider

variable {wider : SourceFile} {name : String} (hadds : wider.scope.Adds provider.scope name)

include hadds

theorem file_eq_of_adds (subst : Substitution) :
    (Trial.of options template wider).file subst =
      (Trial.of options template provider).file subst := by
  have hpackage : wider.scope.package = provider.scope.package := hadds.package
  unfold file
  dsimp only
  rw [show (Trial.of options template wider).provider = wider.scope from rfl,
    show (Trial.of options template provider).provider = provider.scope from rfl, hpackage,
    carryImports_of_imports_eq hadds.imports]
  rfl

theorem unifyDecl_eq_of_adds (target : TypeDecl) (hmem : candidate ∈ provider.scope.types)
    (subst : Substitution) :
    (Trial.of options template wider).matcher.unifyDecl target candidate subst =
      (Trial.of options template provider).matcher.unifyDecl target candidate subst := by
  have hprovider : (Trial.of options template provider).matcher.ProviderHas (·.Avoids name) :=
    fun _ => (TypeExpr.hereditary_avoids name).resolve hadds.avoids
  have htemplate : ∀ ident, (Trial.of options template wider).matcher.template.lookup ident =
      (Trial.of options template provider).matcher.template.lookup ident := fun _ => rfl
  have hresolve : ∀ type : TypeExpr, type.Avoids name →
      (Trial.of options template wider).matcher.resolve type =
        (Trial.of options template provider).matcher.resolve type :=
    fun _ htype => hadds.resolve_eq htype
  exact Matcher.unifyDecl_eq_of_resolve_eq (TypeExpr.hereditary_avoids name) hprovider htemplate
    hresolve target (hadds.avoids candidate hmem) subst

/-- **A trial that binds all targets at once does not depend on a type that is added.** -/
theorem run_eq_of_adds (hmem : candidate ∈ provider.scope.types)
    (hall : ∀ subst, (Trial.of options template provider).matcher.unifyDecl primary candidate
      .empty = .ok subst → ∀ target ∈ others, subst.bindsName target.name = true) :
    (Trial.of options template wider).run primary others candidate =
      (Trial.of options template provider).run primary others candidate := by
  have hunify : (Trial.of options template wider).matcher.unifyDecl primary candidate .empty =
      (Trial.of options template provider).matcher.unifyDecl primary candidate .empty :=
    unifyDecl_eq_of_adds hadds primary hmem .empty
  have hbind : (Trial.of options template wider).bindAll primary others candidate =
      (Trial.of options template provider).bindAll primary others candidate := by
    cases h : (Trial.of options template provider).matcher.unifyDecl primary candidate .empty with
    | error cause =>
      -- both sides are this error, whatever the provider: the rest is never run
      rw [bindAll, bindAll, hunify, h]
      show (.error cause : Matched) = .error cause
      rfl
    | ok subst =>
      have hwider : (Trial.of options template wider).bindAll primary others candidate =
          .ok subst :=
        bind_eq_ok.mpr ⟨subst, hunify.trans h, bindRest_of_bindsName (hall subst h)⟩
      have hprovider : (Trial.of options template provider).bindAll primary others candidate =
          .ok subst :=
        bind_eq_ok.mpr ⟨subst, h, bindRest_of_bindsName (hall subst h)⟩
      rw [hwider, hprovider]
  have hrelated : (Trial.of options template wider).related =
      (Trial.of options template provider).related := rfl
  have hoptions : (Trial.of options template wider).options =
      (Trial.of options template provider).options := rfl
  cases hall : (Trial.of options template provider).bindAll primary others candidate with
  | error cause => rw [run, run, hbind, hall]
  | ok rest =>
    rw [run_of_bindAll hall, run_of_bindAll (hbind.trans hall), hrelated,
      bindRelated_of_options_eq hoptions]
    refine congrArg _ (funext fun final => ?_)
    rw [file_eq_of_adds hadds]

end Wider

end Trial

/-! ## 4. Outputs -/

/-- The successes of the trials of some types are those of all trials that are for these types. -/
theorem Specialized.filter_outputs_ofTrials {run : TypeDecl → Except Mismatch Specialization}
    (hname : ∀ candidate output, run candidate = .ok output → output.name = candidate.name)
    (p : String → Bool) : ∀ candidates : List TypeDecl,
      (ofTrials (candidates.map run)).outputs.filter (fun output => p output.name) =
        (ofTrials ((candidates.filter fun candidate => p candidate.name).map run)).outputs
  | [] => rfl
  | candidate :: rest => by
    have hrest := filter_outputs_ofTrials hname p rest
    unfold ofTrials at hrest ⊢
    dsimp only at hrest ⊢
    rw [List.map_cons, List.filterMap_cons, List.filter_cons]
    cases hrun : run candidate with
    | error cause =>
      dsimp only
      split
      · rw [List.map_cons, List.filterMap_cons, hrun]
        exact hrest
      · exact hrest
    | ok output =>
      dsimp only
      rw [List.filter_cons, hname candidate output hrun]
      split
      · rw [List.map_cons, List.filterMap_cons, hrun, hrest]
      · exact hrest

section Insertion

variable {options : Options} {template provider : SourceFile} {before after : List Decl}
  {added : TypeDecl} (hdecls : provider.decls = before ++ after)
  (hname : ∀ decl ∈ provider.typeDecls, decl.name ≠ added.name)
  (havoids : ∀ decl ∈ provider.typeDecls, decl.type.Avoids added.name)

include hdecls hname havoids

/-- The candidates but for the new one. -/
theorem Trial.filter_candidates_insertType :
    (Trial.of options template (provider.insertType before after added)).candidates.filter
        (fun candidate => provider.typeDecls.any (·.name == candidate.name)) =
      (Trial.of options template provider).candidates := by
  have hadds := SourceFile.adds_scope hdecls hname havoids
  refine Eq.trans (List.filter_congr fun candidate hmem => ?_) hadds.filter_mostStructuredFirst
  rw [Bool.eq_iff_iff, List.any_eq_true, decide_eq_true_iff]
  constructor
  · rintro ⟨decl, hdecl, e⟩
    rw [← eq_of_beq e]
    exact hname decl hdecl
  · intro hne
    have hold : candidate ∈ provider.scope.types := by
      rw [← hadds.types, List.mem_filter]
      exact ⟨Scope.mem_mostStructuredFirst.mp hmem, by simpa using hne⟩
    exact ⟨candidate, mem_of_mem_firstByName hold, beq_self_eq_true _⟩

end Insertion

/-- **A type that the provider does not mention takes no part in the trials of the other types**,
    where the primary target leads to all other targets: their outputs stay the same, in the same
    order. -/
theorem specialize_insertType {text : String} {sourceName : Option String} {options : Options}
    {template provider : SourceFile} {before after : List Decl} {added : TypeDecl}
    (hparse : SourceFile.parse text sourceName = .ok template)
    (hleads : ∀ primary others, (Trial.of options template provider).targets = primary :: others →
      ∀ target ∈ others, template.scope.Leads primary.type target.name)
    (hdecls : provider.decls = before ++ after)
    (hname : ∀ decl ∈ provider.typeDecls, decl.name ≠ added.name)
    (havoids : ∀ decl ∈ provider.typeDecls, decl.type.Avoids added.name) :
    (specialize options template (provider.insertType before after added)).outputs.filter
        (fun output => provider.typeDecls.any (·.name == output.name)) =
      (specialize options template provider).outputs := by
  have hadds := SourceFile.adds_scope hdecls hname havoids
  have htargets : (Trial.of options template (provider.insertType before after added)).targets =
      (Trial.of options template provider).targets := rfl
  unfold specialize
  dsimp only
  rw [htargets]
  cases h : (Trial.of options template provider).targets with
  | nil => rfl
  | cons primary others =>
    dsimp only
    have hrun : ∀ candidate ∈ (Trial.of options template provider).candidates,
        (Trial.of options template (provider.insertType before after added)).run primary others
            candidate =
          (Trial.of options template provider).run primary others candidate :=
      fun candidate hmem => Trial.run_eq_of_adds hadds (Scope.mem_mostStructuredFirst.mp hmem)
        fun subst hunify target htarget => Trial.bindsName_of_leads hparse h hunify htarget
          (hleads primary others h target htarget)
    rw [Specialized.filter_outputs_ofTrials (fun _ _ => Trial.name_of_run)
      (fun name => provider.typeDecls.any (·.name == name)),
      Trial.filter_candidates_insertType hdecls hname havoids, List.map_congr_left hrun]

/-- Rows of items of any type. -/
def rowsText : String :=
  "package rows\ntype T interface\x7b\x7d\ntype Row []T\ntype Grid []Row\n"

def itemDecl : TypeDecl := ⟨"T", false, .emptyInterface, ⟨18, 31⟩⟩

def rowDecl : TypeDecl := ⟨"Row", false, .array none (.name "T"), ⟨37, 44⟩⟩

def gridDecl : TypeDecl := ⟨"Grid", false, .array none (.name "Row"), ⟨50, 60⟩⟩

/-- The declarations of a grid, a row and an item. -/
def rowsTemplate : SourceFile :=
  ⟨"rows", [], [.type itemDecl, .type rowDecl, .type gridDecl], none⟩

/-- A provider with a grid of numbers. -/
def numbersProvider : SourceFile :=
  .ofTypes "numbers" [.of "Numbers" (.array none (.sliceOf "int"))]

/-- A grid of words, which could implement the template as well. -/
def wordsDecl : TypeDecl :=
  .of "Words" (.array none (.sliceOf "string"))

/-- The words are one more output, and the output for the numbers stays the same. -/
theorem specialize_insertType_words :
    (specialize .default rowsTemplate
        (numbersProvider.insertType [] numbersProvider.decls wordsDecl)).outputs.map (·.name) =
      ["Words", "Numbers"] ∧
    (specialize .default rowsTemplate
        (numbersProvider.insertType [] numbersProvider.decls wordsDecl)).outputs.filter
      (fun output => numbersProvider.typeDecls.any (·.name == output.name)) =
    (specialize .default rowsTemplate numbersProvider).outputs := by
  have hread : (SourceFile.parse rowsText none).toOption = some rowsTemplate := by decide +kernel
  have hparse : SourceFile.parse rowsText none = .ok rowsTemplate := by
    cases h : SourceFile.parse rowsText none with
    | error cause =>
      rw [h] at hread
      cases hread
    | ok file =>
      rw [h] at hread
      rw [Option.some.inj hread]
  have htargets : (Trial.of .default rowsTemplate numbersProvider).targets =
      [gridDecl, rowDecl, itemDecl] := rfl
  refine ⟨rfl, specialize_insertType hparse (fun primary others h target hmem => ?_) rfl
    (by decide) ?_⟩
  · rw [htargets] at h
    cases h
    rcases List.mem_cons.mp hmem with rfl | hmem
    · exact .name List.mem_cons_self
    · cases List.mem_singleton.mp hmem
      exact .definition List.mem_cons_self rfl (.name List.mem_cons_self)
  · intro decl hmem
    cases List.mem_singleton.mp hmem
    exact ⟨by decide, by decide⟩

end GoStencil
