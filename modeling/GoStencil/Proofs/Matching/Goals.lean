import GoStencil.Matching
import GoStencil.Proofs.Bindings

/-!
# The goals of a match

A structural template type (any form but a name, parentheses, a variadic type and the empty
interface) is matched part by part. The parts, in their order, are its goals.

* `Goal.ofParts`: the goals for a template type and a candidate that has been looked through.
* `matchWith_eq_matchAll`: a structural type is matched by matching its goals one after the other.
* `TypeExpr.parts`, `Goal.mem_parts_of_mem_ofParts`: the goals pair parts with parts.
* `TypeExpr.goalInduction`: the goals are smaller than the type, so they carry inductions.
-/

namespace GoStencil

/-! ## 1. Goals -/

/-- Something left to do in a match. -/
inductive Goal where
  /-- A template type is to be matched with a candidate. -/
  | pair (template candidate : TypeExpr)
  /-- The match fails when it gets here. -/
  | fail (cause : Mismatch)

/-- Each name that the fields of a struct declare, or go by, with the type of the field. -/
def FieldList.effectiveEntries : FieldList → List (String × TypeExpr)
  | .nil => []
  | .cons names type _ rest => (effectiveNames names type).map (·, type) ++ rest.effectiveEntries

namespace Goal

/-- The goals for two lists of parameters or results. -/
def ofEntries (template candidate : FieldList) : List Goal :=
  if template.numFields = candidate.numFields then
    (template.entryTypes.zip candidate.entryTypes).map fun types => pair types.1 types.2
  else [fail (.arity template.numFields candidate.numFields)]

/-- The goal for one field of a struct. -/
def ofField (candidate : FieldList) (entry : String × TypeExpr) : Goal :=
  match candidate.find? entry.1 with
  | some found => pair entry.2 found.type
  | none => fail (.missingField entry.1)

/-- The goals for the fields of two structs. -/
def ofFields (template candidate : FieldList) : List Goal :=
  if candidate.numFields < template.numFields then
    [fail (.insufficientFields template.numFields candidate.numFields)]
  else template.effectiveEntries.map (ofField candidate)

/-- The goals for the parts of a template type and of a candidate that has been looked through. -/
def ofParts : TypeExpr → TypeExpr → List Goal
  | .qualified package ident, .qualified foundPackage found =>
    pair (.name package) (.name foundPackage) ::
      if ident = found then [] else [fail (.identifier ident (.name found))]
  | .pointer elem, .pointer found => [pair elem found]
  | .array length elem, .array foundLength found =>
    if length = foundLength then [pair elem found]
    else [fail (.shape (.array length elem) (.array foundLength found))]
  | .channel direction value, .channel foundDirection found =>
    if direction ≠ .both ∧ foundDirection ≠ .both ∧ direction ≠ foundDirection then
      [fail (.direction direction foundDirection)]
    else [pair value found]
  | .function params results, .function foundParams foundResults =>
    ofEntries params foundParams ++ ofEntries results foundResults
  | .interface members, _ => [fail (.unsupportedConstraint (.interface members))]
  | .map key value, .map foundKey found => [pair key foundKey, pair value found]
  | .struct fields, .struct found => ofFields fields found
  | template, candidate => [fail (.shape template candidate)]

/-- The matching of a goal for a given treatment of names. -/
def matchWith (matchName : NameMatcher) (resolve : TypeExpr → TypeExpr) (subst : Substitution) :
    Goal → Matched
  | pair template candidate => template.matchWith matchName resolve candidate subst
  | fail cause => .error cause

/-- The matching of some goals, one after the other. -/
def matchAll (matchName : NameMatcher) (resolve : TypeExpr → TypeExpr) (goals : List Goal)
    (subst : Substitution) : Matched :=
  goals.foldlM (matchWith matchName resolve) subst

end Goal

/-- Whether a template type is matched by its parts. -/
def TypeExpr.isStructural : TypeExpr → Bool
  | .name _ | .paren _ | .variadic _ | .interface .nil => false
  | _ => true

/-- What a variadic template type takes of a candidate: the element of another variadic type. -/
def TypeExpr.variadicElem : TypeExpr → TypeExpr
  | .variadic elem => elem
  | type => type

/-! ## 2. Structural types are matched by their goals -/

section Parts

variable (matchName : NameMatcher) (resolve : TypeExpr → TypeExpr)

theorem Goal.matchAll_cons (goal : Goal) (goals : List Goal) (subst : Substitution) :
    matchAll matchName resolve (goal :: goals) subst =
      (goal.matchWith matchName resolve subst >>= matchAll matchName resolve goals) := rfl

@[simp] theorem Goal.matchAll_singleton (goal : Goal) (subst : Substitution) :
    matchAll matchName resolve [goal] subst = goal.matchWith matchName resolve subst :=
  bind_pure _

theorem Goal.matchAll_append (first second : List Goal) (subst : Substitution) :
    matchAll matchName resolve (first ++ second) subst =
      (matchAll matchName resolve first subst >>= matchAll matchName resolve second) :=
  List.foldlM_append

theorem zip_replicate_length {α β : Type} (a : α) : ∀ list : List β,
    (List.replicate list.length a).zip list = list.map (a, ·)
  | [] => rfl
  | b :: rest => by simp [List.replicate_succ, zip_replicate_length a rest]

theorem FieldList.matchEntries_eq : ∀ (fields : FieldList) (candidates : List TypeExpr)
    (subst : Substitution), fields.numFields = candidates.length →
    fields.matchEntries matchName resolve candidates subst =
      Goal.matchAll matchName resolve
        ((fields.entryTypes.zip candidates).map fun types => .pair types.1 types.2) subst
  | .nil, _, _, _ => rfl
  | .cons names type _ rest, candidates, subst, h => by
    simp only [numFields] at h
    have htake : entryCount names = (candidates.take (entryCount names)).length := by
      rw [List.length_take]
      omega
    have hdrop : rest.numFields = (candidates.drop (entryCount names)).length := by
      rw [List.length_drop]
      omega
    have hzip : (FieldList.cons names type ‹_› rest).entryTypes.zip candidates =
        (candidates.take (entryCount names)).map (type, ·) ++
          rest.entryTypes.zip (candidates.drop (entryCount names)) := by
      have hsplit := List.take_append_drop (entryCount names) candidates
      have hfront := zip_replicate_length type (candidates.take (entryCount names))
      rw [← htake] at hfront
      rw [← hfront, ← List.zip_append (by simpa using htake), hsplit]
      rfl
    rw [hzip, List.map_append, Goal.matchAll_append, matchEntries, List.map_map]
    simp only [matchEntries_eq rest _ _ hdrop]
    congr 1
    rw [Goal.matchAll, List.foldlM_map]
    rfl

theorem FieldList.matchFields_eq (candidate : FieldList) : ∀ (fields : FieldList)
    (subst : Substitution),
    fields.matchFields matchName resolve candidate subst =
      Goal.matchAll matchName resolve (fields.effectiveEntries.map (Goal.ofField candidate)) subst
  | .nil, _ => rfl
  | .cons names type _ rest, subst => by
    rw [effectiveEntries, List.map_append, Goal.matchAll_append, matchFields, List.map_map]
    simp only [matchFields_eq candidate rest]
    congr 1
    rw [Goal.matchAll, List.foldlM_map]
    congr 1
    funext subst name
    simp only [Function.comp_apply, Goal.ofField]
    cases candidate.find? name <;> rfl

theorem Goal.matchAll_ofEntries (template candidate : FieldList) (subst : Substitution) :
    matchAll matchName resolve (ofEntries template candidate) subst =
      if template.numFields = candidate.numFields then
        template.matchEntries matchName resolve candidate.entryTypes subst
      else .error (.arity template.numFields candidate.numFields) := by
  unfold ofEntries
  split
  · rename_i h
    rw [FieldList.matchEntries_eq matchName resolve _ _ _ (by rwa [FieldList.length_entryTypes])]
  · rw [matchAll_singleton, matchWith]

theorem Goal.matchAll_ofFields (template candidate : FieldList) (subst : Substitution) :
    matchAll matchName resolve (ofFields template candidate) subst =
      if candidate.numFields < template.numFields then
        .error (.insufficientFields template.numFields candidate.numFields)
      else template.matchFields matchName resolve candidate subst := by
  unfold ofFields
  split
  · rw [matchAll_singleton, matchWith]
  · rw [FieldList.matchFields_eq]

/-- **A structural type is matched by its goals.** -/
theorem TypeExpr.matchWith_eq_matchAll {template : TypeExpr} (h : template.isStructural = true)
    (candidate : TypeExpr) (subst : Substitution) :
    template.matchWith matchName resolve candidate subst =
      Goal.matchAll matchName resolve (Goal.ofParts template (resolve candidate)) subst := by
  cases template with
  | name ident => cases h
  | paren inner => cases h
  | variadic elem => cases h
  | qualified package ident =>
    unfold TypeExpr.matchWith
    dsimp only
    cases resolve candidate with
    | qualified foundPackage found =>
      simp only [Goal.ofParts, Goal.matchAll_cons, Goal.matchWith, TypeExpr.matchWith]
      congr 1
      funext subst
      split <;> rfl
    | _ => rfl
  | pointer elem =>
    unfold TypeExpr.matchWith
    dsimp only
    cases resolve candidate with
    | pointer found => rw [Goal.ofParts, Goal.matchAll_singleton, Goal.matchWith]
    | _ => rfl
  | array length elem =>
    unfold TypeExpr.matchWith
    dsimp only
    cases resolve candidate with
    | array foundLength found =>
      rw [Goal.ofParts]
      dsimp only
      split <;> rw [Goal.matchAll_singleton, Goal.matchWith]
    | _ => rfl
  | channel direction value =>
    unfold TypeExpr.matchWith
    dsimp only
    cases resolve candidate with
    | channel foundDirection found =>
      rw [Goal.ofParts]
      dsimp only
      split <;> rw [Goal.matchAll_singleton, Goal.matchWith]
    | _ => rfl
  | map key value =>
    unfold TypeExpr.matchWith
    dsimp only
    cases resolve candidate with
    | map foundKey found =>
      rw [Goal.ofParts, Goal.matchAll_cons, Goal.matchWith]
      dsimp only
      congr 1
      funext subst
      rw [Goal.matchAll_singleton, Goal.matchWith]
    | _ => rfl
  | function params results =>
    unfold TypeExpr.matchWith
    dsimp only
    cases resolve candidate with
    | function foundParams foundResults =>
      rw [Goal.ofParts, Goal.matchAll_append, Goal.matchAll_ofEntries]
      dsimp only
      split
      · congr 1
        funext subst
        rw [Goal.matchAll_ofEntries]
        rfl
      · rfl
    | _ => rfl
  | struct fields =>
    unfold TypeExpr.matchWith
    dsimp only
    cases resolve candidate with
    | struct found => rw [Goal.ofParts, Goal.matchAll_ofFields]
    | _ => rfl
  | interface members =>
    cases members with
    | nil => cases h
    | cons =>
      unfold TypeExpr.matchWith
      dsimp only
      cases resolve candidate <;> rfl

end Parts

/-! ## 3. Goals pair parts with parts -/

/-- The types of the entries, one for each entry. -/
def FieldList.types : FieldList → List TypeExpr
  | .nil => []
  | .cons _ type _ rest => type :: rest.types

/-- The types that a type is made of. -/
def TypeExpr.parts : TypeExpr → List TypeExpr
  | .name _ | .qualified _ _ => []
  | .pointer elem | .array _ elem | .variadic elem | .paren elem | .channel _ elem => [elem]
  | .map key value => [key, value]
  | .function params results => params.types ++ results.types
  | .struct fields => fields.types
  | .interface members => members.types

theorem FieldList.sizeOf_lt_of_mem_types {type : TypeExpr} : ∀ {fields : FieldList},
    type ∈ fields.types → sizeOf type < sizeOf fields
  | .nil, h => by cases h
  | .cons names first tag rest, h => by
    rw [FieldList.cons.sizeOf_spec]
    rcases List.mem_cons.mp h with rfl | h
    · omega
    · have := sizeOf_lt_of_mem_types h
      omega

theorem TypeExpr.sizeOf_lt_of_mem_parts {type part : TypeExpr} (h : part ∈ type.parts) :
    sizeOf part < sizeOf type := by
  cases type with
  | name | qualified => cases h
  | pointer | array | «variadic» | paren | channel =>
    cases List.mem_singleton.mp h
    simp only [pointer.sizeOf_spec, array.sizeOf_spec, variadic.sizeOf_spec, paren.sizeOf_spec,
      channel.sizeOf_spec]
    omega
  | map key value =>
    rw [map.sizeOf_spec]
    rcases List.mem_cons.mp h with rfl | h
    · omega
    · cases List.mem_singleton.mp h
      omega
  | function params results =>
    rw [function.sizeOf_spec]
    rcases List.mem_append.mp h with h | h
    · have := FieldList.sizeOf_lt_of_mem_types h
      omega
    · have := FieldList.sizeOf_lt_of_mem_types h
      omega
  | struct fields =>
    have := FieldList.sizeOf_lt_of_mem_types h
    rw [struct.sizeOf_spec]
    omega
  | interface members =>
    have := FieldList.sizeOf_lt_of_mem_types h
    rw [interface.sizeOf_spec]
    omega

theorem FieldList.mem_types_of_mem_entryTypes {type : TypeExpr} : ∀ {fields : FieldList},
    type ∈ fields.entryTypes → type ∈ fields.types
  | .nil, h => by cases h
  | .cons names first tag rest, h => by
    rcases List.mem_append.mp h with h | h
    · rw [List.eq_of_mem_replicate h]
      exact List.mem_cons_self
    · exact List.mem_cons_of_mem _ (mem_types_of_mem_entryTypes h)

theorem FieldList.mem_types_of_mem_effectiveEntries {name : String} {type : TypeExpr} :
    ∀ {fields : FieldList}, (name, type) ∈ fields.effectiveEntries → type ∈ fields.types
  | .nil, h => by cases h
  | .cons names first tag rest, h => by
    rcases List.mem_append.mp h with h | h
    · obtain ⟨_, -, e⟩ := List.mem_map.mp h
      cases e
      exact List.mem_cons_self
    · exact List.mem_cons_of_mem _ (mem_types_of_mem_effectiveEntries h)

theorem FieldList.mem_types_of_find? {name : String} {field : Field} : ∀ {fields : FieldList},
    fields.find? name = some field → field.type ∈ fields.types
  | .nil, h => by cases h
  | .cons names first tag rest, h => by
    unfold find? at h
    split at h
    · cases h
      exact List.mem_cons_self
    · exact List.mem_cons_of_mem _ (mem_types_of_find? h)

namespace Goal

theorem mem_ofEntries {template candidate : FieldList} {left right : TypeExpr}
    (h : pair left right ∈ ofEntries template candidate) :
    template.numFields = candidate.numFields ∧
      (left, right) ∈ template.entryTypes.zip candidate.entryTypes := by
  unfold ofEntries at h
  split at h
  · rename_i hlen
    obtain ⟨types, hmem, e⟩ := List.mem_map.mp h
    cases e
    exact ⟨hlen, hmem⟩
  · simp at h

theorem mem_ofFields {template candidate : FieldList} {left right : TypeExpr}
    (h : pair left right ∈ ofFields template candidate) :
    ∃ name found, (name, left) ∈ template.effectiveEntries ∧
      candidate.find? name = some found ∧ right = found.type := by
  unfold ofFields at h
  split at h
  · simp at h
  · obtain ⟨⟨name, type⟩, hmem, e⟩ := List.mem_map.mp h
    unfold ofField at e
    split at e
    · rename_i found hfound
      cases e
      exact ⟨name, found, hmem, hfound, rfl⟩
    · cases e

theorem mem_types_of_mem_ofEntries {template candidate : FieldList} {left right : TypeExpr}
    (h : pair left right ∈ ofEntries template candidate) :
    left ∈ template.types ∧ right ∈ candidate.types := by
  have hzip := List.of_mem_zip (mem_ofEntries h).2
  exact ⟨FieldList.mem_types_of_mem_entryTypes hzip.1, FieldList.mem_types_of_mem_entryTypes hzip.2⟩

/-- The goals pair parts of the template type with parts of the candidate, but for the packages
    of names. -/
theorem mem_parts_of_mem_ofParts {template candidate left right : TypeExpr}
    (h : pair left right ∈ ofParts template candidate) :
    (∃ package ident foundPackage found, template = .qualified package ident ∧
        candidate = .qualified foundPackage found ∧ left = .name package ∧
          right = .name foundPackage) ∨
      left ∈ template.parts ∧ right ∈ candidate.parts := by
  unfold ofParts at h
  split at h
  case h_1 package ident foundPackage found =>
    rcases List.mem_cons.mp h with e | h
    · cases e
      exact .inl ⟨package, ident, foundPackage, found, rfl, rfl, rfl, rfl⟩
    · split at h
      · cases h
      · cases List.mem_singleton.mp h
  case h_2 elem found =>
    cases List.mem_singleton.mp h
    exact .inr ⟨List.mem_cons_self, List.mem_cons_self⟩
  case h_3 length elem foundLength found =>
    split at h <;> cases List.mem_singleton.mp h
    exact .inr ⟨List.mem_cons_self, List.mem_cons_self⟩
  case h_4 direction value foundDirection found =>
    split at h <;> cases List.mem_singleton.mp h
    exact .inr ⟨List.mem_cons_self, List.mem_cons_self⟩
  case h_5 params results foundParams foundResults =>
    rcases List.mem_append.mp h with h | h
    · obtain ⟨hleft, hright⟩ := mem_types_of_mem_ofEntries h
      exact .inr ⟨List.mem_append_left _ hleft, List.mem_append_left _ hright⟩
    · obtain ⟨hleft, hright⟩ := mem_types_of_mem_ofEntries h
      exact .inr ⟨List.mem_append_right _ hleft, List.mem_append_right _ hright⟩
  case h_6 => cases List.mem_singleton.mp h
  case h_7 key value foundKey found =>
    rcases List.mem_cons.mp h with e | h
    · cases e
      exact .inr ⟨List.mem_cons_self, List.mem_cons_self⟩
    · cases List.mem_singleton.mp h
      exact .inr ⟨List.mem_cons_of_mem _ List.mem_cons_self,
        List.mem_cons_of_mem _ List.mem_cons_self⟩
  case h_8 fields found =>
    obtain ⟨name, field, hmem, hfind, rfl⟩ := mem_ofFields h
    exact .inr ⟨FieldList.mem_types_of_mem_effectiveEntries hmem,
      FieldList.mem_types_of_find? hfind⟩
  case h_9 => cases List.mem_singleton.mp h

/-- The goals of a template type are smaller than it, so they carry inductions. -/
theorem sizeOf_lt_of_mem_ofParts {template candidate left right : TypeExpr}
    (h : pair left right ∈ ofParts template candidate) : sizeOf left < sizeOf template := by
  rcases mem_parts_of_mem_ofParts h with ⟨package, ident, _, _, rfl, -, rfl, -⟩ | ⟨hleft, -⟩
  · have hpos : 0 < sizeOf ident := by
      cases ident
      rw [String.ofByteArray.sizeOf_spec]
      omega
    rw [TypeExpr.name.sizeOf_spec, TypeExpr.qualified.sizeOf_spec]
    omega
  · exact TypeExpr.sizeOf_lt_of_mem_parts hleft

end Goal

/-- Induction on a template type by its goals. -/
theorem TypeExpr.goalInduction {motive : TypeExpr → Prop}
    (name : ∀ ident, motive (.name ident))
    (paren : ∀ inner, motive inner → motive (.paren inner))
    (variadic : ∀ elem, motive elem → motive (.variadic elem))
    (universal : motive .emptyInterface)
    (structural : ∀ template : TypeExpr, template.isStructural = true →
      (∀ candidate left right, .pair left right ∈ Goal.ofParts template candidate → motive left) →
      motive template)
    (template : TypeExpr) : motive template := by
  induction hn : sizeOf template using Nat.strongRecOn generalizing template with
  | ind n ih =>
    subst hn
    by_cases h : template.isStructural = true
    · exact structural template h fun candidate left right hmem =>
        ih _ (Goal.sizeOf_lt_of_mem_ofParts hmem) left rfl
    · cases template with
      | name ident => exact name ident
      | paren inner =>
        exact paren inner (ih _ (by rw [TypeExpr.paren.sizeOf_spec]; omega) inner rfl)
      | variadic elem =>
        exact variadic elem (ih _ (by rw [TypeExpr.variadic.sizeOf_spec]; omega) elem rfl)
      | interface members =>
        cases members with
        | nil => exact universal
        | cons => exact absurd rfl h
      | _ => exact absurd rfl h

end GoStencil
