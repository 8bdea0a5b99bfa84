import GoStencil.Proofs.Matching.Confluence
import GoStencil.Proofs.Matching.Footprint
import Mathlib.Data.List.Nodup

/-!
# Structs with other fields as well

A struct of the template takes any struct that has its fields, and looks them up by the names they
go by. So neither the order of the fields of a candidate, nor which of them are declared together,
nor what other fields there are has anything to do with the result.

* `Field.Edit`, `Field.Widens`: one change to the fields of a struct, and any number of them.
* `Field.Edit.keeps`, `Field.Widens.keeps`: every name keeps its type.
* `Goal.ofFields_eq_of_keeps`: so the goals for the fields stay the same, if none of them fails.
* `Matcher.unify_of_widens`: a match with a struct is one with every wider struct.
-/

namespace GoStencil

/-! ## 1. Changes to the fields of a struct -/

namespace Field

/-- Each name that a field declares, or goes by, with its type. -/
def effectiveEntries (field : Field) : List (String × TypeExpr) :=
  (effectiveNames field.names field.type).map (·, field.type)

/-- Each name that some fields declare, or go by, with its type. -/
def allEntries (fields : List Field) : List (String × TypeExpr) :=
  fields.flatMap effectiveEntries

/-- How many entries some fields stand for. -/
def count : List Field → Nat
  | [] => 0
  | field :: rest => entryCount field.names + count rest

/-- Whether no two fields declare, or go by, one name, and none does so twice. -/
def Distinct (fields : List Field) : Prop :=
  ((allEntries fields).map Prod.fst).Nodup

instance (fields : List Field) : Decidable (Distinct fields) :=
  inferInstanceAs (Decidable (List.Nodup _))

/-- One change to the fields of a struct. -/
inductive Edit : List Field → List Field → Prop where
  | permute {before after : List Field} (h : before.Perm after) : Edit before after
  /-- Names that are declared together are declared apart. -/
  | split (names more : List String) (type : TypeExpr) (tag first second : Option String)
      (rest : List Field) (hnames : names ≠ []) (hmore : more ≠ []) :
      Edit (⟨names ++ more, type, tag⟩ :: rest)
        (⟨names, type, first⟩ :: ⟨more, type, second⟩ :: rest)
  /-- Names that are declared apart are declared together. -/
  | merge (names more : List String) (type : TypeExpr) (first second tag : Option String)
      (rest : List Field) (hnames : names ≠ []) (hmore : more ≠ []) :
      Edit (⟨names, type, first⟩ :: ⟨more, type, second⟩ :: rest)
        (⟨names ++ more, type, tag⟩ :: rest)
  /-- A field is added whose names are new. -/
  | add (field : Field) (fields : List Field)
      (hdistinct : (effectiveNames field.names field.type).Nodup)
      (hnew : ∀ name ∈ effectiveNames field.names field.type,
        name ∉ (allEntries fields).map Prod.fst) : Edit fields (field :: fields)

/-- Whether some fields become others by any number of changes. -/
inductive Widens : List Field → List Field → Prop where
  | refl (fields : List Field) : Widens fields fields
  | step {before between after : List Field} (h : Widens before between)
      (hedit : Edit between after) : Widens before after

/-- What changes to the fields of a struct keep: every name has its type. -/
structure Keeps (before after : List Field) : Prop where
  entries : ∀ entry ∈ allEntries before, entry ∈ allEntries after
  distinct : Distinct before → Distinct after
  count : count before ≤ count after

theorem effectiveNames_of_ne_nil {names : List String} (h : names ≠ []) (type : TypeExpr) :
    effectiveNames names type = names := by
  cases names with
  | nil => exact absurd rfl h
  | cons => rfl

theorem entryCount_of_ne_nil {names : List String} (h : names ≠ []) :
    entryCount names = names.length :=
  Nat.max_eq_left (List.length_pos_of_ne_nil h)

section Split

variable {names more : List String} {type : TypeExpr} {tag first second : Option String}
  {rest : List Field} (hnames : names ≠ []) (hmore : more ≠ [])

include hnames hmore

/-- Names have their types whether they are declared together or apart. -/
theorem allEntries_split :
    allEntries (⟨names, type, first⟩ :: ⟨more, type, second⟩ :: rest) =
      allEntries (⟨names ++ more, type, tag⟩ :: rest) := by
  have hboth : names ++ more ≠ [] := List.append_ne_nil_of_left_ne_nil hnames more
  simp only [allEntries, List.flatMap_cons, effectiveEntries, effectiveNames_of_ne_nil hnames,
    effectiveNames_of_ne_nil hmore, effectiveNames_of_ne_nil hboth, List.map_append,
    List.append_assoc]

theorem count_split :
    count (⟨names, type, first⟩ :: ⟨more, type, second⟩ :: rest) =
      count (⟨names ++ more, type, tag⟩ :: rest) := by
  have hboth : names ++ more ≠ [] := List.append_ne_nil_of_left_ne_nil hnames more
  simp only [count, entryCount_of_ne_nil hnames, entryCount_of_ne_nil hmore,
    entryCount_of_ne_nil hboth, List.length_append, Nat.add_assoc]

end Split

theorem count_eq_of_perm {before after : List Field} (h : before.Perm after) :
    count before = count after := by
  induction h with
  | nil => rfl
  | cons field _ ih => rw [count, count, ih]
  | swap =>
    simp only [count]
    omega
  | trans _ _ ih ih' => exact ih.trans ih'

/-- Fields with the same entries, and as many of them, keep everything. -/
theorem keeps_of_eq {before after : List Field} (hentries : allEntries after = allEntries before)
    (hcount : count after = count before) : Keeps before after where
  entries _ hmem := hentries ▸ hmem
  distinct h := by
    unfold Distinct
    rwa [hentries]
  count := Nat.le_of_eq hcount.symm

/-- **A change keeps the type of every name.** -/
theorem Edit.keeps {before after : List Field} (h : Edit before after) : Keeps before after := by
  cases h with
  | permute h =>
    have hentries : (allEntries before).Perm (allEntries after) := h.flatMap_right _
    exact ⟨fun _ hmem => hentries.mem_iff.mp hmem, (hentries.map Prod.fst).nodup_iff.mp,
      Nat.le_of_eq (count_eq_of_perm h)⟩
  | split _ _ _ _ _ _ _ hnames hmore =>
    exact keeps_of_eq (allEntries_split hnames hmore) (count_split hnames hmore)
  | merge _ _ _ _ _ _ _ hnames hmore =>
    exact keeps_of_eq (allEntries_split hnames hmore).symm (count_split hnames hmore).symm
  | add field _ hdistinct hnew =>
    refine ⟨fun _ hmem => List.mem_append_right _ hmem, fun hbefore => ?_, Nat.le_add_left ..⟩
    have hnames : field.effectiveEntries.map Prod.fst = effectiveNames field.names field.type := by
      simp [effectiveEntries, Function.comp_def]
    rw [Distinct, allEntries, List.flatMap_cons, List.map_append, hnames]
    refine List.nodup_append.mpr ⟨hdistinct, hbefore, fun name hname other hother => ?_⟩
    rintro rfl
    exact hnew name hname hother

/-- **Any number of changes keeps the type of every name.** -/
theorem Widens.keeps {before after : List Field} (h : Widens before after) :
    Keeps before after := by
  induction h with
  | refl => exact ⟨fun _ => id, id, Nat.le_refl _⟩
  | step _ hedit ih =>
    have hlast := hedit.keeps
    exact ⟨fun entry hmem => hlast.entries entry (ih.entries entry hmem),
      fun h => hlast.distinct (ih.distinct h), Nat.le_trans ih.count hlast.count⟩

end Field

/-! ## 2. Fields that are looked up -/

namespace FieldList

theorem effectiveEntries_eq (fields : FieldList) :
    fields.effectiveEntries = Field.allEntries fields.toList := by
  fun_induction toList fields with
  | case1 => rfl
  | case2 names type tag rest ih =>
    rw [effectiveEntries, ih]
    rfl

theorem numFields_eq (fields : FieldList) : fields.numFields = Field.count fields.toList := by
  fun_induction toList fields with
  | case1 => rfl
  | case2 names type tag rest ih =>
    rw [numFields, ih]
    rfl

/-- What is found under a name has it. -/
theorem mem_effectiveEntries_of_find? {name : String} {field : Field} : ∀ {fields : FieldList},
    fields.find? name = some field → (name, field.type) ∈ fields.effectiveEntries
  | .nil, h => by cases h
  | .cons names type tag rest, h => by
    unfold find? at h
    split at h
    · rename_i hname
      cases h
      exact List.mem_append_left _ (List.mem_map_of_mem (List.contains_iff_mem.mp hname))
    · exact List.mem_append_right _ (mem_effectiveEntries_of_find? h)

/-- Something is found under each name. -/
theorem exists_find?_of_mem {name : String} {type : TypeExpr} : ∀ {fields : FieldList},
    (name, type) ∈ fields.effectiveEntries → ∃ field, fields.find? name = some field
  | .nil, h => by cases h
  | .cons names first tag rest, h => by
    unfold find?
    split
    · exact ⟨_, rfl⟩
    · rename_i hname
      rcases List.mem_append.mp h with h | h
      · obtain ⟨other, hother, e⟩ := List.mem_map.mp h
        cases e
        exact absurd (List.contains_iff_mem.mpr hother) hname
      · exact exists_find?_of_mem h

/-- What is found under a name has the type of the name, if no two fields go by one name. -/
theorem exists_find?_of_distinct {fields : FieldList} {name : String} {type : TypeExpr}
    (hdistinct : Field.Distinct fields.toList) (h : (name, type) ∈ fields.effectiveEntries) :
    ∃ field, fields.find? name = some field ∧ field.type = type := by
  obtain ⟨field, hfind⟩ := exists_find?_of_mem h
  have hfound := mem_effectiveEntries_of_find? hfind
  rw [effectiveEntries_eq] at h hfound
  have hentries := List.inj_on_of_nodup_map hdistinct hfound h rfl
  exact ⟨field, hfind, congrArg Prod.snd hentries⟩

end FieldList

/-! ## 3. Goals and matches -/

namespace Goal

variable {found other : FieldList}

/-- A field that is found is found with its type after changes as well. -/
theorem ofField_eq_of_keeps (hkeeps : Field.Keeps found.toList other.toList)
    (hdistinct : Field.Distinct found.toList) {entry : String × TypeExpr}
    (h : ∀ cause, ofField found entry ≠ fail cause) :
    ofField other entry = ofField found entry := by
  unfold ofField at h ⊢
  cases hfound : found.find? entry.1 with
  | none =>
    rw [hfound] at h
    exact absurd rfl (h _)
  | some field =>
    have hbefore := FieldList.mem_effectiveEntries_of_find? hfound
    rw [FieldList.effectiveEntries_eq] at hbefore
    have hafter := hkeeps.entries _ hbefore
    rw [← FieldList.effectiveEntries_eq] at hafter
    -- no other type goes by the name
    obtain ⟨same, hother, htype⟩ :=
      FieldList.exists_find?_of_distinct (hkeeps.distinct hdistinct) hafter
    rw [hother]
    exact congrArg (pair entry.2) htype

/-- **The goals for the fields of a struct stay the same** when every name keeps its type, if none
    of them fails. -/
theorem ofFields_eq_of_keeps (hkeeps : Field.Keeps found.toList other.toList)
    (hdistinct : Field.Distinct found.toList) {template : FieldList}
    (h : NoneFails (ofFields template found)) :
    ofFields template other = ofFields template found := by
  unfold ofFields at h ⊢
  have hcount := hkeeps.count
  rw [← FieldList.numFields_eq, ← FieldList.numFields_eq] at hcount
  by_cases hfew : found.numFields < template.numFields
  · rw [if_pos hfew] at h
    exact absurd List.mem_cons_self (h _)
  · rw [if_neg hfew] at h ⊢
    rw [if_neg (by omega)]
    refine List.map_congr_left fun entry hmem => ofField_eq_of_keeps hkeeps hdistinct ?_
    exact fun cause e => h cause (e ▸ List.mem_map_of_mem hmem)

end Goal

namespace Matcher

variable {matcher : Matcher} {subst grown : Substitution}

/-- Structs are matched by their fields. -/
theorem unify_struct (matcher : Matcher) (fields found : FieldList) (subst : Substitution) :
    matcher.unify (.struct fields) (.struct found) subst =
      matcher.unifyAll (Goal.ofFields fields found) subst := by
  have hresolve : matcher.resolve (.struct found) = .struct found := by
    refine resolve_of_unparen_ne_name fun ident h => ?_
    cases h
  rw [unify_eq_step]
  show matcher.unifyAll (Goal.ofParts (.struct fields) (matcher.resolve (.struct found))) subst = _
  rw [hresolve, Goal.ofParts]

/-- **A match with a struct is a match with every wider struct.** Its fields may stand in another
    order, their names may be declared together or apart, and there may be other fields as well; the
    same types are bound, in the same order. -/
theorem unify_of_widens {fields found other : FieldList} (hdistinct : Field.Distinct found.toList)
    (hwidens : Field.Widens found.toList other.toList)
    (h : matcher.unify (.struct fields) (.struct found) subst = .ok grown) :
    matcher.unify (.struct fields) (.struct other) subst = .ok grown := by
  rw [unify_struct] at h ⊢
  have run : matcher.Runs (Goal.ofFields fields found) subst (.ok grown) :=
    h ▸ matcher.runs_unifyAll _ subst
  rw [Goal.ofFields_eq_of_keeps hwidens.keeps hdistinct run.noneFails]
  exact h

/-- `struct { first, last Item; *Log }`, two items with a log. -/
def loggedItems : FieldList :=
  .cons ["first", "last"] (.name "Item") none (.cons [] (.pointer (.name "Log")) none .nil)

/-- `struct { first, last int; *Log }` -/
def loggedNumbers : FieldList :=
  .cons ["first", "last"] (.name "int") none (.cons [] (.pointer (.name "Log")) none .nil)

/-- `struct { *Log; last int; label string; first int }` -/
def labelledNumbers : FieldList :=
  .cons [] (.pointer (.name "Log")) none (.cons ["last"] (.name "int") none
    (.cons ["label"] (.name "string") none (.cons ["first"] (.name "int") none .nil)))

/-- The numbers are a match in any order, and with a label. -/
theorem unify_of_widens_labelledNumbers :
    ∃ (matcher : Matcher) (last : Substitution),
      last.entries = [(.name "Item", .name "int")] ∧
      matcher.unify (.struct loggedItems) (.struct loggedNumbers) .empty = .ok last ∧
      Field.Widens loggedNumbers.toList labelledNumbers.toList ∧
      matcher.unify (.struct loggedItems) (.struct labelledNumbers) .empty = .ok last := by
  have hunify : (⟨⟨"log", [], [⟨"Item", false, .emptyInterface, ⟨0, 0⟩⟩]⟩, none⟩ : Matcher).unify
      (.struct loggedItems) (.struct loggedNumbers) .empty =
        .ok ⟨[(.name "Item", .name "int")], by decide⟩ := rfl
  have hwidens : Field.Widens loggedNumbers.toList labelledNumbers.toList :=
    .step (.step (.step (.refl _)
      (.split ["first"] ["last"] (.name "int") none none none _ (by decide) (by decide)))
      (.add ⟨["label"], .name "string", none⟩ _ (by decide) (by decide)))
      (.permute (by decide))
  exact ⟨_, _, rfl, hunify, hwidens, unify_of_widens (by decide) hwidens hunify⟩

end Matcher

end GoStencil
