import GoStencil.Proofs.Extension
import Mathlib.Logic.Relation

/-!
# The measure with and without its guard

A type is measured by following its names, and a name that is being measured already counts one, so
that recursive types have a measure too. Without recursion no name meets itself, and the measure is
what it would be without this guard: the only function that follows every declared name. With
recursion the guard lowers the measure, the more names it covers.

* `Scope.complexityWithin_le`: a longer path makes no measure greater.
* `Scope.Mentions`, `Scope.Nonrecursive`: the scopes in which no declaration leads back to itself.
* `Scope.complexityWithin_eq_of_unreached`: a path that is not met does not count.
* `Scope.Measures`: the recursion without the guard, clause by clause.
* `Scope.nonrecursive_iff_exists_measures`: with recursion no function meets these clauses.
* `Scope.complexity_guard`: without it the measure is what meets these clauses.
-/

namespace GoStencil

/-! ## 1. Weights and measures -/

theorem TypeExpr.one_le_weigh {weight : String → Nat} (h : ∀ ident, 1 ≤ weight ident) :
    ∀ type : TypeExpr, 1 ≤ type.weigh weight
  | .name ident => h ident
  | .qualified package _ => h package
  | .pointer elem | .paren elem | .variadic elem => one_le_weigh h elem
  | .array .. | .channel .. | .map .. | .function .. | .struct _ => Nat.le_add_left 1 _
  | .interface _ => Nat.le_refl 1

mutual

/-- Whatever counts in a type weighs no more than the type. -/
theorem TypeExpr.le_weigh_of_mem (weight : String → Nat) {ident : String} : ∀ type : TypeExpr,
    ident ∈ type.weighed → weight ident ≤ type.weigh weight
  | .name _, h | .qualified .., h => Nat.le_of_eq (congrArg weight (List.mem_singleton.mp h))
  | .pointer elem, h | .paren elem, h | .variadic elem, h => TypeExpr.le_weigh_of_mem weight elem h
  | .array _ elem, h | .channel _ elem, h =>
    Nat.le_succ_of_le (TypeExpr.le_weigh_of_mem weight elem h)
  | .map key value, h => by
    refine Nat.le_succ_of_le ?_
    rcases List.mem_append.mp h with h | h
    · exact le_max_of_le_left (TypeExpr.le_weigh_of_mem weight key h)
    · exact le_max_of_le_right (TypeExpr.le_weigh_of_mem weight value h)
  | .function params results, h => by
    refine Nat.le_succ_of_le ?_
    rcases List.mem_append.mp h with h | h
    · exact le_max_of_le_left (FieldList.le_weighTypes_of_mem weight params h)
    · exact le_max_of_le_right (FieldList.le_weighTypes_of_mem weight results h)
  | .struct fields, h => Nat.le_succ_of_le (FieldList.le_weighTypes_of_mem weight fields h)

theorem FieldList.le_weighTypes_of_mem (weight : String → Nat) {ident : String} :
    ∀ fields : FieldList, ident ∈ fields.weighed → weight ident ≤ fields.weighTypes weight
  | .cons _ type _ rest, h => by
    rcases List.mem_append.mp h with h | h
    · exact le_max_of_le_left (TypeExpr.le_weigh_of_mem weight type h)
    · exact le_max_of_le_right (FieldList.le_weighTypes_of_mem weight rest h)

end

namespace Scope

variable {scope : Scope} {path wider : List String} {ident : String} {decl : TypeDecl}

/-! ## 2. The guard -/

/-- One step of measuring a name. The number of declarations is always bound enough. -/
theorem complexityWithin_name (scope : Scope) (path : List String) (ident : String) :
    scope.complexityWithin path (.name ident) =
      if path.contains ident then 1
      else
        match scope.lookup ident with
        | some decl => scope.complexityWithin (ident :: path) decl.type + 1
        | none => 1 := by
  have hbound := scope.unseen_le_length path
  rw [complexityWithin, TypeExpr.weigh, nameWeight_congr _ hbound (Nat.le_succ_of_le hbound),
    nameWeight]
  rfl

theorem complexityWithin_of_mem (h : ident ∈ path) :
    scope.complexityWithin path (.name ident) = 1 := by
  rw [complexityWithin_name, if_pos (List.contains_iff_mem.mpr h)]

theorem complexityWithin_of_undeclared (h : scope.lookup ident = none) :
    scope.complexityWithin path (.name ident) = 1 := by
  rw [complexityWithin_name, h, ite_self]

theorem complexityWithin_of_declared (hnew : ident ∉ path) (h : scope.lookup ident = some decl) :
    scope.complexityWithin path (.name ident) =
      scope.complexityWithin (ident :: path) decl.type + 1 := by
  rw [complexityWithin_name, if_neg fun hmem => hnew (List.contains_iff_mem.mp hmem), h]

theorem one_le_complexityWithin (scope : Scope) (path : List String) (type : TypeExpr) :
    1 ≤ scope.complexityWithin path type := by
  refine TypeExpr.one_le_weigh (fun ident => ?_) type
  show 1 ≤ scope.complexityWithin path (.name ident)
  rw [complexityWithin_name]
  split
  · exact Nat.le_refl 1
  · split
    · exact Nat.le_add_left 1 _
    · exact Nat.le_refl 1

/-- **The guard measures no type higher for covering more names.** The induction is on the names
    that it does not cover yet. -/
theorem complexityWithin_le (hsub : path ⊆ wider) (type : TypeExpr) :
    scope.complexityWithin wider type ≤ scope.complexityWithin path type := by
  induction hn : scope.unseen wider using Nat.strongRecOn generalizing path wider type with
  | ind n ih =>
    subst hn
    refine type.weigh_le_weigh fun ident _ => ?_
    show scope.complexityWithin wider (.name ident) ≤ scope.complexityWithin path (.name ident)
    by_cases hseen : ident ∈ wider
    · rw [complexityWithin_of_mem hseen]
      exact one_le_complexityWithin ..
    · cases hdecl : scope.lookup ident with
      | none => rw [complexityWithin_of_undeclared hdecl, complexityWithin_of_undeclared hdecl]
      | some decl =>
        rw [complexityWithin_of_declared hseen hdecl,
          complexityWithin_of_declared (fun hmem => hseen (hsub hmem)) hdecl]
        have hless := unseen_lt_of_lookup hdecl (by simpa using hseen)
        exact Nat.succ_le_succ (ih _ hless (List.cons_subset_cons _ hsub) _ rfl)

/-! ## 3. Scopes without recursion -/

/-- Whether the declaration of a name mentions another one, outside interfaces. -/
def Mentions (scope : Scope) (ident other : String) : Prop :=
  ∃ decl, scope.lookup ident = some decl ∧ other ∈ decl.type.weighed

/-- Whether no declaration leads back to its own name. -/
def Nonrecursive (scope : Scope) : Prop :=
  ∀ ident, ¬ Relation.TransGen scope.Mentions ident ident

/-- If declarations mention only names of a lower rank than their own, there is no recursion. -/
theorem Nonrecursive.of_rank (rank : String → Nat)
    (h : ∀ ident other, scope.Mentions ident other → rank other < rank ident) :
    scope.Nonrecursive := by
  have hreach : ∀ {ident other}, Relation.TransGen scope.Mentions ident other →
      rank other < rank ident := by
    intro ident other hreach
    induction hreach with
    | single hfirst => exact h _ _ hfirst
    | tail _ hlast ih => exact Nat.lt_trans (h _ _ hlast) ih
  exact fun ident hcycle => Nat.lt_irrefl _ (hreach hcycle)

/-- **Names of the path that a type does not lead to do not count.** -/
theorem complexityWithin_eq_of_unreached (hsub : path ⊆ wider) (type : TypeExpr)
    (h : ∀ first ∈ type.weighed, ∀ other ∈ wider,
      Relation.ReflTransGen scope.Mentions first other → other ∈ path) :
    scope.complexityWithin wider type = scope.complexityWithin path type := by
  induction hn : scope.unseen wider using Nat.strongRecOn generalizing path wider type with
  | ind n ih =>
    subst hn
    refine type.weigh_congr fun ident hident => ?_
    show scope.complexityWithin wider (.name ident) = scope.complexityWithin path (.name ident)
    by_cases hseen : ident ∈ wider
    · have hpath := h ident hident ident hseen .refl
      rw [complexityWithin_of_mem hseen, complexityWithin_of_mem hpath]
    · cases hdecl : scope.lookup ident with
      | none => rw [complexityWithin_of_undeclared hdecl, complexityWithin_of_undeclared hdecl]
      | some decl =>
        rw [complexityWithin_of_declared hseen hdecl,
          complexityWithin_of_declared (fun hmem => hseen (hsub hmem)) hdecl]
        have hless := unseen_lt_of_lookup hdecl (by simpa using hseen)
        refine congrArg (· + 1) (ih _ hless (List.cons_subset_cons _ hsub) _ ?_ rfl)
        intro first hfirst other hother hreach
        rcases List.mem_cons.mp hother with rfl | hother
        · exact List.mem_cons_self
        · exact List.mem_cons_of_mem _
            (h ident hident other hother (.head ⟨decl, hdecl, hfirst⟩ hreach))

/-- **A declaration that is not recursive is measured as if its name were not on the path.** -/
theorem Nonrecursive.complexityWithin_eq (h : scope.Nonrecursive)
    (hdecl : scope.lookup ident = some decl) :
    scope.complexityWithin [ident] decl.type = scope.complexity decl.type := by
  refine complexityWithin_eq_of_unreached (List.nil_subset _) _ ?_
  intro first hfirst other hother hreach
  cases List.mem_singleton.mp hother
  exact absurd (.head' ⟨decl, hdecl, hfirst⟩ hreach) (h ident)

end Scope

/-! ## 4. The recursion without the guard -/

/-- The greatest measure of a type in the list, none for an empty one. -/
def FieldList.greatest (measure : TypeExpr → Nat) (fields : FieldList) : Nat :=
  (fields.types.map measure).foldr max 0

theorem FieldList.weighTypes_eq_greatest (weight : String → Nat) (fields : FieldList) :
    fields.weighTypes weight = fields.greatest (TypeExpr.weigh weight) := by
  fun_induction FieldList.types fields with
  | case1 => rfl
  | case2 _ type _ rest ih =>
    rw [weighTypes, ih]
    rfl

namespace Scope

/-- Whether a function measures types by following every declared name. -/
structure Measures (scope : Scope) (measure : TypeExpr → Nat) : Prop where
  declared : ∀ ident decl, scope.lookup ident = some decl →
    measure (.name ident) = measure decl.type + 1
  undeclared : ∀ ident, scope.lookup ident = none → measure (.name ident) = 1
  qualified : ∀ package ident, measure (.qualified package ident) = measure (.name package)
  pointer : ∀ elem, measure (.pointer elem) = measure elem
  paren : ∀ inner, measure (.paren inner) = measure inner
  «variadic» : ∀ elem, measure (.variadic elem) = measure elem
  array : ∀ length elem, measure (.array length elem) = measure elem + 1
  channel : ∀ direction value, measure (.channel direction value) = measure value + 1
  map : ∀ key value, measure (.map key value) = max (measure key) (measure value) + 1
  function : ∀ params results, measure (.function params results) =
    max (params.greatest measure) (results.greatest measure) + 1
  struct : ∀ fields, measure (.struct fields) = fields.greatest measure + 1
  interface : ∀ members, measure (.interface members) = 1

variable {scope : Scope} {measure other : TypeExpr → Nat}

mutual

/-- The measure of a type is given by those of its names. -/
theorem Measures.eq_weigh (h : scope.Measures measure) : ∀ type : TypeExpr,
    measure type = type.weigh fun ident => measure (.name ident)
  | .name _ => rfl
  | .qualified package ident => h.qualified package ident
  | .pointer elem => (h.pointer elem).trans (h.eq_weigh elem)
  | .paren inner => (h.paren inner).trans (h.eq_weigh inner)
  | .variadic elem => (h.variadic elem).trans (h.eq_weigh elem)
  | .array length elem => by
    rw [h.array, h.eq_weigh elem, TypeExpr.weigh]
  | .channel direction value => by
    rw [h.channel, h.eq_weigh value, TypeExpr.weigh]
  | .map key value => by
    rw [h.map, h.eq_weigh key, h.eq_weigh value, TypeExpr.weigh]
  | .function params results => by
    rw [h.function, h.greatest_eq_weighTypes params, h.greatest_eq_weighTypes results,
      TypeExpr.weigh]
  | .struct fields => by
    rw [h.struct, h.greatest_eq_weighTypes fields, TypeExpr.weigh]
  | .interface members => h.interface members

theorem Measures.greatest_eq_weighTypes (h : scope.Measures measure) : ∀ fields : FieldList,
    fields.greatest measure = fields.weighTypes fun ident => measure (.name ident)
  | .nil => rfl
  | .cons _ type _ rest =>
    congrArg₂ max (h.eq_weigh type) (h.greatest_eq_weighTypes rest)

end

/-- A declared name measures more than those its declaration mentions. -/
theorem Measures.lt_of_mentions (h : scope.Measures measure) {ident found : String}
    (hmentions : scope.Mentions ident found) :
    measure (.name found) < measure (.name ident) := by
  obtain ⟨decl, hdecl, hfound⟩ := hmentions
  have hle : measure (.name found) ≤ measure decl.type := by
    rw [h.eq_weigh decl.type]
    exact TypeExpr.le_weigh_of_mem (fun ident => measure (.name ident)) decl.type hfound
  rw [h.declared ident decl hdecl]
  omega

/-- **There is one such function at most.** The induction is on the measure of a name. -/
theorem Measures.unique (h : scope.Measures measure) (hother : scope.Measures other) :
    other = measure := by
  have hname : ∀ ident, other (.name ident) = measure (.name ident) := by
    intro ident
    induction hn : measure (.name ident) using Nat.strongRecOn generalizing ident with
    | ind n ih =>
      subst hn
      cases hdecl : scope.lookup ident with
      | none => rw [h.undeclared ident hdecl, hother.undeclared ident hdecl]
      | some decl =>
        rw [h.declared ident decl hdecl, hother.declared ident decl hdecl, h.eq_weigh decl.type,
          hother.eq_weigh decl.type]
        refine congrArg (· + 1) (decl.type.weigh_congr fun found hfound => ?_)
        exact ih _ (h.lt_of_mentions ⟨decl, hdecl, hfound⟩) found rfl
  funext type
  rw [h.eq_weigh type, hother.eq_weigh type]
  exact type.weigh_congr fun ident _ => hname ident

/-- **Without recursion the guard changes nothing.** -/
theorem Nonrecursive.measures_complexity (h : scope.Nonrecursive) :
    scope.Measures scope.complexity where
  declared ident decl hdecl := by
    rw [complexity, complexityWithin_of_declared List.not_mem_nil hdecl,
      h.complexityWithin_eq hdecl]
  undeclared _ hnone := complexityWithin_of_undeclared hnone
  qualified _ _ := rfl
  pointer _ := rfl
  paren _ := rfl
  «variadic» _ := rfl
  array _ _ := rfl
  channel _ _ := rfl
  map _ _ := rfl
  function params results :=
    congrArg (· + 1)
      (congrArg₂ max (params.weighTypes_eq_greatest _) (results.weighTypes_eq_greatest _))
  struct fields := congrArg (· + 1) (fields.weighTypes_eq_greatest _)
  interface _ := rfl

/-- Without the guard there is a measure in scopes without recursion only. -/
theorem nonrecursive_iff_exists_measures :
    scope.Nonrecursive ↔ ∃ measure, scope.Measures measure where
  mp h := ⟨scope.complexity, h.measures_complexity⟩
  mpr := by
    rintro ⟨measure, h⟩
    exact .of_rank (fun ident => measure (.name ident)) fun _ _ => h.lt_of_mentions

/-- **The measure of a type, with and without the guard.** In a scope without recursion the measure
    is the one and only function that follows every declared name. In every scope a path that covers
    more names makes no measure greater, and none less than one. -/
theorem complexity_guard (scope : Scope) :
    (scope.Nonrecursive → ∀ measure, scope.Measures measure ↔ measure = scope.complexity) ∧
    ∀ path wider : List String, path ⊆ wider → ∀ type,
      1 ≤ scope.complexityWithin wider type ∧
        scope.complexityWithin wider type ≤ scope.complexityWithin path type := by
  refine ⟨fun hscope measure => ⟨fun h => ?_, ?_⟩, fun path wider hsub type => ?_⟩
  · exact hscope.measures_complexity.unique h
  · rintro rfl
    exact hscope.measures_complexity
  · exact ⟨one_le_complexityWithin .., complexityWithin_le hsub type⟩

/-- `type Table map[string]Row`, `type Row []Cell`, `type Cell *Value` and
    `type Value interface { Owner() Table }` -/
def tableScope : Scope :=
  ⟨"table", [], [⟨"Table", false, .map (.name "string") (.name "Row"), ⟨0, 0⟩⟩,
    ⟨"Row", false, .array none (.name "Cell"), ⟨0, 0⟩⟩,
    ⟨"Cell", false, .pointer (.name "Value"), ⟨0, 0⟩⟩,
    ⟨"Value", false, .interface (.cons ["Owner"]
      (.function .nil (.cons [] (.name "Table") none .nil)) none .nil), ⟨0, 0⟩⟩]⟩

/-- The interface leads back to the table, but is not entered, so there is no recursion. -/
theorem complexity_guard_tableScope :
    tableScope.Nonrecursive ∧
    (∀ measure, tableScope.Measures measure → measure (.name "Table") = 7) ∧
    tableScope.complexityWithin ["Cell", "Row"] (.name "Table") ≤
      tableScope.complexityWithin ["Cell"] (.name "Table") ∧
    tableScope.complexityWithin ["Cell"] (.name "Table") = 5 := by
  have hrank : ∀ decl ∈ tableScope.types, ∀ other ∈ decl.type.weighed,
      ["string", "Value", "Cell", "Row", "Table"].idxOf other <
        ["string", "Value", "Cell", "Row", "Table"].idxOf decl.name := by
    decide
  have hscope : tableScope.Nonrecursive := by
    refine .of_rank (["string", "Value", "Cell", "Row", "Table"].idxOf ·) ?_
    rintro ident other ⟨decl, hdecl, hother⟩
    exact name_of_lookup hdecl ▸ hrank decl (mem_of_lookup hdecl) other hother
  refine ⟨hscope, fun measure h => ?_, ?_, rfl⟩
  · rw [((complexity_guard tableScope).1 hscope measure).mp h]
    rfl
  · exact ((complexity_guard tableScope).2 ["Cell"] ["Cell", "Row"] (by decide) _).2

end Scope

end GoStencil
