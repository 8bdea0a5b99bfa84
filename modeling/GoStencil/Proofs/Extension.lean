import GoStencil.Proofs.Mentions
import GoStencil.Proofs.Scopes
import GoStencil.Proofs.Specialization.Order

/-!
# One more type in a scope

A type that is added to a scope under a new name changes nothing about the types that do not
mention that name. They are looked through to the same types, and are measured and ordered alike.

* `Scope.unseen`: how many names can still be followed. It carries the inductions on the number of
  steps, since more steps than that make no difference.
* `Scope.declComplexity_eq_of_lookup_eq`: scopes that look names up alike measure alike.
* `Scope.Adds`: whether a scope declares what another one does and one more type, which is not
  mentioned there.
* `Scope.Adds.resolve_eq`, `Scope.Adds.declComplexity_eq`: looking through types, and their measure.
* `Scope.Adds.filter_mostStructuredFirst`: the order.
* `SourceFile.adds_scope`: a file with one more type has such a scope.
-/

namespace GoStencil

/-! ## 1. Enough steps -/

namespace Scope

variable {scope wider : Scope} {name : String}

/-- How many declarations have names that were not followed yet. -/
def unseen (scope : Scope) (seen : List String) : Nat :=
  scope.types.countP fun decl => !seen.contains decl.name

theorem unseen_le_length (scope : Scope) (seen : List String) :
    scope.unseen seen ≤ scope.types.length :=
  List.countP_le_length

theorem countP_unseen_cons_le (ident : String) (seen : List String) (decls : List TypeDecl) :
    (decls.countP fun decl => !(ident :: seen).contains decl.name) ≤
      decls.countP fun decl => !seen.contains decl.name := by
  refine List.countP_mono_left fun decl _ h => ?_
  simp only [Bool.not_eq_true', List.contains_eq_mem, decide_eq_false_iff_not] at h ⊢
  exact fun hmem => h (List.mem_cons_of_mem _ hmem)

/-- Following a name that is declared leaves fewer to follow. -/
theorem unseen_lt_of_lookup {ident : String} {decl : TypeDecl} {seen : List String}
    (hdecl : scope.lookup ident = some decl) (hnew : seen.contains ident = false) :
    scope.unseen (ident :: seen) < scope.unseen seen := by
  obtain ⟨before, after, hsplit⟩ := List.append_of_mem (mem_of_lookup hdecl)
  have hb := countP_unseen_cons_le ident seen before
  have ha := countP_unseen_cons_le ident seen after
  have hself : (ident :: seen).contains ident = true := by simp
  rw [unseen, unseen, hsplit, List.countP_append, List.countP_append, List.countP_cons,
    List.countP_cons, name_of_lookup hdecl, hnew, hself]
  simp only [Bool.not_true, Bool.false_eq_true, if_false, Bool.not_false, if_true]
  omega

/-- When all names were followed, no name is. -/
theorem resolveFrom_of_unseen (steps : Nat) {seen : List String} {type : TypeExpr}
    (h : scope.unseen seen = 0) : scope.resolveFrom steps seen type = type.unparen := by
  refine resolveFrom_eq_unparen steps fun ident decl _ hdecl => ?_
  by_contra hnew
  have := unseen_lt_of_lookup hdecl (by simpa using hnew)
  omega

/-- Two numbers of steps that are both enough to follow every name look through a type alike. -/
theorem resolveFrom_congr (steps : Nat) : ∀ {other : Nat} {seen : List String} {type : TypeExpr},
    scope.unseen seen ≤ steps → scope.unseen seen ≤ other →
      scope.resolveFrom steps seen type = scope.resolveFrom other seen type := by
  induction steps with
  | zero =>
    intro other seen type hsteps _
    have hnone : scope.unseen seen = 0 := by omega
    rw [resolveFrom_of_unseen _ hnone, resolveFrom_of_unseen _ hnone]
  | succ steps ih =>
    intro other seen type hsteps hother
    cases other with
    | zero =>
      have hnone : scope.unseen seen = 0 := by omega
      rw [resolveFrom_of_unseen _ hnone, resolveFrom_of_unseen _ hnone]
    | succ other =>
      unfold resolveFrom
      split
      · split
        · rfl
        · rename_i hnew
          split
          · rename_i decl hdecl
            have hlt := unseen_lt_of_lookup hdecl (by simpa using hnew)
            exact ih (by omega) (by omega)
          · rfl
      · rfl

/-- When all names are being measured, each weighs one. -/
theorem nameWeight_of_unseen (depth : Nat) {path : List String} {ident : String}
    (h : scope.unseen path = 0) : scope.nameWeight depth path ident = 1 := by
  cases depth with
  | zero => rfl
  | succ depth =>
    unfold nameWeight
    split
    · rfl
    · rename_i hnew
      split
      · rename_i decl hdecl
        have := unseen_lt_of_lookup hdecl (by simpa using hnew)
        omega
      · rfl

/-- Two bounds that are both enough for every name weigh a name alike. -/
theorem nameWeight_congr (depth : Nat) : ∀ {other : Nat} {path : List String} {ident : String},
    scope.unseen path ≤ depth → scope.unseen path ≤ other →
      scope.nameWeight depth path ident = scope.nameWeight other path ident := by
  induction depth with
  | zero =>
    intro other path ident hdepth _
    have hnone : scope.unseen path = 0 := by omega
    rw [nameWeight_of_unseen _ hnone, nameWeight_of_unseen _ hnone]
  | succ depth ih =>
    intro other path ident hdepth hother
    cases other with
    | zero =>
      have hnone : scope.unseen path = 0 := by omega
      rw [nameWeight_of_unseen _ hnone, nameWeight_of_unseen _ hnone]
    | succ other =>
      unfold nameWeight
      split
      · rfl
      · rename_i hnew
        split
        · rename_i decl hdecl
          have hlt := unseen_lt_of_lookup hdecl (by simpa using hnew)
          refine congrArg (· + 1) (decl.type.weigh_congr fun ident _ => ?_)
          exact ih (by omega) (by omega)
        · rfl

/-! ## 2. Scopes that look names up alike -/

section LookupEq

variable {P : String → Prop} (hlookup : ∀ ident, P ident → wider.lookup ident = scope.lookup ident)
  (hclosed : ∀ ident decl, scope.lookup ident = some decl → ∀ other ∈ decl.type.weighed, P other)

include hlookup hclosed

theorem nameWeight_eq_of_lookup_eq (depth : Nat) : ∀ {path : List String} {ident : String},
    P ident → wider.nameWeight depth path ident = scope.nameWeight depth path ident := by
  induction depth with
  | zero => exact fun _ => rfl
  | succ depth ih =>
    intro path ident hident
    unfold nameWeight
    rw [hlookup ident hident]
    split
    · rfl
    · split
      · rename_i decl hdecl
        refine congrArg (· + 1) (decl.type.weigh_congr fun other hmem => ?_)
        exact ih (hclosed ident decl hdecl other hmem)
      · rfl

/-- **A declaration is measured alike in two scopes** that look up alike all names that it leads to,
    if the bound is enough in the smaller one. -/
theorem declComplexity_eq_of_lookup_eq (hlength : scope.types.length ≤ wider.types.length)
    {decl : TypeDecl} (h : ∀ ident ∈ decl.type.weighed, P ident) :
    wider.declComplexity decl = scope.declComplexity decl := by
  have hunseen := scope.unseen_le_length [decl.name]
  refine decl.type.weigh_congr fun ident hmem => ?_
  rw [nameWeight_eq_of_lookup_eq hlookup hclosed _ (h ident hmem)]
  exact nameWeight_congr _ (by omega) (by omega)

end LookupEq

/-! ## 3. Scopes with one more type -/

/-- Whether a scope is another one with one more type, whose name the other one does not
    mention. -/
structure Adds (wider scope : Scope) (name : String) : Prop where
  package : wider.package = scope.package
  imports : wider.imports = scope.imports
  types : wider.types.filter (fun decl => decl.name ≠ name) = scope.types
  avoids : ∀ decl ∈ scope.types, decl.type.Avoids name

namespace Adds

variable (h : wider.Adds scope name)

include h

theorem lookup_eq {ident : String} (hne : ident ≠ name) :
    wider.lookup ident = scope.lookup ident := by
  rw [lookup, lookup, ← h.types, List.find?_filter]
  refine congrArg (List.find? · _) (funext fun decl => ?_)
  by_cases e : decl.name = ident
  · simp [e, hne]
  · simp [e]

theorem resolveFrom_eq (steps : Nat) : ∀ {seen : List String} {type : TypeExpr},
    type.Avoids name → wider.resolveFrom steps seen type = scope.resolveFrom steps seen type := by
  induction steps with
  | zero => exact fun _ => rfl
  | succ steps ih =>
    intro seen type htype
    unfold resolveFrom
    split
    · rename_i ident hname
      have hident : (TypeExpr.name ident).Avoids name :=
        hname ▸ (TypeExpr.hereditary_avoids name).unparen htype
      rw [h.lookup_eq hident.ne]
      split
      · rfl
      · split
        · rename_i decl hdecl
          exact ih (h.avoids decl (mem_of_lookup hdecl))
        · rfl
    · rfl

theorem length_le : scope.types.length ≤ wider.types.length := by
  rw [← h.types]
  exact List.length_filter_le ..

/-- **A type that does not mention the new name is looked through to the same type.** -/
theorem resolve_eq {type : TypeExpr} (htype : type.Avoids name) :
    wider.resolve type = scope.resolve type := by
  have hlength := h.length_le
  have hunseen := scope.unseen_le_length []
  rw [resolve, resolve, h.resolveFrom_eq _ htype]
  exact resolveFrom_congr _ (by omega) (by omega)

/-- **A declaration that does not mention the new name is measured alike.** -/
theorem declComplexity_eq {decl : TypeDecl} (htype : decl.type.Avoids name) :
    wider.declComplexity decl = scope.declComplexity decl :=
  declComplexity_eq_of_lookup_eq (fun _ => h.lookup_eq)
    (fun _ _ hdecl => (h.avoids _ (mem_of_lookup hdecl)).ne_of_mem_weighed) h.length_le
    htype.ne_of_mem_weighed

end Adds

end Scope

/-! ## 4. Order -/

namespace Scope

variable {scope wider : Scope} {name : String}

/-- **The types of a scope have the same order in a scope with one more type.** -/
theorem Adds.filter_mostStructuredFirst (h : wider.Adds scope name) :
    (wider.mostStructuredFirst wider.types).filter (fun decl => decl.name ≠ name) =
      scope.mostStructuredFirst scope.types := by
  rw [← mostStructuredFirst_congr fun decl hmem => h.declComplexity_eq (h.avoids decl hmem),
    mostStructuredFirst, mostStructuredFirst, List.filter_map, filter_sortByWeight,
    List.filter_map, ← h.types]
  rfl

end Scope

/-! ## 5. Files with one more type -/

/-- A file with one more type declaration. -/
def SourceFile.insertType (file : SourceFile) (before after : List Decl) (added : TypeDecl) :
    SourceFile :=
  { file with decls := before ++ .type added :: after }

theorem SourceFile.adds_scope {file : SourceFile} {before after : List Decl} {added : TypeDecl}
    (hdecls : file.decls = before ++ after)
    (hname : ∀ decl ∈ file.typeDecls, decl.name ≠ added.name)
    (havoids : ∀ decl ∈ file.typeDecls, decl.type.Avoids added.name) :
    (file.insertType before after added).scope.Adds file.scope added.name where
  package := rfl
  imports := rfl
  types := by
    have hkept : file.typeDecls.filter (fun decl => decl.name ≠ added.name) = file.typeDecls :=
      List.filter_eq_self.mpr fun decl hmem => by simpa using hname decl hmem
    show (firstByName _).filter _ = firstByName file.typeDecls
    rw [filter_firstByName, ← hkept, typeDecls, typeDecls, hdecls, insertType,
      List.filterMap_append, List.filterMap_append, List.filterMap_cons, List.filter_append,
      List.filter_append, List.filter_cons_of_neg (by simp)]
  avoids decl hmem := havoids decl (mem_of_mem_firstByName hmem)

end GoStencil
