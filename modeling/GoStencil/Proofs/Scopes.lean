import GoStencil.Scope

/-!
# Lookups in a scope

* `mem_of_lookup`, `name_of_lookup`: what a lookup finds is declared under the name.
* `Scope.resolveFrom_eq_unparen`: where looking through a type ends at once.
* `mem_of_mem_firstByName`, `exists_mem_firstByName`: the first declarations of all names.
* `find?_firstByName_eq`: looking a name up among them finds the first declaration of the name.
* `nodup_firstByName`, `firstByName_eq_self`: they are distinct, and all there are if no two
  declarations share a name.
* `Scope.lookup_of_mem`, `Scope.lookup_eq_some_iff`: a file's scope finds each of its declarations,
  since each name is declared there once.
-/

namespace GoStencil

/-! ## 1. First declarations -/

theorem mem_of_mem_firstByName {decl : TypeDecl} : ∀ {decls : List TypeDecl},
    decl ∈ firstByName decls → decl ∈ decls
  | [], h => h
  | first :: rest, h => by
    rcases List.mem_cons.mp h with rfl | h
    · exact List.mem_cons_self
    · exact List.mem_cons_of_mem _ (mem_of_mem_firstByName (List.mem_filter.mp h).1)

/-- No name is lost. -/
theorem exists_mem_firstByName {decl : TypeDecl} : ∀ {decls : List TypeDecl},
    decl ∈ decls → ∃ first ∈ firstByName decls, first.name = decl.name
  | [], h => by cases h
  | first :: rest, h => by
    by_cases e : first.name = decl.name
    · exact ⟨first, List.mem_cons_self, e⟩
    · rcases List.mem_cons.mp h with rfl | h
      · exact absurd rfl e
      · obtain ⟨found, hmem, hname⟩ := exists_mem_firstByName h
        refine ⟨found, List.mem_cons_of_mem _ (List.mem_filter.mpr ⟨hmem, ?_⟩), hname⟩
        simpa [hname] using fun h => e h.symm

theorem find?_firstByName {decl : TypeDecl} : ∀ {decls : List TypeDecl},
    decl ∈ firstByName decls → (firstByName decls).find? (·.name == decl.name) = some decl
  | [], h => by cases h
  | first :: rest, h => by
    rw [firstByName]
    by_cases e : first = decl
    · rw [e]
      exact List.find?_cons_of_pos (by simp)
    · rcases List.mem_cons.mp h with rfl | h
      · exact absurd rfl e
      · obtain ⟨hmem, hne⟩ := List.mem_filter.mp h
        have hname : decl.name ≠ first.name := by simpa using hne
        rw [List.find?_cons_of_neg (by simpa using fun h => hname h.symm), List.find?_filter]
        rw [← find?_firstByName hmem]
        refine congrArg (List.find? · _) (funext fun other => ?_)
        by_cases ho : other.name = decl.name
        · simp [ho, hname]
        · simp [ho]

/-- The first declaration of a name is looked up, whatever the others are. -/
theorem find?_firstByName_eq (name : String) : ∀ decls : List TypeDecl,
    (firstByName decls).find? (·.name == name) = decls.find? (·.name == name)
  | [] => rfl
  | first :: rest => by
    rw [firstByName]
    by_cases e : first.name = name
    · rw [List.find?_cons_of_pos (by simpa using e), List.find?_cons_of_pos (by simpa using e)]
    · rw [List.find?_cons_of_neg (by simpa using e), List.find?_cons_of_neg (by simpa using e),
        List.find?_filter, ← find?_firstByName_eq name rest]
      refine congrArg (List.find? · _) (funext fun other => ?_)
      by_cases ho : other.name = name
      · simp [ho, Ne.symm e]
      · simp [ho]

theorem firstByName_eq_self : ∀ {decls : List TypeDecl}, (decls.map (·.name)).Nodup →
    firstByName decls = decls
  | [], _ => rfl
  | first :: rest, h => by
    obtain ⟨hfirst, hrest⟩ := List.nodup_cons.mp h
    rw [firstByName, firstByName_eq_self hrest, List.filter_eq_self.mpr]
    intro decl hmem
    simpa using fun e => hfirst (List.mem_map.mpr ⟨decl, hmem, e⟩)

theorem nodup_firstByName : ∀ decls : List TypeDecl, (firstByName decls).Nodup
  | [] => .nil
  | first :: rest => by
    refine List.nodup_cons.mpr ⟨fun hmem => ?_, (nodup_firstByName rest).filter _⟩
    simpa using (List.mem_filter.mp hmem).2

/-- The first declarations of all names but one. -/
theorem filter_firstByName (name : String) : ∀ decls : List TypeDecl,
    (firstByName decls).filter (fun decl => decl.name ≠ name) =
      firstByName (decls.filter fun decl => decl.name ≠ name)
  | [] => rfl
  | first :: rest => by
    have hrest := filter_firstByName name rest
    by_cases e : first.name = name
    · rw [firstByName, List.filter_cons_of_neg (by simp [e]), List.filter_cons_of_neg (by simp [e]),
        ← hrest, e, List.filter_filter]
      simp only [Bool.and_self]
    · rw [firstByName, List.filter_cons_of_pos (by simp [e]), List.filter_cons_of_pos (by simp [e]),
        firstByName, ← hrest, List.filter_filter, List.filter_filter]
      simp only [Bool.and_comm]

/-! ## 2. Scopes -/

namespace Scope

variable {scope : Scope} {ident : String} {decl : TypeDecl}

theorem mem_of_lookup (h : scope.lookup ident = some decl) : decl ∈ scope.types :=
  List.mem_of_find?_eq_some h

theorem name_of_lookup (h : scope.lookup ident = some decl) : decl.name = ident := by
  have := List.find?_some h
  simpa using this

/-- A type is all there is to see if its name was followed before, or is not declared. -/
theorem resolveFrom_eq_unparen (steps : Nat) {seen : List String} {type : TypeExpr}
    (h : ∀ ident decl, type.unparen = .name ident → scope.lookup ident = some decl → ident ∈ seen) :
    scope.resolveFrom steps seen type = type.unparen := by
  cases steps with
  | zero => rfl
  | succ steps =>
    unfold resolveFrom
    split
    · rename_i ident hname
      split
      · exact hname.symm
      · rename_i hnew
        split
        · rename_i decl hdecl
          exact absurd (List.contains_iff_mem.mpr (h ident decl hname hdecl)) hnew
        · exact hname.symm
    · rfl

theorem lookup_of_mem {file : SourceFile} (h : decl ∈ file.scope.types) :
    file.scope.lookup decl.name = some decl :=
  find?_firstByName h

theorem lookup_eq_some_iff {file : SourceFile} :
    file.scope.lookup ident = some decl ↔ decl ∈ file.scope.types ∧ decl.name = ident := by
  constructor
  · exact fun h => ⟨mem_of_lookup h, name_of_lookup h⟩
  · rintro ⟨hmem, rfl⟩
    exact lookup_of_mem hmem

theorem eq_of_name_eq {file : SourceFile} {other : TypeDecl} (h : decl ∈ file.scope.types)
    (h' : other ∈ file.scope.types) (e : decl.name = other.name) : decl = other := by
  have hfound := lookup_of_mem h
  rw [e, lookup_of_mem h'] at hfound
  cases hfound
  rfl

end Scope

end GoStencil
