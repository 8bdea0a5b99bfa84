import GoStencil.Specialization

/-!
# The order of declarations

Sorting by structure is stable: it moves declarations of different weight only. So it loses nothing,
and some of the declarations are in the order that they have on their own.

* `perm_sortByWeight`, `Scope.perm_mostStructuredFirst`: no declaration is lost or made up.
* `byWeight_sortByWeight`: the weights decrease.
* `filter_sortByWeight`: sorting and leaving declarations out can be done in either order.
* `Scope.isStableSort_mostStructuredFirst`: the three of them as one property of the order.
* `IsStableSort.isFirstGreatest_head`: what comes first is the first of greatest measure.
-/

namespace GoStencil

/-! ## 1. Nothing is lost -/

theorem perm_insertByWeight (item : Nat × TypeDecl) : ∀ items : List (Nat × TypeDecl),
    (insertByWeight item items).Perm (item :: items)
  | [] => .refl _
  | first :: rest => by
    unfold insertByWeight
    split
    · exact ((perm_insertByWeight item rest).cons first).trans (.swap ..)
    · exact .refl _

theorem perm_sortByWeight : ∀ items : List (Nat × TypeDecl), (sortByWeight items).Perm items
  | [] => .refl _
  | item :: rest => (perm_insertByWeight item _).trans ((perm_sortByWeight rest).cons item)

theorem Scope.perm_mostStructuredFirst (scope : Scope) (decls : List TypeDecl) :
    (scope.mostStructuredFirst decls).Perm decls := by
  have h := (perm_sortByWeight (decls.map fun decl => (scope.declComplexity decl, decl))).map
    Prod.snd
  rwa [List.map_map, show Prod.snd ∘ (fun decl => (scope.declComplexity decl, decl)) = id from rfl,
    List.map_id] at h

/-- Sorting by structure loses no declaration and makes up none. -/
theorem Scope.mem_mostStructuredFirst {scope : Scope} {decl : TypeDecl} {decls : List TypeDecl} :
    decl ∈ scope.mostStructuredFirst decls ↔ decl ∈ decls :=
  (scope.perm_mostStructuredFirst decls).mem_iff

/-- Scopes that measure the declarations alike order them alike. -/
theorem Scope.mostStructuredFirst_congr {scope other : Scope} {decls : List TypeDecl}
    (h : ∀ decl ∈ decls, other.declComplexity decl = scope.declComplexity decl) :
    other.mostStructuredFirst decls = scope.mostStructuredFirst decls := by
  have hweights : decls.map (fun decl => (other.declComplexity decl, decl)) =
      decls.map fun decl => (scope.declComplexity decl, decl) :=
    List.map_congr_left fun decl hmem => by rw [h decl hmem]
  rw [mostStructuredFirst, mostStructuredFirst, hweights]

/-! ## 2. Decreasing weights -/

/-- Whether weighed declarations are in order. -/
def ByWeight (items : List (Nat × TypeDecl)) : Prop :=
  items.Pairwise fun item later => later.1 ≤ item.1

theorem byWeight_insertByWeight {item : Nat × TypeDecl} : ∀ {items : List (Nat × TypeDecl)},
    ByWeight items → ByWeight (insertByWeight item items)
  | [], _ => List.pairwise_singleton ..
  | first :: rest, h => by
    obtain ⟨hfirst, hrest⟩ := List.pairwise_cons.mp h
    unfold insertByWeight
    split
    · rename_i hlt
      refine List.pairwise_cons.mpr ⟨fun other hmem => ?_, byWeight_insertByWeight hrest⟩
      rcases List.mem_cons.mp ((perm_insertByWeight item rest).mem_iff.mp hmem) with rfl | hmem
      · exact Nat.le_of_lt hlt
      · exact hfirst other hmem
    · rename_i hge
      refine List.pairwise_cons.mpr ⟨fun other hmem => ?_, h⟩
      rcases List.mem_cons.mp hmem with rfl | hmem
      · omega
      · have := hfirst other hmem
        omega

theorem byWeight_sortByWeight : ∀ items : List (Nat × TypeDecl), ByWeight (sortByWeight items)
  | [] => .nil
  | _ :: rest => byWeight_insertByWeight (byWeight_sortByWeight rest)

section Filter

variable {p : Nat × TypeDecl → Bool} {item : Nat × TypeDecl}

theorem insertByWeight_of_forall_le {items : List (Nat × TypeDecl)}
    (h : ∀ other ∈ items, other.1 ≤ item.1) : insertByWeight item items = item :: items := by
  cases items with
  | nil => rfl
  | cons first rest =>
    have hfirst := h first List.mem_cons_self
    rw [insertByWeight, if_neg (by omega)]

theorem filter_insertByWeight_neg (hp : p item = false) : ∀ items : List (Nat × TypeDecl),
    (insertByWeight item items).filter p = items.filter p
  | [] => by simp [insertByWeight, hp]
  | first :: rest => by
    unfold insertByWeight
    split
    · rw [List.filter_cons, List.filter_cons, filter_insertByWeight_neg hp rest]
    · rw [List.filter_cons_of_neg (by simp [hp])]

theorem filter_insertByWeight_pos (hp : p item = true) : ∀ {items : List (Nat × TypeDecl)},
    ByWeight items → (insertByWeight item items).filter p = insertByWeight item (items.filter p)
  | [], _ => by simp [insertByWeight, hp]
  | first :: rest, h => by
    obtain ⟨hfirst, hrest⟩ := List.pairwise_cons.mp h
    rw [insertByWeight]
    by_cases hlt : item.1 < first.1
    · rw [if_pos hlt, List.filter_cons, List.filter_cons, filter_insertByWeight_pos hp hrest]
      split
      · rw [insertByWeight, if_pos hlt]
      · rfl
    · rw [if_neg hlt]
      -- nothing in the list weighs more, so the item goes to the front
      rw [List.filter_cons_of_pos hp]
      refine (insertByWeight_of_forall_le fun other hmem => ?_).symm
      rcases List.mem_cons.mp (List.mem_filter.mp hmem).1 with rfl | hmem
      · omega
      · have := hfirst other hmem
        omega

/-- **Some of the items in order are what they are in order on their own.** -/
theorem filter_sortByWeight : ∀ items : List (Nat × TypeDecl),
    (sortByWeight items).filter p = sortByWeight (items.filter p)
  | [] => rfl
  | item :: rest => by
    rw [sortByWeight]
    cases hp : p item with
    | false =>
      rw [filter_insertByWeight_neg hp, filter_sortByWeight rest,
        List.filter_cons_of_neg (by simp [hp])]
    | true =>
      rw [filter_insertByWeight_pos hp (byWeight_sortByWeight rest), filter_sortByWeight rest,
        List.filter_cons_of_pos hp, sortByWeight]

end Filter

/-! ## 3. Stable sorts -/

/-- Whether a list holds some declarations by decreasing measure, where those of equal measure are
    in the order that they had. -/
structure IsStableSort (measure : TypeDecl → Nat) (decls sorted : List TypeDecl) : Prop where
  perm : sorted.Perm decls
  decreasing : sorted.Pairwise fun decl later => measure later ≤ measure decl
  stable : ∀ weight, (sorted.filter fun decl => measure decl = weight) =
    decls.filter fun decl => measure decl = weight

/-- Whether a declaration is the first of those of greatest measure. -/
def IsFirstGreatest (measure : TypeDecl → Nat) (decls : List TypeDecl) (first : TypeDecl) : Prop :=
  ∃ before after, decls = before ++ first :: after ∧
    (∀ decl ∈ before, measure decl < measure first) ∧
    ∀ decl ∈ after, measure decl ≤ measure first

/-- Items of one weight are in order already. -/
theorem sortByWeight_of_forall_eq {weight : Nat} : ∀ {items : List (Nat × TypeDecl)},
    (∀ item ∈ items, item.1 = weight) → sortByWeight items = items
  | [], _ => rfl
  | item :: rest, h => by
    have hitem := h item List.mem_cons_self
    have hrest : ∀ other ∈ rest, other.1 = weight :=
      fun other hmem => h other (List.mem_cons_of_mem _ hmem)
    rw [sortByWeight, sortByWeight_of_forall_eq hrest]
    exact insertByWeight_of_forall_le fun other hmem => by
      have := hrest other hmem
      omega

/-- **The most structured come first, and the order is stable.** -/
theorem Scope.isStableSort_mostStructuredFirst (scope : Scope) (decls : List TypeDecl) :
    IsStableSort scope.declComplexity decls (scope.mostStructuredFirst decls) where
  perm := scope.perm_mostStructuredFirst decls
  decreasing := by
    have hweights : ∀ item ∈ sortByWeight (decls.map fun decl => (scope.declComplexity decl, decl)),
        item.1 = scope.declComplexity item.2 := by
      intro item hmem
      obtain ⟨decl, -, rfl⟩ := List.mem_map.mp ((perm_sortByWeight _).mem_iff.mp hmem)
      rfl
    refine List.pairwise_map.mpr ((byWeight_sortByWeight _).imp_of_mem fun hitem hlater hle => ?_)
    rwa [hweights _ hitem, hweights _ hlater] at hle
  stable weight := by
    rw [mostStructuredFirst, List.filter_map, filter_sortByWeight, sortByWeight_of_forall_eq,
      List.filter_map, List.map_map]
    · exact List.map_id _
    · intro item hmem
      obtain ⟨hitem, hweight⟩ := List.mem_filter.mp hmem
      obtain ⟨decl, -, rfl⟩ := List.mem_map.mp hitem
      exact of_decide_eq_true hweight

namespace IsStableSort

variable {measure : TypeDecl → Nat} {decls rest : List TypeDecl} {first : TypeDecl}

/-- **What comes first is the first declaration of greatest measure.** -/
theorem isFirstGreatest_head (h : IsStableSort measure decls (first :: rest)) :
    IsFirstGreatest measure decls first := by
  have hgreatest : ∀ decl ∈ decls, measure decl ≤ measure first := by
    intro decl hmem
    rcases List.mem_cons.mp (h.perm.mem_iff.mpr hmem) with rfl | hmem
    · exact Nat.le_refl _
    · exact (List.pairwise_cons.mp h.decreasing).1 decl hmem
  -- those that measure as much as the first are in one order before and after the sort
  have hstable := h.stable (measure first)
  rw [List.filter_cons_of_pos (by simp)] at hstable
  obtain ⟨before, after, rfl, hbefore, -⟩ := List.filter_eq_cons_iff.mp hstable.symm
  refine ⟨before, after, rfl, fun decl hmem => ?_, fun decl hmem => ?_⟩
  · have hle := hgreatest decl (List.mem_append_left _ hmem)
    have hne : measure decl ≠ measure first := by simpa using hbefore decl hmem
    omega
  · exact hgreatest decl (List.mem_append_right _ (List.mem_cons_of_mem _ hmem))

end IsStableSort

end GoStencil
