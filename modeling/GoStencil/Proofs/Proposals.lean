import GoStencil.Proofs.Matching.Confluence

/-!
# Many binds in a row

A sequence of keys with types to bind them to. Of the types that are proposed for one key the first
counts, and all later ones are only compared with it. As equivalence is symmetric and transitive,
that is as good as comparing them all with each other, in whatever order they come.

* `Substitution.bindEach`: the binds one after the other, where those that are refused are passed
  over. `get?_bindEach`, `keys_bindEach`: what is bound then, and in which order.
* `Substitution.bindAll`: the binds one after the other, as long as none is refused.
  `exists_bindAll_iff`: none is when all types proposed for a key are equivalent to each other.
* `Substitution.bind_order_irrelevant`: so the order of the binds does not matter.
-/

namespace GoStencil

/-- A key with a type to bind it to. -/
abbrev Proposal := Binding × TypeExpr

/-- Whether any two types that are proposed for one key are equivalent. -/
def AreConsistent (proposals : List Proposal) : Prop :=
  ∀ first ∈ proposals, ∀ second ∈ proposals, first.1 = second.1 →
    first.2.equivalent second.2 = true

instance (proposals : List Proposal) : Decidable (AreConsistent proposals) :=
  inferInstanceAs (Decidable (∀ first ∈ proposals, ∀ second ∈ proposals,
    first.1 = second.1 → first.2.equivalent second.2 = true))

theorem AreConsistent.subset {proposals others : List Proposal} (h : AreConsistent others)
    (hsubset : proposals ⊆ others) : AreConsistent proposals :=
  fun first hfirst second hsecond => h first (hsubset hfirst) second (hsubset hsecond)

/-- Next to a proposal, an equivalent one for the same key changes nothing. -/
theorem AreConsistent.of_equivalent {proposals others : List Proposal} {key : Binding}
    {bound type : TypeExpr} (h : AreConsistent proposals) (hmem : (key, bound) ∈ proposals)
    (hsame : bound.equivalent type = true)
    (hothers : ∀ other ∈ others, other ∈ proposals ∨ other = (key, type)) :
    AreConsistent others := by
  have hbound : ∀ other ∈ others, other.1 = key → bound.equivalent other.2 = true := by
    intro other hother hkey
    rcases hothers other hother with hold | rfl
    · exact h _ hmem other hold hkey.symm
    · exact hsame
  intro first hfirst second hsecond hkey
  rcases hothers first hfirst with hold | rfl
  · rcases hothers second hsecond with hold' | rfl
    · exact h first hold second hold' hkey
    · exact TypeExpr.equivalent_trans (TypeExpr.equivalent_comm (hbound first hfirst hkey)) hsame
  · exact TypeExpr.equivalent_trans (TypeExpr.equivalent_comm hsame)
      (hbound second hsecond hkey.symm)

namespace Substitution

variable {subst grown last : Substitution} {key other : Binding} {type bound : TypeExpr}
  {proposals others : List Proposal}

/-! ## 1. What binds leave -/

/-- What a key is bound to, or else the type that is proposed for it first. -/
def firstFor (subst : Substitution) (proposals : List Proposal) (key : Binding) :
    Option TypeExpr :=
  (subst.get? key).or (proposals.lookup key)

/-- Binds one key after the other. A bind that is refused is passed over. -/
def bindEach (subst : Substitution) : List Proposal → Substitution
  | [] => subst
  | (key, type) :: rest =>
    match subst.bind key type with
    | .ok grown => grown.bindEach rest
    | .error _ => subst.bindEach rest

/-- Binds one key after the other, until a bind is refused. -/
def bindAll (subst : Substitution) : List Proposal → Except Mismatch Substitution
  | [] => .ok subst
  | (key, type) :: rest => do (← subst.bind key type).bindAll rest

/-- A bind is refused exactly when the key is bound to a type that is not equivalent. -/
theorem exists_bind_eq_error_iff : (∃ cause, subst.bind key type = .error cause) ↔
    ∃ bound, subst.get? key = some bound ∧ bound.equivalent type = false := by
  cases hget : subst.get? key with
  | none =>
    rw [bind_of_get?_eq_none hget]
    constructor
    · rintro ⟨_, h⟩
      cases h
    · rintro ⟨_, h, -⟩
      cases h
  | some bound =>
    rw [bind_of_get?_eq_some hget]
    cases hsame : bound.equivalent type with
    | true =>
      constructor
      · rintro ⟨_, h⟩
        cases h
      · rintro ⟨_, h, hne⟩
        cases h
        rw [hsame] at hne
        cases hne
    | false => exact ⟨fun _ => ⟨bound, rfl, hsame⟩, fun _ => ⟨_, rfl⟩⟩

theorem get?_of_bind (h : subst.bind key type = .ok grown) (other : Binding) :
    grown.get? other = subst.firstFor [(key, type)] other := by
  rcases bind_eq_ok_iff.mp h with ⟨-, he⟩ | ⟨bound, hget, -, rfl⟩
  · rw [get?, he, List.lookup_append]
    rfl
  · -- the key is bound, so what is proposed for it does not count
    by_cases hkey : other = key
    · rw [firstFor, hkey, hget]
      rfl
    · rw [firstFor, List.lookup_cons, beq_eq_false_iff_ne.mpr hkey]
      exact (Option.or_none).symm

theorem firstFor_append (subst : Substitution) (proposals others : List Proposal) (key : Binding) :
    subst.firstFor (proposals ++ others) key =
      (subst.firstFor proposals key).or (others.lookup key) := by
  rw [firstFor, firstFor, List.lookup_append, Option.or_assoc]

/-- What is proposed for a key that is bound does not count. -/
theorem firstFor_cons_of_bound (hget : subst.get? key = some bound) (other : Binding) :
    subst.firstFor ((key, type) :: proposals) other = subst.firstFor proposals other := by
  by_cases hkey : other = key
  · rw [firstFor, firstFor, hkey, hget]
    rfl
  · rw [firstFor, firstFor, List.lookup_cons, beq_eq_false_iff_ne.mpr hkey]

/-- **Every key is bound to the first type that is proposed for it**, unless it was bound before. -/
theorem get?_bindEach (subst : Substitution) (proposals : List Proposal) (key : Binding) :
    (subst.bindEach proposals).get? key = subst.firstFor proposals key := by
  fun_induction bindEach subst proposals with
  | case1 subst => exact (Option.or_none).symm
  | case2 subst first type rest grown hbind ih =>
    rw [ih, firstFor, get?_of_bind hbind, ← firstFor_append]
    rfl
  | case3 subst first type rest cause hbind ih =>
    obtain ⟨bound, hget, -⟩ := exists_bind_eq_error_iff.mp ⟨cause, hbind⟩
    rw [ih, firstFor_cons_of_bound hget]

/-! ## 2. The order of the keys -/

theorem eraseDups_of_nodup {α : Type} [BEq α] [LawfulBEq α] {as : List α} (h : as.Nodup) :
    as.eraseDups = as := by
  induction as with
  | nil => rfl
  | cons a as ih =>
    obtain ⟨hnew, has⟩ := List.nodup_cons.mp h
    have hfilter : as.filter (fun b => !b == a) = as :=
      List.filter_eq_self.mpr fun b hb => by
        have hne : b ≠ a := fun e => hnew (e ▸ hb)
        rw [beq_eq_false_iff_ne.mpr hne, Bool.not_false]
    rw [List.eraseDups_cons, hfilter, ih has]

theorem eraseDups_append_cons_of_mem {α : Type} [BEq α] [LawfulBEq α] {as bs : List α} {a : α}
    (h : a ∈ as) : (as ++ a :: bs).eraseDups = (as ++ bs).eraseDups := by
  rw [List.eraseDups_append, List.eraseDups_append, List.cons_removeAll,
    List.contains_iff_mem.mpr h]
  rfl

theorem mem_keys_of_get? (hget : subst.get? key = some bound) : key ∈ subst.keys :=
  List.mem_map.mpr ⟨_, get?_eq_some_iff.mp hget, rfl⟩

/-- **Keys are bound in the order in which types are proposed for them first.** -/
theorem keys_bindEach (subst : Substitution) (proposals : List Proposal) :
    (subst.bindEach proposals).keys = (subst.keys ++ proposals.map Prod.fst).eraseDups := by
  fun_induction bindEach subst proposals with
  | case1 subst =>
    rw [List.map_nil, List.append_nil]
    exact (eraseDups_of_nodup subst.nodup).symm
  | case2 subst key type rest grown hbind ih =>
    rcases bind_eq_ok_iff.mp hbind with ⟨-, he⟩ | ⟨bound, hget, -, rfl⟩
    · have hkeys : grown.keys = subst.keys ++ [key] := by
        rw [keys, he, List.map_append]
        rfl
      rw [ih, hkeys, List.append_assoc]
      rfl
    · rw [ih, List.map_cons, eraseDups_append_cons_of_mem (mem_keys_of_get? hget)]
  | case3 subst key type rest cause hbind ih =>
    obtain ⟨bound, hget, -⟩ := exists_bind_eq_error_iff.mp ⟨cause, hbind⟩
    rw [ih, List.map_cons, eraseDups_append_cons_of_mem (mem_keys_of_get? hget)]

/-! ## 3. Which binds are refused -/

/-- **A bind is refused exactly when its type is not equivalent to the first** that is proposed for
    its key, among the proposals before it or anywhere in the sequence. -/
theorem exists_bindEach_error_iff (subst : Substitution) (earlier later : List Proposal) :
    (∃ cause, (subst.bindEach earlier).bind key type = .error cause) ↔
      ∃ first, subst.firstFor (earlier ++ (key, type) :: later) key = some first ∧
        first.equivalent type = false := by
  rw [exists_bind_eq_error_iff, get?_bindEach, firstFor_append, List.lookup_cons_self]
  cases subst.firstFor earlier key with
  | some first => rfl
  | none =>
    constructor
    · rintro ⟨_, h, -⟩
      cases h
    · rintro ⟨_, h, hne⟩
      cases h
      rw [type.equivalent_refl] at hne
      cases hne

theorem bindEach_append (subst : Substitution) (proposals others : List Proposal) :
    subst.bindEach (proposals ++ others) = (subst.bindEach proposals).bindEach others := by
  fun_induction bindEach subst proposals with
  | case1 => rfl
  | case2 subst key type rest grown hbind ih =>
    rw [List.cons_append, bindEach, hbind]
    exact ih
  | case3 subst key type rest cause hbind ih =>
    rw [List.cons_append, bindEach, hbind]
    exact ih

/-- A bind that is refused leaves everything as it is. -/
theorem bindEach_concat_of_error {cause : Mismatch}
    (h : (subst.bindEach proposals).bind key type = .error cause) :
    subst.bindEach (proposals ++ [(key, type)]) = subst.bindEach proposals := by
  rw [bindEach_append, bindEach, h]
  rfl

/-! ## 4. Binds that all succeed -/

theorem bindEach_of_bindAll (h : subst.bindAll proposals = .ok last) :
    subst.bindEach proposals = last := by
  fun_induction bindEach subst proposals with
  | case1 subst =>
    cases h
    rfl
  | case2 subst key type rest grown hbind ih =>
    obtain ⟨found, hfound, h⟩ := bind_eq_ok.mp h
    cases hbind.symm.trans hfound
    exact ih h
  | case3 subst key type rest cause hbind ih =>
    obtain ⟨found, hfound, -⟩ := bind_eq_ok.mp h
    cases hbind.symm.trans hfound

theorem areConsistent_entries (subst : Substitution) : AreConsistent subst.entries := by
  intro first hfirst second hsecond hkey
  have hget := get?_eq_some_iff.mpr hfirst
  rw [hkey, get?_eq_some_iff.mpr hsecond] at hget
  rw [Option.some.inj hget]
  exact first.2.equivalent_refl

/-- **All binds succeed exactly when the types for each key are equivalent to each other.** -/
theorem exists_bindAll_iff (subst : Substitution) (proposals : List Proposal) :
    (∃ last, subst.bindAll proposals = .ok last) ↔
      AreConsistent (subst.entries ++ proposals) := by
  induction proposals generalizing subst with
  | nil =>
    rw [List.append_nil]
    exact iff_of_true ⟨subst, rfl⟩ subst.areConsistent_entries
  | cons proposal rest ih =>
    obtain ⟨key, type⟩ := proposal
    cases hbind : subst.bind key type with
    | error cause =>
      obtain ⟨bound, hget, hne⟩ := exists_bind_eq_error_iff.mp ⟨cause, hbind⟩
      refine iff_of_false ?_ fun h => ?_
      · rintro ⟨_, h⟩
        obtain ⟨_, hfound, -⟩ := bind_eq_ok.mp h
        cases hbind.symm.trans hfound
      · have hsame := h _ (List.mem_append_left _ (get?_eq_some_iff.mp hget)) (key, type)
          (List.mem_append_right _ List.mem_cons_self) rfl
        rw [hne] at hsame
        cases hsame
    | ok grown =>
      have hall : subst.bindAll ((key, type) :: rest) = grown.bindAll rest := by
        rw [bindAll, hbind]
        rfl
      rw [hall, ih]
      rcases bind_eq_ok_iff.mp hbind with ⟨-, he⟩ | ⟨bound, hget, hsame, rfl⟩
      · rw [he, List.append_assoc]
        rfl
      · have hmem := List.mem_append_left rest (get?_eq_some_iff.mp hget)
        refine ⟨fun h => h.of_equivalent hmem hsame fun other hother => ?_, fun h => h.subset ?_⟩
        · rcases List.mem_append.mp hother with hother | hother
          · exact .inl (List.mem_append_left _ hother)
          · exact (List.mem_cons.mp hother).symm.imp_left (List.mem_append_right _)
        · exact List.append_subset.mpr ⟨List.subset_append_left _ _,
            List.Subset.trans (List.subset_cons_self _ _) (List.subset_append_right _ _)⟩

/-! ## 5. The order of binds -/

theorem mem_of_lookup (h : proposals.lookup key = some type) : (key, type) ∈ proposals := by
  obtain ⟨before, after, rfl, -⟩ := List.lookup_eq_some_iff.mp h
  exact List.mem_append_right _ List.mem_cons_self

theorem not_mem_of_lookup (h : proposals.lookup key = none) : (key, type) ∉ proposals := by
  intro hmem
  have hne := List.lookup_eq_none_iff.mp h _ hmem
  rw [bne_self_eq_false] at hne
  cases hne

/-- The first of consistent proposals is as good as any other. -/
theorem agrees_of_perm (h : AreConsistent proposals) (hperm : proposals.Perm others)
    (subst : Substitution) : (subst.bindEach proposals).Agrees (subst.bindEach others) := by
  intro key
  rw [get?_bindEach, get?_bindEach, firstFor, firstFor]
  cases subst.get? key with
  | some bound => exact .some bound.equivalent_refl
  | none =>
    rw [Option.none_or, Option.none_or]
    cases hfirst : proposals.lookup key with
    | none =>
      cases hsecond : others.lookup key with
      | none => exact .none
      | some second =>
        exact absurd (hperm.mem_iff.mpr (mem_of_lookup hsecond)) (not_mem_of_lookup hfirst)
    | some first =>
      cases hsecond : others.lookup key with
      | none => exact absurd (hperm.mem_iff.mp (mem_of_lookup hfirst)) (not_mem_of_lookup hsecond)
      | some second =>
        exact .some (h _ (mem_of_lookup hfirst) _ (hperm.mem_iff.mpr (mem_of_lookup hsecond)) rfl)

/-- Binds that all succeed do so in every order, and bind the same keys to equivalent types. -/
theorem exists_bindAll_of_perm (h : subst.bindAll proposals = .ok last)
    (hperm : proposals.Perm others) :
    ∃ final, subst.bindAll others = .ok final ∧ last.Agrees final := by
  have hconsistent := (subst.exists_bindAll_iff proposals).mp ⟨last, h⟩
  obtain ⟨final, hfinal⟩ := (subst.exists_bindAll_iff others).mpr
    (hconsistent.subset ((hperm.append_left _).symm.subset))
  refine ⟨final, hfinal, ?_⟩
  rw [← bindEach_of_bindAll h, ← bindEach_of_bindAll hfinal]
  exact agrees_of_perm (hconsistent.subset (List.subset_append_right _ _)) hperm subst

/-! ## 6. Keys that do not meet -/

/-- Whether a key is bound alike in two substitutions, and whether the next bind of it succeeds in
    both or in none. -/
def TreatsAlike (subst other : Substitution) (key : Binding) : Prop :=
  subst.get? key = other.get? key ∧
    ∀ type, (∃ grown, subst.bind key type = .ok grown) ↔ ∃ grown, other.bind key type = .ok grown

theorem lookup_filter_ne {ignored : Binding} (h : key ≠ ignored) :
    (proposals.filter (·.1 != ignored)).lookup key = proposals.lookup key := by
  induction proposals with
  | nil => rfl
  | cons proposal rest ih =>
    obtain ⟨first, type⟩ := proposal
    by_cases hfirst : first = ignored
    · rw [List.filter_cons_of_neg (by simp [hfirst]), ih, List.lookup_cons, hfirst,
        beq_eq_false_iff_ne.mpr h]
    · rw [List.filter_cons_of_pos (by simp [hfirst]), List.lookup_cons, List.lookup_cons, ih]

theorem treatsAlike_of_get?_eq {subst other : Substitution} (h : subst.get? key = other.get? key) :
    subst.TreatsAlike other key := by
  refine ⟨h, fun type => ?_⟩
  cases hget : other.get? key with
  | none =>
    rw [hget] at h
    rw [bind_of_get?_eq_none h, bind_of_get?_eq_none hget]
    exact iff_of_true ⟨_, rfl⟩ ⟨_, rfl⟩
  | some bound =>
    rw [hget] at h
    rw [bind_of_get?_eq_some h, bind_of_get?_eq_some hget]
    cases bound.equivalent type with
    | true => exact iff_of_true ⟨_, rfl⟩ ⟨_, rfl⟩
    | false => exact iff_of_false nofun nofun

/-- **Binds of one key do not meet those of another.** -/
theorem treatsAlike_filter {ignored : Binding} (h : key ≠ ignored) (subst : Substitution)
    (proposals : List Proposal) :
    (subst.bindEach proposals).TreatsAlike (subst.bindEach (proposals.filter (·.1 != ignored)))
      key := by
  refine treatsAlike_of_get?_eq ?_
  rw [get?_bindEach, get?_bindEach, firstFor, firstFor, lookup_filter_ne h]

/-! ## 7. The main statement -/

/-- **The order of binds does not matter.**

    When keys are bound one after the other and binds that are refused are passed over, every key
    is bound to the first type proposed for it, unless it was bound before; the keys come in the
    order of these first proposals; and a bind is refused, and changes nothing, exactly when its
    type is not equivalent to that first one. When no bind is refused, none is in any other order,
    and the same keys are bound to equivalent types. The universal binding and a name that is
    written like it have nothing to do with each other. -/
theorem bind_order_irrelevant (subst : Substitution) (proposals : List Proposal) :
    (∀ key, (subst.bindEach proposals).get? key = subst.firstFor proposals key) ∧
    (subst.bindEach proposals).keys = (subst.keys ++ proposals.map Prod.fst).eraseDups ∧
    (∀ earlier key type later, proposals = earlier ++ (key, type) :: later →
      ((∃ cause, (subst.bindEach earlier).bind key type = .error cause) ↔
        ∃ first, subst.firstFor proposals key = some first ∧ first.equivalent type = false) ∧
      ((∃ cause, (subst.bindEach earlier).bind key type = .error cause) →
        subst.bindEach (earlier ++ [(key, type)]) = subst.bindEach earlier)) ∧
    (∀ last, subst.bindAll proposals = .ok last → subst.bindEach proposals = last ∧
      ∀ others, proposals.Perm others →
        ∃ final, subst.bindAll others = .ok final ∧ last.Agrees final) ∧
    (subst.bindEach proposals).TreatsAlike
      (subst.bindEach (proposals.filter (·.1 != .name "interface\x7b\x7d"))) .universal ∧
    (subst.bindEach proposals).TreatsAlike
      (subst.bindEach (proposals.filter (·.1 != .universal))) (.name "interface\x7b\x7d") := by
  have hne : Binding.universal ≠ .name "interface\x7b\x7d" := Binding.noConfusion
  refine ⟨subst.get?_bindEach proposals, subst.keys_bindEach proposals, ?_, ?_,
    treatsAlike_filter hne subst proposals, treatsAlike_filter hne.symm subst proposals⟩
  · rintro earlier key type later rfl
    refine ⟨subst.exists_bindEach_error_iff earlier later, ?_⟩
    rintro ⟨cause, h⟩
    exact bindEach_concat_of_error h
  · exact fun last h => ⟨bindEach_of_bindAll h, fun others => exists_bindAll_of_perm h⟩

/-- A key with a type, the universal binding, and the same key with the type in parentheses. -/
def likeProposals : List Proposal :=
  [(.name "K", .name "string"), (.universal, .name "int"), (.name "K", .paren (.name "string"))]

/-- Binds that succeed in every order, and one that is refused. -/
theorem bind_order_irrelevant_like :
    (∃ last final, empty.bindAll likeProposals = .ok last ∧
      empty.bindAll likeProposals.reverse = .ok final ∧ last.Agrees final) ∧
    empty.bindEach (likeProposals ++ [(.name "K", .name "int")]) =
      empty.bindEach likeProposals := by
  constructor
  · have hall := (empty.bind_order_irrelevant likeProposals).2.2.2.1
    obtain ⟨last, hlast⟩ := (empty.exists_bindAll_iff likeProposals).mpr (by decide)
    obtain ⟨-, hperm⟩ := hall last hlast
    obtain ⟨final, hfinal, hagrees⟩ := hperm _ (List.reverse_perm likeProposals).symm
    exact ⟨last, final, hlast, hfinal, hagrees⟩
  · obtain ⟨hrefused, hsame⟩ := (empty.bind_order_irrelevant
      (likeProposals ++ [(.name "K", .name "int")])).2.2.1 likeProposals _ _ [] rfl
    exact hsame (hrefused.mpr ⟨.name "string", by decide, by decide⟩)

end Substitution

end GoStencil
