import GoStencil.Proofs.Matching.Equivalents
import GoStencil.Proofs.Matching.Fields
import GoStencil.Proofs.Mentions

/-!
# Types that take themselves

A type that mentions nothing the template declares, and nothing that is bound, is matched with
itself and binds nothing. Interfaces and parentheses are apart: an empty interface is bound, other
interfaces match nothing, and a name in parentheses does not take itself in parentheses.

* `TypeExpr.IsGround`: these types; their parts are of the same kind.
* `Goal.exists_eq_pair_of_mem_ofParts_self`: each of their parts is to be matched with itself, also
  the fields of a struct, which are looked up by name.
* `Matcher.settled_self`, `Matcher.unify_self`: so every step is one that binds nothing.
-/

namespace GoStencil

namespace TypeExpr

/-- Whether a type is none that is bound or looked into: no interface, not in parentheses, and no
    struct with two fields of one name. -/
def isPlain : TypeExpr → Bool
  | .paren _ | .interface _ => false
  | .struct fields => decide (Field.Distinct fields.toList)
  | _ => true

/-- Whether a type is plain in all its parts and mentions none of the known names. -/
structure IsGround (known : String → Bool) (type : TypeExpr) : Prop where
  plain : type.everywhere isPlain = true
  mentions : type.MentionsOnly (known · = false)

variable {known : String → Bool} {type : TypeExpr}

theorem hereditary_isGround (known : String → Bool) : Hereditary (IsGround known) where
  package h := ⟨rfl, (hereditary_mentionsOnly _).package h.mentions⟩
  part h hpart :=
    ⟨(hereditary_everywhere fun _ => rfl).part h.plain hpart,
      (hereditary_mentionsOnly _).part h.mentions hpart⟩

theorem IsGround.isPlain (h : type.IsGround known) : type.isPlain = true := by
  have hplain := h.plain
  cases type with
  | name | qualified => rfl
  | _ => exact (Bool.and_eq_true_iff.mp hplain).1

/-- A plain type is not in parentheses. -/
theorem unparen_of_isPlain (h : type.isPlain = true) : type.unparen = type := by
  cases type with
  | paren => cases h
  | _ => rfl

end TypeExpr

/-! ## 1. Goals of a type with itself -/

namespace Goal

theorem exists_eq_pair_of_mem_ofEntries_self {fields : FieldList} {goal : Goal}
    (h : goal ∈ ofEntries fields fields) : ∃ part, goal = .pair part part := by
  rw [ofEntries, if_pos rfl, List.zip_eq_zipWith, List.zipWith_self, List.map_map] at h
  obtain ⟨part, -, rfl⟩ := List.mem_map.mp h
  exact ⟨part, rfl⟩

/-- A field is found under each of its names, if no other field goes by one of them. -/
theorem exists_eq_pair_of_mem_ofFields_self {fields : FieldList} {goal : Goal}
    (hdistinct : Field.Distinct fields.toList) (h : goal ∈ ofFields fields fields) :
    ∃ part, goal = .pair part part := by
  rw [ofFields, if_neg (Nat.lt_irrefl _)] at h
  obtain ⟨⟨name, type⟩, hmem, rfl⟩ := List.mem_map.mp h
  obtain ⟨field, hfind, htype⟩ := FieldList.exists_find?_of_distinct hdistinct hmem
  refine ⟨type, ?_⟩
  simp only [ofField, hfind, htype]

/-- **Each part of a plain type is to be matched with itself.** -/
theorem exists_eq_pair_of_mem_ofParts_self {type : TypeExpr} (hs : type.isStructural = true)
    (hplain : type.isPlain = true) {goal : Goal} (h : goal ∈ ofParts type type) :
    ∃ part, goal = .pair part part := by
  cases type with
  | name | paren | «variadic» => cases hs
  | interface => cases hplain
  | qualified package ident =>
    rw [ofParts, if_pos rfl] at h
    exact ⟨_, List.mem_singleton.mp h⟩
  | pointer elem => exact ⟨elem, List.mem_singleton.mp h⟩
  | array length elem =>
    rw [ofParts, if_pos rfl] at h
    exact ⟨elem, List.mem_singleton.mp h⟩
  | channel direction value =>
    rw [ofParts, if_neg fun hdirection => hdirection.2.2 rfl] at h
    exact ⟨value, List.mem_singleton.mp h⟩
  | map key value =>
    rcases List.mem_cons.mp h with rfl | h
    · exact ⟨key, rfl⟩
    · exact ⟨value, List.mem_singleton.mp h⟩
  | function params results =>
    rcases List.mem_append.mp h with h | h
    · exact exists_eq_pair_of_mem_ofEntries_self h
    · exact exists_eq_pair_of_mem_ofEntries_self h
  | struct fields => exact exists_eq_pair_of_mem_ofFields_self (of_decide_eq_true hplain) h

end Goal

/-! ## 2. Matches of a type with itself -/

namespace Matcher

variable {matcher : Matcher} {subst : Substitution}

/-- **A ground type asks for nothing but itself.** The induction is on its parts, which a struct
    finds by their names; a name at the end takes itself. -/
theorem settled_self {type : TypeExpr} (h : type.IsGround (matcher.knows subst)) :
    matcher.Settled subst (.pair type type) := by
  have hP := TypeExpr.hereditary_isGround (matcher.knows subst)
  induction type using TypeExpr.goalInduction with
  | name ident =>
    have hunknown := h.mentions.names ident List.mem_cons_self
    rw [knows, Bool.or_eq_false_iff, Option.isSome_eq_false_iff, Option.isNone_iff_eq_none]
      at hunknown
    refine .step (.undeclared hunknown.1 hunknown.2) fun goal hmem => ?_
    cases hmem
  | paren => cases h.isPlain
  | universal => cases h.isPlain
  | «variadic» elem ih =>
    refine .step (.variadic ..) fun goal hmem => ?_
    cases List.mem_singleton.mp hmem
    exact ih (hP.part h List.mem_cons_self)
  | structural type hs ih =>
    have hseen : matcher.resolve type = type := by
      rw [resolve_of_unparen_ne_name, TypeExpr.unparen_of_isPlain h.isPlain]
      rintro ident hname
      rw [TypeExpr.unparen_of_isPlain h.isPlain] at hname
      rw [hname] at hs
      cases hs
    refine .step (.parts hs ..) fun goal hmem => ?_
    rw [hseen] at hmem
    have hpart := Goal.candidateHas_of_mem_ofParts hP h hmem
    obtain ⟨part, rfl⟩ := Goal.exists_eq_pair_of_mem_ofParts_self hs h.isPlain hmem
    exact ih type part part hmem hpart

/-- **Ground types are matched with themselves** and bind nothing, whatever the provider declares:
    a type without interfaces and parentheses, whose structs have no two fields of one name, and
    which mentions nothing that the template declares or that is bound. -/
theorem unify_self (matcher : Matcher) (subst : Substitution) (type : TypeExpr)
    (h : type.IsGround (matcher.knows subst)) : matcher.unify type type subst = .ok subst :=
  unify_eq_of_settled (settled_self h)

/-- `struct { *ast.Node; first, last []Word; each func(string, ...Word) (<-chan bool, map[Word]int)
    }` -/
def wordsType : TypeExpr :=
  .struct (.cons [] (.pointer (.qualified "ast" "Node")) none
    (.cons ["first", "last"] (.array none (.name "Word")) none
    (.cons ["each"] (.function
      (.cons [] (.name "string") none (.cons [] (.variadic (.name "Word")) none .nil))
      (.cons [] (.channel .receive (.name "bool")) none
        (.cons [] (.map (.name "Word") (.name "int")) none .nil))) none .nil)))

/-- `Word` stays a name on both sides, although the provider declares it. -/
theorem unify_self_wordsType :
    ∃ (matcher : Matcher) (subst : Substitution),
      matcher.template.types.map (·.name) = ["Item"] ∧
      matcher.provider.map (fun provider => provider.types.map (·.name)) = some ["Word"] ∧
      subst.entries = [(.name "Item", .name "int"), (.universal, .name "bool")] ∧
      matcher.unify wordsType wordsType subst = .ok subst :=
  ⟨⟨⟨"list", [], [⟨"Item", false, .emptyInterface, ⟨0, 0⟩⟩]⟩,
      some ⟨"words", [], [⟨"Word", false, .array none (.name "byte"), ⟨0, 0⟩⟩]⟩⟩,
    ⟨[(.name "Item", .name "int"), (.universal, .name "bool")], by decide⟩, rfl, rfl, rfl,
    unify_self _ _ _ ⟨by decide, ⟨by decide, by decide⟩⟩⟩

end Matcher

end GoStencil
