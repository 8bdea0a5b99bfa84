import GoStencil.Proofs.Matching.Parts
import Mathlib.Data.List.Forall2

/-!
# Candidates without parentheses

Parentheses are what equivalence forgives and matching does not: a name of the template that it does
not declare takes itself, but not itself in parentheses. Without them, equivalent candidates are
matched by the same steps.

* `TypeExpr.isParenFree`: no part of the type is in parentheses. `hereditary_isParenFree`: its parts
  are like that too.
* `TypeExpr.Alike`: what equivalence comes to for such types: one form, with equivalent parts.
* `Goal.ofParts_like`: equivalent candidates have goals with equivalent candidates.
* `Matcher.resolve_alike`: equivalent candidates are looked through to types of one form.
-/

namespace GoStencil

/-! ## 1. Types without parentheses -/

mutual

/-- Whether no part of a type is in parentheses. -/
def TypeExpr.isParenFree : TypeExpr → Bool
  | .name _ | .qualified _ _ => true
  | .pointer elem => elem.isParenFree
  | .array _ elem => elem.isParenFree
  | .variadic elem => elem.isParenFree
  | .paren _ => false
  | .channel _ value => value.isParenFree
  | .map key value => key.isParenFree && value.isParenFree
  | .function params results => params.isParenFree && results.isParenFree
  | .struct fields => fields.isParenFree
  | .interface members => members.isParenFree

/-- Whether no part of the types of a list is in parentheses. -/
def FieldList.isParenFree : FieldList → Bool
  | .nil => true
  | .cons _ type _ rest => type.isParenFree && rest.isParenFree

end

theorem FieldList.isParenFree_of_mem_types {type : TypeExpr} : ∀ (fields : FieldList),
    fields.isParenFree = true → type ∈ fields.types → type.isParenFree = true
  | .nil, _, h => by cases h
  | .cons _ first _ rest, hfree, h => by
    obtain ⟨hfirst, hrest⟩ := Bool.and_eq_true_iff.mp hfree
    rcases List.mem_cons.mp h with rfl | h
    · exact hfirst
    · exact isParenFree_of_mem_types rest hrest h

theorem hereditary_isParenFree : Hereditary fun type => type.isParenFree = true where
  package _ := rfl
  part {type part} hfree hmem := by
    cases type with
    | name | qualified => cases hmem
    | pointer | array | «variadic» | channel =>
      cases List.mem_singleton.mp hmem
      exact hfree
    | paren => cases hfree
    | map key value =>
      obtain ⟨hkey, hvalue⟩ := Bool.and_eq_true_iff.mp hfree
      rcases List.mem_cons.mp hmem with rfl | hmem
      · exact hkey
      · cases List.mem_singleton.mp hmem
        exact hvalue
    | function params results =>
      obtain ⟨hparams, hresults⟩ := Bool.and_eq_true_iff.mp hfree
      rcases List.mem_append.mp hmem with hmem | hmem
      · exact FieldList.isParenFree_of_mem_types params hparams hmem
      · exact FieldList.isParenFree_of_mem_types results hresults hmem
    | struct fields => exact FieldList.isParenFree_of_mem_types fields hfree hmem
    | interface members => exact FieldList.isParenFree_of_mem_types members hfree hmem

/-- A type without parentheses that is equivalent to a name is the name. -/
theorem TypeExpr.eq_name_of_equivalent {type : TypeExpr} {ident : String}
    (hfree : type.isParenFree = true) (h : type.equivalent (.name ident) = true) :
    type = .name ident := by
  have hnormal := (equivalent_iff_normal_eq _ _).mp h
  cases type with
  | paren => cases hfree
  | name => exact hnormal
  | _ => cases hnormal

namespace TypeExpr

theorem unparen_of_isParenFree {type : TypeExpr} (h : type.isParenFree = true) :
    type.unparen = type := by
  cases type with
  | paren => cases h
  | _ => rfl

/-! ## 2. Equivalent types have one form -/

/-- Two types of one form, with equivalent parts. -/
inductive Alike : TypeExpr → TypeExpr → Prop where
  | name (ident : String) : Alike (.name ident) (.name ident)
  | qualified (package ident : String) : Alike (.qualified package ident) (.qualified package ident)
  | pointer {a b : TypeExpr} (h : a.equivalent b = true) : Alike (.pointer a) (.pointer b)
  | array (length : Option String) {a b : TypeExpr} (h : a.equivalent b = true) :
      Alike (.array length a) (.array length b)
  | variadic {a b : TypeExpr} (h : a.equivalent b = true) : Alike (.variadic a) (.variadic b)
  | channel (direction : Direction) {a b : TypeExpr} (h : a.equivalent b = true) :
      Alike (.channel direction a) (.channel direction b)
  | map {k l a b : TypeExpr} (hkey : k.equivalent l = true) (hvalue : a.equivalent b = true) :
      Alike (.map k a) (.map l b)
  | function {ps rs qs ss : FieldList} (hparams : ps.normalTypes = qs.normalTypes)
      (hresults : rs.normalTypes = ss.normalTypes) : Alike (.function ps rs) (.function qs ss)
  | struct {fs gs : FieldList} (h : fs.normalNamed = gs.normalNamed) :
      Alike (.struct fs) (.struct gs)
  | interface {fs gs : FieldList} (h : fs.normalNamed = gs.normalNamed) :
      Alike (.interface fs) (.interface gs)

/-- **Equivalent types are alike, once parentheses around them are taken off.** -/
theorem Alike.of_equivalent_unparen {a b : TypeExpr} (h : a.equivalent b = true) :
    Alike a.unparen b.unparen := by
  have hnormal : a.unparen.normal = b.unparen.normal := by
    rw [normal_unparen, normal_unparen]
    exact (equivalent_iff_normal_eq a b).mp h
  have part : ∀ {a b : TypeExpr}, a.normal = b.normal → a.equivalent b = true :=
    fun {a b} => (equivalent_iff_normal_eq a b).mpr
  have ha := a.unparen_ne_paren
  have hb := b.unparen_ne_paren
  generalize a.unparen = a at ha hnormal ⊢
  generalize b.unparen = b at hb hnormal ⊢
  cases a <;> cases b <;> first | exact absurd rfl (ha _) | exact absurd rfl (hb _) | skip
  all_goals simp only [normal, reduceCtorEq] at hnormal
  case name.name => cases hnormal; exact .name _
  case qualified.qualified => cases hnormal; exact .qualified _ _
  case pointer.pointer => exact .pointer (part (pointer.inj hnormal))
  case array.array =>
    obtain ⟨rfl, helem⟩ := array.inj hnormal
    exact .array _ (part helem)
  case variadic.variadic => exact .variadic (part (variadic.inj hnormal))
  case channel.channel =>
    obtain ⟨rfl, hvalue⟩ := channel.inj hnormal
    exact .channel _ (part hvalue)
  case map.map =>
    obtain ⟨hkey, hvalue⟩ := map.inj hnormal
    exact .map (part hkey) (part hvalue)
  case function.function =>
    obtain ⟨hparams, hresults⟩ := function.inj hnormal
    exact .function (FieldList.ofTypes_inj.mp hparams) (FieldList.ofTypes_inj.mp hresults)
  case struct.struct => exact .struct (FieldList.ofNamed_inj.mp (struct.inj hnormal))
  case interface.interface => exact .interface (FieldList.ofNamed_inj.mp (interface.inj hnormal))

/-- Equivalent types without parentheses are alike. -/
theorem Alike.of_equivalent {a b : TypeExpr} (ha : a.isParenFree = true) (hb : b.isParenFree = true)
    (h : a.equivalent b = true) : Alike a b := by
  have halike := Alike.of_equivalent_unparen h
  rwa [unparen_of_isParenFree ha, unparen_of_isParenFree hb] at halike

theorem equivalent_variadicElem {a b : TypeExpr} (ha : a.isParenFree = true)
    (hb : b.isParenFree = true) (h : a.equivalent b = true) :
    a.variadicElem.equivalent b.variadicElem = true := by
  cases Alike.of_equivalent ha hb h with
  | «variadic» helem => exact helem
  | _ => exact h

/-- The name that an embedded field goes by does not depend on what equivalence ignores. -/
theorem embeddedName?_normal : ∀ type : TypeExpr, type.normal.embeddedName? = type.embeddedName?
  | .pointer elem => embeddedName?_normal elem
  | .paren inner => embeddedName?_normal inner
  | .name _ | .qualified .. | .array .. | .variadic _ | .channel .. | .map .. | .function ..
  | .struct _ | .interface _ => rfl

end TypeExpr

/-! ## 3. Lists with equivalent entries -/

/-- The name that an entry declares or goes by. -/
def entryName? : Option String × TypeExpr → Option String
  | (some name, _) => some name
  | (none, type) => type.embeddedName?

namespace FieldList

theorem length_normalTypes (fields : FieldList) : fields.normalTypes.length = fields.numFields := by
  rw [normalTypes_eq, List.length_map, length_entryTypes]

theorem length_normalNamed : ∀ fields : FieldList, fields.normalNamed.length = fields.numFields
  | .nil => rfl
  | .cons [] _ _ rest => by
    simp [normalNamed, numFields, entryCount, length_normalNamed rest, Nat.add_comm]
  | .cons (_ :: names) _ _ rest => by
    simp [normalNamed, numFields, entryCount, length_normalNamed rest]
    omega

/-- An entry declares a name, or goes by it, whatever equivalence ignores. -/
theorem any_entryName? (names : List String) (type : TypeExpr) (name : String) :
    (if names.isEmpty then [none] else names.map some).any
        (fun key => entryName? (key, type.normal) == some name) =
      (effectiveNames names type).contains name := by
  rw [Bool.eq_iff_iff]
  cases names with
  | nil => simp [entryName?, TypeExpr.embeddedName?_normal, effectiveNames]
  | cons first names => simp [entryName?, effectiveNames, @eq_comm _ first name]

theorem find?_map_pair {α β : Type} (p : α × β → Bool) (b : β) : ∀ keys : List α,
    ((keys.map (·, b)).find? p).map (·.2) =
      if keys.any (fun key => p (key, b)) then some b else none
  | [] => rfl
  | key :: keys => by
    have ih := find?_map_pair p b keys
    cases h : p (key, b) <;> simp_all

/-- **A field is found by what equivalence leaves of the list.** -/
theorem find?_normalNamed (name : String) (fields : FieldList) :
    (fields.normalNamed.find? (entryName? · == some name)).map (·.2) =
      (fields.find? name).map (·.type.normal) := by
  fun_induction FieldList.toList fields with
  | case1 => rfl
  | case2 names type _ rest ih =>
    rw [normalNamed, List.find?_append, Option.map_or, find?_map_pair, any_entryName?, ih, find?]
    split <;> rfl

theorem find?_of_normalNamed_eq {fields others : FieldList}
    (h : fields.normalNamed = others.normalNamed) (name : String) :
    (fields.find? name).map (·.type.normal) = (others.find? name).map (·.type.normal) := by
  rw [← find?_normalNamed, ← find?_normalNamed, h]

end FieldList

/-! ## 4. Goals for equivalent candidates -/

namespace Goal

/-- Whether two goals ask for the same of equivalent candidates, or both fail. -/
inductive Like : Goal → Goal → Prop where
  | pair (template : TypeExpr) {candidate other : TypeExpr}
      (h : candidate.equivalent other = true) :
      Like (.pair template candidate) (.pair template other)
  | fail (cause other : Mismatch) : Like (.fail cause) (.fail other)

theorem Like.refl : ∀ goal : Goal, Like goal goal
  | .pair template candidate => .pair template candidate.equivalent_refl
  | .fail cause => .fail cause cause

theorem forall₂_like_fail (cause other : Mismatch) :
    List.Forall₂ Like [.fail cause] [.fail other] :=
  .cons (.fail cause other) .nil

theorem forall₂_like_pair (template : TypeExpr) {candidate other : TypeExpr}
    (h : candidate.equivalent other = true) :
    List.Forall₂ Like [.pair template candidate] [.pair template other] :=
  .cons (.pair template h) .nil

theorem forall₂_like_zip : ∀ {templates candidates others : List TypeExpr},
    candidates.map TypeExpr.normal = others.map TypeExpr.normal →
    List.Forall₂ Like ((templates.zip candidates).map fun types => .pair types.1 types.2)
      ((templates.zip others).map fun types => .pair types.1 types.2)
  | [], _, _, _ => .nil
  | _ :: _, [], [], _ => .nil
  | template :: templates, candidate :: candidates, other :: others, h => by
    obtain ⟨hhead, htail⟩ := List.cons.inj h
    exact .cons (.pair template ((TypeExpr.equivalent_iff_normal_eq ..).mpr hhead))
      (forall₂_like_zip htail)

theorem ofEntries_like (template : FieldList) {candidate other : FieldList}
    (h : candidate.normalTypes = other.normalTypes) :
    List.Forall₂ Like (ofEntries template candidate) (ofEntries template other) := by
  have hlength : candidate.numFields = other.numFields := by
    rw [← FieldList.length_normalTypes, h, FieldList.length_normalTypes]
  rw [FieldList.normalTypes_eq, FieldList.normalTypes_eq] at h
  unfold ofEntries
  rw [hlength]
  split
  · exact forall₂_like_zip h
  · exact forall₂_like_fail ..

theorem ofField_like {candidate other : FieldList} (h : candidate.normalNamed = other.normalNamed)
    (entry : String × TypeExpr) : Like (ofField candidate entry) (ofField other entry) := by
  have hfind := FieldList.find?_of_normalNamed_eq h entry.1
  unfold ofField
  cases hleft : candidate.find? entry.1 <;> cases hright : other.find? entry.1 <;>
    simp only [hleft, hright, Option.map_some, Option.map_none, reduceCtorEq] at hfind ⊢
  · exact .fail ..
  · exact .pair _ ((TypeExpr.equivalent_iff_normal_eq ..).mpr (Option.some.inj hfind))

theorem ofFields_like (template : FieldList) {candidate other : FieldList}
    (h : candidate.normalNamed = other.normalNamed) :
    List.Forall₂ Like (ofFields template candidate) (ofFields template other) := by
  have hlength : candidate.numFields = other.numFields := by
    rw [← FieldList.length_normalNamed, h, FieldList.length_normalNamed]
  unfold ofFields
  rw [hlength]
  split
  · exact forall₂_like_fail ..
  · rw [List.forall₂_map_left_iff, List.forall₂_map_right_iff]
    exact List.forall₂_same.mpr fun entry _ => ofField_like h entry

/-- **Alike candidates have goals with equivalent candidates.** -/
theorem ofParts_like (template : TypeExpr) {candidate other : TypeExpr}
    (h : candidate.Alike other) :
    List.Forall₂ Like (ofParts template candidate) (ofParts template other) := by
  cases h with
  | name | qualified => exact List.forall₂_same.mpr fun goal _ => .refl goal
  | pointer h =>
    cases template with
    | pointer elem => exact forall₂_like_pair elem h
    | _ => exact forall₂_like_fail ..
  | array length h =>
    cases template with
    | array expected elem =>
      simp only [ofParts]
      split
      · exact forall₂_like_pair elem h
      · exact forall₂_like_fail ..
    | _ => exact forall₂_like_fail ..
  | «variadic» h => cases template <;> exact forall₂_like_fail ..
  | channel direction h =>
    cases template with
    | channel expected value =>
      simp only [ofParts]
      split
      · exact forall₂_like_fail ..
      · exact forall₂_like_pair value h
    | _ => exact forall₂_like_fail ..
  | map hkey hvalue =>
    cases template with
    | map key value => exact .cons (.pair key hkey) (forall₂_like_pair value hvalue)
    | _ => exact forall₂_like_fail ..
  | function hparams hresults =>
    cases template with
    | function params results =>
      exact List.rel_append (ofEntries_like params hparams) (ofEntries_like results hresults)
    | _ => exact forall₂_like_fail ..
  | struct h =>
    cases template with
    | struct fields => exact ofFields_like fields h
    | _ => exact forall₂_like_fail ..
  | interface h => cases template <;> exact forall₂_like_fail ..

end Goal

/-! ## 5. Looking through equivalent candidates -/

/-- A type that is no declared name, once parentheses around it are taken off, is all there is to
    see. -/
theorem Scope.resolve_eq_unparen {scope : Scope} {type : TypeExpr}
    (h : ∀ ident, type.unparen = .name ident → scope.lookup ident = none) :
    scope.resolve type = type.unparen := by
  refine Scope.resolveFrom_eq_unparen _ fun ident decl hname hdecl => ?_
  rw [h ident hname] at hdecl
  cases hdecl

theorem Scope.resolve_of_unparen_ne_name {scope : Scope} {type : TypeExpr}
    (hne : ∀ ident, type.unparen ≠ .name ident) : scope.resolve type = type.unparen :=
  Scope.resolve_eq_unparen fun ident h => absurd h (hne ident)

namespace Matcher

variable {matcher : Matcher}

theorem resolve_of_unparen_ne_name {type : TypeExpr} (hne : ∀ ident, type.unparen ≠ .name ident) :
    matcher.resolve type = type.unparen := by
  unfold Matcher.resolve
  split
  · exact Scope.resolve_of_unparen_ne_name hne
  · rfl

theorem resolve_of_ne_name {type : TypeExpr} (hfree : type.isParenFree = true)
    (hne : ∀ ident, type ≠ .name ident) : matcher.resolve type = type := by
  have hunparen := TypeExpr.unparen_of_isParenFree hfree
  rw [resolve_of_unparen_ne_name (by rwa [hunparen]), hunparen]

/-- **Equivalent candidates are looked through to types of one form.** Names that are equivalent are
    the same name, and any other candidate is seen as it is. -/
theorem resolve_alike (hprovider : matcher.ProviderHas fun type => type.isParenFree = true)
    {a b : TypeExpr} (ha : a.isParenFree = true) (hb : b.isParenFree = true)
    (h : a.equivalent b = true) : (matcher.resolve a).Alike (matcher.resolve b) := by
  by_cases hname : ∃ ident, a = .name ident
  · obtain ⟨ident, rfl⟩ := hname
    rw [TypeExpr.eq_name_of_equivalent hb (TypeExpr.equivalent_comm h)]
    exact .of_equivalent (hprovider _ ha) (hprovider _ ha) (TypeExpr.equivalent_refl _)
  · have hne : ∀ ident, b ≠ .name ident := by
      rintro ident rfl
      exact hname ⟨ident, TypeExpr.eq_name_of_equivalent ha h⟩
    rw [resolve_of_ne_name ha fun ident e => hname ⟨ident, e⟩, resolve_of_ne_name hb hne]
    exact .of_equivalent ha hb h

end Matcher

end GoStencil
