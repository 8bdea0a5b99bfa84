import GoStencil.TypeExpr.Parser
import GoStencil.Proofs.Bindings
import GoStencil.Proofs.Grammar.Trees
import GoStencil.Proofs.TypeExpr.Forms
import Mathlib.Data.List.Basic

/-!
# Every tree of a type is a type

What stands for a type, a list of parameters or a member of a struct is built from a tree. A tree
of another form would be refused, but the slots of the rules leave none.

* `Node.IsReady`: a node that has been read, under which all types can be built.
* `Node.IsReady.exists_parameters`, `extends_fields`, and so on: what is built from such a node.
* `Node.IsRead.isReady`: every node that has been read is one.
-/

namespace GoStencil

open Grammar

variable {node : Node} {nodes : List Node}

/-! ## 1. Lists -/

/-- Whether a list can always be extended by what a node stands for. -/
def Extends (read : List Node → Parsed FieldList) (node : Node) : Prop :=
  ∀ {rest : List Node} {fields : FieldList}, read rest = .ok fields →
    ∃ more, read (node :: rest) = .ok more

theorem exists_of_extends {read : List Node → Parsed FieldList} (hnil : read [] = .ok .nil)
    (h : ∀ node ∈ nodes, Extends read node) : ∃ fields, read nodes = .ok fields := by
  induction nodes with
  | nil => exact ⟨.nil, hnil⟩
  | cons node rest ih =>
    obtain ⟨hnode, hrest⟩ := List.forall_mem_cons.mp h
    obtain ⟨fields, hfields⟩ := ih hrest
    exact hnode hfields

/-- A list of which every item can be built can be built. -/
theorem exists_of_items {item : Rule} {read : List Node → Parsed FieldList}
    (hfits : Fits [.many [item]] nodes) (hnil : read [] = .ok .nil)
    (hitem : ∀ node ∈ nodes, node.rule = item → Extends read node) :
    ∃ fields, read nodes = .ok fields := by
  obtain ⟨items, _, rfl, hrules, rfl⟩ := hfits
  rw [List.append_nil] at hitem ⊢
  exact exists_of_extends hnil fun node hmem =>
    hitem node hmem (List.mem_singleton.mp (hrules node hmem))

/-! ## 2. Nodes over types -/

namespace Grammar

/-- Whether a node has been read and every type under it can be built. -/
structure Node.IsReady (node : Node) : Prop where
  read : node.IsRead
  types : ∀ inner, node.Holds inner → inner.rule = .typeExpr →
    ∃ type, TypeExpr.ofNode inner = .ok type

namespace Node.IsReady

theorem child {child : Node} (h : node.IsReady) (hmem : child ∈ node.children) :
    child.IsReady where
  read := h.read.child child hmem
  types inner hinner := h.types inner ((Node.Holds.self.child hmem).trans hinner)

/-- Where the first slot of a rule is for types, the first child stands for one. -/
theorem exists_type {slots : List Slot} (h : node.IsReady)
    (hfits : Fits (.one [.typeExpr] :: slots) node.children) :
    ∃ inner rest type, node.children = inner :: rest ∧ TypeExpr.ofNode inner = .ok type ∧
      Fits slots rest := by
  obtain ⟨inner, rest, hchildren, hrule, hrest⟩ := hfits
  obtain ⟨type, htype⟩ := (h.child (hchildren ▸ List.mem_cons_self)).types inner .self
    (List.mem_singleton.mp hrule)
  exact ⟨inner, rest, type, hchildren, htype, hrest⟩

theorem exists_typeName (h : node.IsReady)
    (hrule : node.rule ∈ [Rule.qualifiedIdent, .typeName]) :
    ∃ type, TypeExpr.ofNode node = .ok type := by
  obtain ⟨rule, start, stop, children⟩ := node
  rcases List.mem_pair.mp hrule with rfl | rfl
  · have hfits : Fits [.one [.identifier], .one [.identifier]] children := h.read.fits_of rfl rfl
    obtain ⟨package, _, rfl, -, ident, _, rfl, -, rfl⟩ := hfits
    exact ⟨_, by rw [TypeExpr.ofNode]⟩
  · have hfits : Fits [.one [.identifier]] children := h.read.fits_of rfl rfl
    obtain ⟨ident, _, rfl, -, rfl⟩ := hfits
    exact ⟨_, by rw [TypeExpr.ofNode]⟩

/-! ### Signatures -/

theorem exists_paramType (h : node.IsReady) (hrule : node.rule = .paramType) :
    ∃ inner rest type, node.children = inner :: rest ∧ TypeExpr.ofNode inner = .ok type := by
  have hfits : Fits [.one [.variadicType, .typeExpr]] node.children := h.read.fits_of hrule rfl
  obtain ⟨inner, rest, hchildren, hform, -⟩ := hfits
  have hinner := h.child (hchildren ▸ List.mem_cons_self)
  rcases List.mem_pair.mp hform with hform | hform
  · obtain ⟨rule, start, stop, parts⟩ := inner
    cases hform
    obtain ⟨elem, _, type, rfl, htype, -⟩ := hinner.exists_type (hinner.read.fits_of rfl rfl)
    exact ⟨_, rest, .variadic type, hchildren, by rw [TypeExpr.ofNode, htype]; rfl⟩
  · obtain ⟨type, htype⟩ := hinner.types inner .self hform
    exact ⟨inner, rest, type, hchildren, htype⟩

theorem extends_parameters (h : node.IsReady) (hrule : node.rule = .parameterDecl) :
    Extends FieldList.ofParameters node := by
  intro rest fields hfields
  obtain ⟨rule, start, stop, children⟩ := node
  cases hrule
  have hfits : Fits [.one [.namedParameter, .paramType]] children := h.read.fits_of rfl rfl
  obtain ⟨⟨rule, first, last, parts⟩, more, rfl, hform, -⟩ := hfits
  have hform' := h.child List.mem_cons_self
  rcases List.mem_pair.mp hform with rfl | rfl
  · have hfits : Fits [.one [.identifierList], .one [.paramType]] parts :=
      hform'.read.fits_of rfl rfl
    obtain ⟨names, _, rfl, -, ⟨_, _, _, paramType⟩, _, rfl, hparam, -⟩ := hfits
    obtain ⟨inner, _, type, hchildren, htype⟩ :=
      (hform'.child (List.mem_cons_of_mem _ List.mem_cons_self)).exists_paramType
        (List.mem_singleton.mp hparam)
    cases hchildren
    exact ⟨_, by rw [FieldList.ofParameters, htype, hfields]; rfl⟩
  · obtain ⟨inner, _, type, hchildren, htype⟩ := hform'.exists_paramType rfl
    cases hchildren
    exact ⟨_, by rw [FieldList.ofParameters, htype, hfields]; rfl⟩

theorem exists_parameters (h : node.IsReady) (hrule : node.rule = .parameters) :
    ∃ fields, FieldList.ofParameters node.children = .ok fields := by
  have hfits : Fits [.many [.parameterDecl]] node.children := h.read.fits_of hrule rfl
  exact exists_of_items hfits (by rw [FieldList.ofParameters]) fun child hmem hchild =>
    (h.child hmem).extends_parameters hchild

theorem exists_results (h : node.IsReady) (hrule : node.rule = .result) :
    ∃ fields, FieldList.ofResults [node] = .ok fields := by
  obtain ⟨rule, start, stop, children⟩ := node
  cases hrule
  have hfits : Fits [.one [.parameters, .typeExpr]] children := h.read.fits_of rfl rfl
  obtain ⟨⟨rule, first, last, parts⟩, _, rfl, hform, -⟩ := hfits
  have hform' := h.child List.mem_cons_self
  rcases List.mem_pair.mp hform with rfl | rfl
  · obtain ⟨fields, hfields⟩ := hform'.exists_parameters rfl
    exact ⟨fields, by rw [FieldList.ofResults]; exact hfields⟩
  · obtain ⟨type, htype⟩ := hform'.types _ .self rfl
    exact ⟨_, by rw [FieldList.ofResults, htype]; rfl⟩

/-- What stands for a signature has parameters in front, and results after them. -/
theorem exists_signature (h : node.IsReady) (hrule : node.rule = .signature) :
    ∃ rule first last parts rest params results,
      node.children = ⟨rule, first, last, parts⟩ :: rest ∧
        FieldList.ofParameters parts = .ok params ∧ FieldList.ofResults rest = .ok results := by
  have hfits : Fits [.one [.parameters], .opt [.result]] node.children := h.read.fits_of hrule rfl
  obtain ⟨⟨rule, first, last, parts⟩, rest, hchildren, hparams, hrest⟩ := hfits
  obtain ⟨params, hparams⟩ := (h.child (hchildren ▸ List.mem_cons_self)).exists_parameters
    (List.mem_singleton.mp hparams)
  have hresults : ∃ results, FieldList.ofResults rest = .ok results := by
    rcases hrest with rfl | ⟨result, _, rfl, hresult, rfl⟩
    · exact ⟨.nil, by rw [FieldList.ofResults]⟩
    · exact (h.child (hchildren ▸ List.mem_cons_of_mem _ List.mem_cons_self)).exists_results
        (List.mem_singleton.mp hresult)
  obtain ⟨results, hresults⟩ := hresults
  exact ⟨rule, first, last, parts, rest, params, results, hchildren, hparams, hresults⟩

/-! ### Fields and members -/

theorem extends_fields (h : node.IsReady) (hrule : node.rule = .fieldDecl) :
    Extends FieldList.ofFields node := by
  intro rest fields hfields
  obtain ⟨rule, start, stop, children⟩ := node
  cases hrule
  have hfits : Fits [.one [.namedField, .embeddedField], .opt [.fieldTag]] children :=
    h.read.fits_of rfl rfl
  obtain ⟨⟨rule, first, last, parts⟩, tag, rfl, hform, -⟩ := hfits
  have hform' := h.child List.mem_cons_self
  rcases List.mem_pair.mp hform with rfl | rfl
  · have hfits : Fits [.one [.identifierList], .one [.typeExpr]] parts :=
      hform'.read.fits_of rfl rfl
    obtain ⟨names, _, rfl, -, inner, _, rfl, hinner, -⟩ := hfits
    obtain ⟨type, htype⟩ := (hform'.child (List.mem_cons_of_mem _ List.mem_cons_self)).types _
      .self (List.mem_singleton.mp hinner)
    exact ⟨_, by rw [FieldList.ofFields, htype, hfields]; rfl⟩
  · have hfits : Fits [.opt [.embeddedPointer], .one [.qualifiedIdent, .typeName]] parts :=
      hform'.read.fits_of rfl rfl
    rcases hfits with ⟨⟨rule, _, _, _⟩, _, rfl, hname, -⟩ |
      ⟨⟨_, _, _, _⟩, _, rfl, hpointer, inner, _, rfl, hinner, -⟩
    · obtain ⟨type, htype⟩ := (hform'.child List.mem_cons_self).exists_typeName hname
      have hplain : rule ≠ .embeddedPointer := by
        rcases List.mem_pair.mp hname with rfl | rfl <;> decide
      rw [FieldList.ofFields, htype, hfields]
      · exact ⟨_, rfl⟩
      · intro _ _ _ _ _ h
        cases h
        exact absurd rfl hplain
    · cases List.mem_singleton.mp hpointer
      obtain ⟨type, htype⟩ :=
        (hform'.child (List.mem_cons_of_mem _ List.mem_cons_self)).exists_typeName hinner
      exact ⟨_, by rw [FieldList.ofFields, htype, hfields]; rfl⟩

theorem extends_members (h : node.IsReady) (hrule : node.rule = .methodSpec) :
    Extends FieldList.ofMembers node := by
  intro rest fields hfields
  obtain ⟨rule, start, stop, children⟩ := node
  cases hrule
  have hfits : Fits [.one [.methodElem, .embeddedElem]] children := h.read.fits_of rfl rfl
  obtain ⟨⟨rule, first, last, parts⟩, _, rfl, hform, -⟩ := hfits
  have hform' := h.child List.mem_cons_self
  rcases List.mem_pair.mp hform with rfl | rfl
  · have hfits : Fits [.one [.identifier], .one [.signature]] parts := hform'.read.fits_of rfl rfl
    obtain ⟨name, _, rfl, -, ⟨_, _, _, parts⟩, _, rfl, hsignature, -⟩ := hfits
    obtain ⟨_, _, _, _, _, params, results, hchildren, hparams, hresults⟩ :=
      (hform'.child (List.mem_cons_of_mem _ List.mem_cons_self)).exists_signature
        (List.mem_singleton.mp hsignature)
    cases hchildren
    exact ⟨_, by rw [FieldList.ofMembers, hparams, hresults, hfields]; rfl⟩
  · have hfits : Fits [.one [.qualifiedIdent, .typeName]] parts := hform'.read.fits_of rfl rfl
    obtain ⟨inner, _, rfl, hinner, -⟩ := hfits
    obtain ⟨type, htype⟩ := (hform'.child List.mem_cons_self).exists_typeName hinner
    exact ⟨_, by rw [FieldList.ofMembers, htype, hfields]; rfl⟩

/-! ### Forms -/

theorem exists_form (h : node.IsReady) (hrule : node.rule ∈ typeForms) :
    ∃ type, TypeExpr.ofNode node = .ok type := by
  obtain ⟨rule, start, stop, children⟩ := node
  simp only [typeForms, namelessForms, List.cons_append, List.nil_append, List.mem_cons,
    List.not_mem_nil, or_false] at hrule
  rcases hrule with rfl | rfl | rfl | rfl | rfl | rfl | rfl | rfl | rfl | rfl | rfl | rfl
  · obtain ⟨elem, _, type, rfl, htype, -⟩ := h.exists_type (h.read.fits_of rfl rfl)
    exact ⟨.pointer type, by rw [TypeExpr.ofNode, htype]; rfl⟩
  · obtain ⟨elem, _, type, rfl, htype, -⟩ := h.exists_type (h.read.fits_of rfl rfl)
    exact ⟨.array none type, by rw [TypeExpr.ofNode, htype]; rfl⟩
  · have hfits : Fits [.one [.arrayLen], .one [.typeExpr]] children := h.read.fits_of rfl rfl
    obtain ⟨length, _, rfl, -, elem, _, rfl, helem, -⟩ := hfits
    obtain ⟨type, htype⟩ := (h.child (List.mem_cons_of_mem _ List.mem_cons_self)).types _ .self
      (List.mem_singleton.mp helem)
    exact ⟨_, by rw [TypeExpr.ofNode, htype]; rfl⟩
  · have hfits : Fits [.one [.typeExpr], .one [.typeExpr]] children := h.read.fits_of rfl rfl
    obtain ⟨key, _, keyType, rfl, hkey, value, _, rfl, hvalue, -⟩ := h.exists_type hfits
    obtain ⟨type, htype⟩ := (h.child (List.mem_cons_of_mem _ List.mem_cons_self)).types _ .self
      (List.mem_singleton.mp hvalue)
    exact ⟨.map keyType type, by rw [TypeExpr.ofNode, hkey, htype]; rfl⟩
  · obtain ⟨value, _, type, rfl, htype, -⟩ := h.exists_type (h.read.fits_of rfl rfl)
    exact ⟨.channel .receive type, by rw [TypeExpr.ofNode, htype]; rfl⟩
  · have hfits : Fits [.opt [.sendArrow], .one [.typeExpr]] children := h.read.fits_of rfl rfl
    rcases hfits with hfits | ⟨⟨_, _, _, _⟩, _, rfl, harrow, value, _, rfl, hvalue, -⟩
    · obtain ⟨⟨_, _, _, _⟩, _, rfl, hvalue, -⟩ := hfits
      cases List.mem_singleton.mp hvalue
      obtain ⟨type, htype⟩ := (h.child List.mem_cons_self).types _ .self rfl
      rw [TypeExpr.ofNode, htype]
      · exact ⟨.channel .both type, rfl⟩
      · intro _ _ _ _ _ harrow
        cases harrow
    · cases List.mem_singleton.mp harrow
      obtain ⟨type, htype⟩ := (h.child (List.mem_cons_of_mem _ List.mem_cons_self)).types _ .self
        (List.mem_singleton.mp hvalue)
      exact ⟨.channel .send type, by rw [TypeExpr.ofNode, htype]; rfl⟩
  · have hfits : Fits [.one [.signature]] children := h.read.fits_of rfl rfl
    obtain ⟨⟨_, _, _, parts⟩, _, rfl, hsignature, -⟩ := hfits
    obtain ⟨_, _, _, _, _, params, results, hchildren, hparams, hresults⟩ :=
      (h.child List.mem_cons_self).exists_signature (List.mem_singleton.mp hsignature)
    cases hchildren
    exact ⟨.function params results, by rw [TypeExpr.ofNode, hparams, hresults]; rfl⟩
  · have hfits : Fits [.many [.fieldDecl]] children := h.read.fits_of rfl rfl
    obtain ⟨fields, hfields⟩ : ∃ fields, FieldList.ofFields children = .ok fields :=
      exists_of_items hfits (by rw [FieldList.ofFields]) fun child hmem hchild =>
        (h.child hmem).extends_fields hchild
    exact ⟨.struct fields, by rw [TypeExpr.ofNode, hfields]; rfl⟩
  · have hfits : Fits [.many [.methodSpec]] children := h.read.fits_of rfl rfl
    obtain ⟨members, hmembers⟩ : ∃ members, FieldList.ofMembers children = .ok members :=
      exists_of_items hfits (by rw [FieldList.ofMembers]) fun child hmem hchild =>
        (h.child hmem).extends_members hchild
    exact ⟨.interface members, by rw [TypeExpr.ofNode, hmembers]; rfl⟩
  · obtain ⟨inner, _, type, rfl, htype, -⟩ := h.exists_type (h.read.fits_of rfl rfl)
    exact ⟨.paren type, by rw [TypeExpr.ofNode, htype]; rfl⟩
  · exact h.exists_typeName List.mem_cons_self
  · exact h.exists_typeName (List.mem_cons_of_mem _ List.mem_cons_self)

end Node.IsReady

/-- **Every type in what has been read can be built.** -/
theorem Node.IsRead.isReady (h : node.IsRead) : node.IsReady := by
  induction node using Node.induction with
  | step node ih =>
    have hchildren : ∀ child ∈ node.children, child.IsReady := fun child hmem =>
      ih child hmem (h.child child hmem)
    refine ⟨h, fun inner hinner hrule => ?_⟩
    rcases Node.holds_iff.mp hinner with rfl | ⟨child, hmem, hinner⟩
    · have hfits : Fits [.one typeForms] inner.children := h.fits_of hrule rfl
      obtain ⟨form, rest, hform, hrules, -⟩ := hfits
      obtain ⟨type, htype⟩ := (hchildren form (hform ▸ List.mem_cons_self)).exists_form hrules
      obtain ⟨rule, start, stop, children⟩ := inner
      cases hrule
      cases hform
      exact ⟨type, by rw [TypeExpr.ofNode, htype]⟩
    · exact (hchildren child hmem).types inner hinner hrule

end Grammar

end GoStencil
