import GoStencil.TypeExpr.Parser
import GoStencil.Proofs.Bindings
import GoStencil.Proofs.TypeExpr.Forms
import GoStencil.Proofs.TypeExpr.Tokens

/-!
# Types that are parsed

What the grammar reads as a type has names for names, literals for tags, and any number of
arguments in parameters and results only. Such a type is read back from what is written of it,
unless it needs parentheses that are not written or the text of a length is left out.

* `TypeExpr.IsParsed`: the shape of a type that has been read.
* `TypeExpr.isWritable`: what else it must be like to be written as itself.
* `TypeExpr.IsParsed.isReadable_and_reread`: then it is read again, as itself.
* `eq_formOf`, `isParsed_pointer`, and so on: what is read by the rule of a form has the shape.
-/

namespace GoStencil

open Grammar

/-! ## 1. The shape of types -/

/-- Whether a type is as the grammar builds it. -/
inductive TypeExpr.IsParsed : TypeExpr → Prop where
  | name {ident : String} (h : isName ident = true) : IsParsed (.name ident)
  | qualified {package ident : String} (hpackage : isName package = true)
      (hident : isName ident = true) : IsParsed (.qualified package ident)
  | pointer {elem : TypeExpr} (h : IsParsed elem) : IsParsed (.pointer elem)
  | slice {elem : TypeExpr} (h : IsParsed elem) : IsParsed (.array none elem)
  | array {length : String} {elem : TypeExpr} (hlength : IsLength length)
      (h : IsParsed elem) : IsParsed (.array (some length) elem)
  | paren {inner : TypeExpr} (h : IsParsed inner) : IsParsed (.paren inner)
  | channel {direction : Direction} {value : TypeExpr}
      (hparens : needsParens direction value = false) (h : IsParsed value) :
      IsParsed (.channel direction value)
  | map {key value : TypeExpr} (hkey : IsParsed key) (hvalue : IsParsed value) :
      IsParsed (.map key value)
  | function {params results : FieldList} (hparams : params.AreEntries)
      (hresults : results.AreEntries)
      (hparamTypes : ∀ field ∈ params.toList, IsParsed field.type.variadicElem)
      (hresultTypes : ∀ field ∈ results.toList, IsParsed field.type.variadicElem) :
      IsParsed (.function params results)
  | struct {fields : FieldList} (hfields : ∀ field ∈ fields.toList, field.IsStructField)
      (htypes : ∀ field ∈ fields.toList, IsParsed field.type) : IsParsed (.struct fields)
  | interface {members : FieldList} (hmembers : ∀ field ∈ members.toList, field.IsMember)
      (htypes : ∀ field ∈ members.toList, IsParsed field.type) : IsParsed (.interface members)

theorem TypeExpr.IsParsed.variadicElem_eq {type : TypeExpr} (h : type.IsParsed) :
    type.variadicElem = type := by
  cases h <;> rfl

/-- Whether a list of parameters or results is as the grammar builds it. -/
structure FieldList.IsParsed (fields : FieldList) : Prop where
  shape : fields.AreEntries
  types : ∀ field ∈ fields.toList, field.type.variadicElem.IsParsed

/-! ## 2. Types that are written as themselves -/

/-- Whether a length is read as such when it stands after a bracket: there it must not be a
    comment. -/
def isPlainLength (length : String) : Bool :=
  !length.toList.isEmpty && !List.isPrefixOf ['/', '/'] length.toList &&
    !List.isPrefixOf ['/', '*'] length.toList

/-- Whether some results do without the parentheses that are not written around a single type. -/
def FieldList.doWithoutParens : FieldList → Bool
  | .cons [] (.variadic _) _ .nil | .cons [] (.paren _) _ .nil => false
  | _ => true

/-- Whether a type that has been read is written as itself, as far as the types in it are. -/
def TypeExpr.isWritable : TypeExpr → Bool
  | .array (some length) _ => isPlainLength length
  | .function _ results => results.doWithoutParens
  | _ => true

theorem isArrayLength_of_isLength {length : String} (h : IsLength length)
    (hplain : isPlainLength length = true) : isArrayLength length = true := by
  simp only [isPlainLength, Bool.and_eq_true, Bool.not_eq_true'] at hplain
  obtain ⟨⟨hne, hline⟩, hblock⟩ := hplain
  simp only [isArrayLength, hne, hline, hblock, h.trimmed, BEq.rfl, Bool.not_false, Bool.true_and,
    Bool.and_true, List.all_eq_true]
  intro c hc
  obtain ⟨hbracket, hend⟩ := h.chars c hc
  obtain ⟨hfeed, hreturn⟩ := Bool.or_eq_false_iff.mp hend
  simp [bne, hbracket, hfeed, hreturn]

/-- A list is read as itself if its types are. -/
theorem FieldList.reread_eq_of_forall : ∀ {fields : FieldList},
    (∀ field ∈ fields.toList, field.type.reread = field.type) → fields.reread = fields
  | .nil, _ => rfl
  | .cons _ _ _ rest, h => by
    obtain ⟨htype, hrest⟩ := List.forall_mem_cons.mp h
    rw [reread, htype, reread_eq_of_forall hrest]

theorem FieldList.unwrapSingle_eq {results : FieldList} (h : results.doWithoutParens = true) :
    results.unwrapSingle = results := by
  unfold unwrapSingle
  split
  · cases h
  · rfl

namespace TypeExpr

theorem everywhere_variadicElem {p : TypeExpr → Bool} {type : TypeExpr}
    (h : type.everywhere p = true) : type.variadicElem.everywhere p = true := by
  cases type with
  | «variadic» elem => exact (Bool.and_eq_true_iff.mp h).2
  | _ => exact h

theorem reread_eq_of_variadicElem {type : TypeExpr}
    (h : type.variadicElem.reread = type.variadicElem) : type.reread = type := by
  cases type with
  | «variadic» elem => exact congrArg TypeExpr.variadic h
  | _ => exact h

/-- **A type that has been read is read again** from its text, unless it needs parentheses that
    are not written, or has a length that is none by itself. -/
theorem IsParsed.isReadable_and_reread {type : TypeExpr} (h : type.IsParsed)
    (hwritable : type.everywhere isWritable = true) :
    type.IsReadable ∧ type.reread = type := by
  induction h with
  | name h => exact ⟨.name h, rfl⟩
  | qualified hpackage hident => exact ⟨.qualified hpackage hident, rfl⟩
  | pointer _ ih =>
    obtain ⟨helem, hsame⟩ := ih (Bool.and_eq_true_iff.mp hwritable).2
    exact ⟨.pointer helem, congrArg TypeExpr.pointer hsame⟩
  | slice _ ih =>
    obtain ⟨helem, hsame⟩ := ih (Bool.and_eq_true_iff.mp hwritable).2
    exact ⟨.slice helem, congrArg (TypeExpr.array none) hsame⟩
  | array hlength _ ih =>
    obtain ⟨hplain, hinside⟩ := Bool.and_eq_true_iff.mp hwritable
    obtain ⟨helem, hsame⟩ := ih hinside
    exact ⟨.array (isArrayLength_of_isLength hlength hplain) helem,
      congrArg (TypeExpr.array _) hsame⟩
  | paren _ ih =>
    obtain ⟨hinner, hsame⟩ := ih (Bool.and_eq_true_iff.mp hwritable).2
    exact ⟨.paren hinner, congrArg TypeExpr.paren hsame⟩
  | channel hparens _ ih =>
    obtain ⟨hvalue, hsame⟩ := ih (Bool.and_eq_true_iff.mp hwritable).2
    refine ⟨.channel hvalue, ?_⟩
    rw [reread, hparens, if_neg Bool.false_ne_true, hsame]
  | map _ _ ihkey ihvalue =>
    obtain ⟨hinkey, hinvalue⟩ :=
      Bool.and_eq_true_iff.mp (Bool.and_eq_true_iff.mp hwritable).2
    obtain ⟨hkey, hsame⟩ := ihkey hinkey
    obtain ⟨hvalue, hsame'⟩ := ihvalue hinvalue
    refine ⟨.map hkey hvalue, ?_⟩
    rw [reread, hsame, hsame']
  | @function params results hparams hresults _ _ ihparams ihresults =>
    obtain ⟨hresult, hinside⟩ := Bool.and_eq_true_iff.mp hwritable
    obtain ⟨hinparams, hinresults⟩ := Bool.and_eq_true_iff.mp hinside
    have hparamTypes := fun field hmem => ihparams field hmem
      (everywhere_variadicElem (FieldList.everywhere_iff.mp hinparams field hmem))
    have hresultTypes := fun field hmem => ihresults field hmem
      (everywhere_variadicElem (FieldList.everywhere_iff.mp hinresults field hmem))
    refine ⟨.function hparams hresults ?_ (fun field hmem => (hparamTypes field hmem).1)
      fun field hmem => (hresultTypes field hmem).1, ?_⟩
    · rintro elem tag rfl
      cases hresult
    · rw [reread,
        FieldList.reread_eq_of_forall fun field hmem =>
          reread_eq_of_variadicElem (hparamTypes field hmem).2,
        FieldList.reread_eq_of_forall fun field hmem =>
          reread_eq_of_variadicElem (hresultTypes field hmem).2,
        FieldList.unwrapSingle_eq hresult]
  | struct hfields _ ih =>
    have htypes := fun field hmem => ih field hmem
      (FieldList.everywhere_iff.mp (Bool.and_eq_true_iff.mp hwritable).2 field hmem)
    exact ⟨.struct hfields fun field hmem => (htypes field hmem).1, congrArg TypeExpr.struct
      (FieldList.reread_eq_of_forall fun field hmem => (htypes field hmem).2)⟩
  | interface hmembers _ ih =>
    have htypes := fun field hmem => ih field hmem
      (FieldList.everywhere_iff.mp (Bool.and_eq_true_iff.mp hwritable).2 field hmem)
    exact ⟨.interface hmembers fun field hmem => (htypes field hmem).1,
      congrArg TypeExpr.interface
        (FieldList.reread_eq_of_forall fun field hmem => (htypes field hmem).2)⟩

end TypeExpr

end GoStencil

namespace GoStencil.Grammar

open Pattern

variable {mode : Mode} {cursor last : Cursor} {nodes : List Node} {node : Node} {bound : Nat}

/-! ## 3. Forms -/

/-- Whether the types that are read with less text left than the bound have the shape. -/
def ParsesTypes (bound : Nat) : Prop :=
  ∀ {node : Node} {type : TypeExpr}, IsReadBy .spaced .typeExpr bound node →
    TypeExpr.ofNode node = .ok type → type.IsParsed

/-- The rule that reads types of the form. -/
def formOf : TypeExpr → Rule
  | .name _ => .typeName
  | .qualified _ _ => .qualifiedIdent
  | .pointer _ => .pointerType
  | .array none _ => .sliceType
  | .array (some _) _ => .arrayType
  | .variadic _ => .variadicType
  | .paren _ => .parenType
  | .channel .receive _ => .recvChanType
  | .channel _ _ => .chanType
  | .map _ _ => .mapType
  | .function _ _ => .funcType
  | .struct _ => .structType
  | .interface _ => .interfaceType

/-- The form of a type is that of its node. -/
theorem eq_formOf {type : TypeExpr} {form : Rule} {start stop : Cursor} {children : List Node}
    (hform : form ≠ .typeExpr) (h : TypeExpr.ofNode ⟨form, start, stop, children⟩ = .ok type) :
    form = formOf type := by
  unfold TypeExpr.ofNode at h
  split at h <;> rename_i hnode <;> cases hnode
  case h_1 => exact absurd rfl hform
  case h_2 | h_3 =>
    cases h
    rfl
  case h_7 | h_11 =>
    obtain ⟨_, -, h⟩ := bind_eq_ok.mp h
    obtain ⟨_, -, h⟩ := bind_eq_ok.mp h
    cases h
    rfl
  case h_16 => cases h
  all_goals
    obtain ⟨_, -, h⟩ := bind_eq_ok.mp h
    cases h
    rfl

/-- A type is read by the rule of its form. -/
theorem exists_form (h : IsReadBy .spaced .typeExpr bound node) :
    ∃ form children, form ∈ typeForms ∧
      node = ⟨.typeExpr, node.start, node.stop, [⟨form, node.start, node.stop, children⟩]⟩ ∧
      declarations.Reads ((ruleKind form).inside .spaced) (ruleBody form) node.start
        (some (children, node.stop)) := by
  obtain ⟨_, hnode, hbody⟩ := h.exists_children nofun
  have hsome : ∃ pattern ∈ typeForms.map Pattern.call, declarations.Reads .spaced pattern
      node.start _ := Reads.of_oneOf (List.cons_ne_nil _ _) hbody
  obtain ⟨pattern, hmem, hread⟩ := hsome
  obtain ⟨form, hform, rfl⟩ := List.mem_map.mp hmem
  obtain ⟨children, rfl, hchildren⟩ := hread.of_call nofun
  exact ⟨form, children, hform, hnode, hchildren⟩

theorem exists_form_of_ofNode {type : TypeExpr} (h : IsReadBy .spaced .typeExpr bound node)
    (htype : TypeExpr.ofNode node = .ok type) :
    ∃ children, formOf type ∈ typeForms ∧
      TypeExpr.ofNode ⟨formOf type, node.start, node.stop, children⟩ = .ok type ∧
      declarations.Reads ((ruleKind (formOf type)).inside .spaced) (ruleBody (formOf type))
        node.start (some (children, node.stop)) := by
  obtain ⟨form, children, hform, hnode, hread⟩ := exists_form h
  rw [hnode, TypeExpr.ofNode] at htype
  obtain rfl := eq_formOf (fun h => by subst h; revert hform; decide) htype
  exact ⟨children, hform, htype, hread⟩

section Forms

variable {type : TypeExpr} {start stop : Cursor} {children : List Node}

theorem isParsed_pointer (htypes : ParsesTypes start.rest.length)
    (h : declarations.Reads .spaced (ruleBody .pointerType) start (some (children, stop)))
    (htype : TypeExpr.ofNode ⟨.pointerType, start, stop, children⟩ = .ok type) :
    type.IsParsed := by
  obtain ⟨_, next, hstar, hgap, h⟩ := h.of_seq_silent rfl
  obtain ⟨elem, rfl, -, -, helem⟩ :=
    h.exists_one nofun (hstar.length_lt_of_gap rfl hgap (Nat.le_refl _))
  rw [TypeExpr.ofNode] at htype
  obtain ⟨elemType, helemType, htype⟩ := bind_eq_ok.mp htype
  cases htype
  exact .pointer (htypes helem helemType)

theorem isParsed_slice (htypes : ParsesTypes start.rest.length)
    (h : declarations.Reads .spaced (ruleBody .sliceType) start (some (children, stop)))
    (htype : TypeExpr.ofNode ⟨.sliceType, start, stop, children⟩ = .ok type) :
    type.IsParsed := by
  obtain ⟨_, next, hopen, hgap, h⟩ := h.of_seq_silent rfl
  obtain ⟨_, after, hclose, hgap', h⟩ := h.of_seq_silent rfl
  have hlt := hopen.length_lt_of_gap rfl hgap (Nat.le_refl _)
  obtain ⟨elem, rfl, -, -, helem⟩ := h.exists_one nofun (hclose.length_le_of_gap hgap' hlt)
  rw [TypeExpr.ofNode] at htype
  obtain ⟨elemType, helemType, htype⟩ := bind_eq_ok.mp htype
  cases htype
  exact .slice (htypes helem helemType)

theorem isParsed_array (htypes : ParsesTypes start.rest.length)
    (h : declarations.Reads .spaced (ruleBody .arrayType) start (some (children, stop)))
    (htype : TypeExpr.ofNode ⟨.arrayType, start, stop, children⟩ = .ok type) :
    type.IsParsed := by
  obtain ⟨_, next, hopen, hgap, h⟩ := h.of_seq_silent rfl
  have hlt := hopen.length_lt_of_gap rfl hgap (Nat.le_refl _)
  obtain ⟨_, _, _, _, hlength, hgap, hrest, rfl⟩ := h.of_seq
  obtain ⟨length, rfl, -, -, hlengthNode⟩ := hlength.exists_one nofun hlt
  have hlt := hlength.length_le_of_gap hgap hlt
  obtain ⟨_, _, hclose, hgap, hrest⟩ := hrest.of_seq_silent rfl
  obtain ⟨elem, rfl, -, -, helem⟩ := hrest.exists_one nofun (hclose.length_le_of_gap hgap hlt)
  rw [List.singleton_append, TypeExpr.ofNode] at htype
  obtain ⟨elemType, helemType, htype⟩ := bind_eq_ok.mp htype
  cases htype
  exact .array (isLength_of_reads hlengthNode nofun) (htypes helem helemType)

theorem isParsed_map (htypes : ParsesTypes start.rest.length)
    (h : declarations.Reads .spaced (ruleBody .mapType) start (some (children, stop)))
    (htype : TypeExpr.ofNode ⟨.mapType, start, stop, children⟩ = .ok type) :
    type.IsParsed := by
  obtain ⟨_, _, hword, hgap, h⟩ := h.of_seq_silent rfl
  have hlt := hword.length_lt_of_gap rfl hgap (Nat.le_refl _)
  obtain ⟨_, _, hopen, hgap, h⟩ := h.of_seq_silent rfl
  have hlt := hopen.length_le_of_gap hgap hlt
  obtain ⟨_, _, _, _, hkey, hgap, hrest, rfl⟩ := h.of_seq
  obtain ⟨key, rfl, -, -, hkeyNode⟩ := hkey.exists_one nofun hlt
  have hlt := hkey.length_le_of_gap hgap hlt
  obtain ⟨_, _, hclose, hgap, hrest⟩ := hrest.of_seq_silent rfl
  obtain ⟨value, rfl, -, -, hvalue⟩ := hrest.exists_one nofun (hclose.length_le_of_gap hgap hlt)
  rw [List.singleton_append, TypeExpr.ofNode] at htype
  obtain ⟨keyType, hkeyType, htype⟩ := bind_eq_ok.mp htype
  obtain ⟨valueType, hvalueType, htype⟩ := bind_eq_ok.mp htype
  cases htype
  exact .map (htypes hkeyNode hkeyType) (htypes hvalue hvalueType)

theorem isParsed_recvChan (htypes : ParsesTypes start.rest.length)
    (h : declarations.Reads .spaced (ruleBody .recvChanType) start (some (children, stop)))
    (htype : TypeExpr.ofNode ⟨.recvChanType, start, stop, children⟩ = .ok type) :
    type.IsParsed := by
  obtain ⟨_, _, harrow, hgap, h⟩ := h.of_seq_silent rfl
  have hlt := harrow.length_lt_of_gap rfl hgap (Nat.le_refl _)
  obtain ⟨_, _, hword, hgap, h⟩ := h.of_seq_silent rfl
  obtain ⟨value, rfl, -, -, hvalue⟩ := h.exists_one nofun (hword.length_le_of_gap hgap hlt)
  rw [TypeExpr.ofNode] at htype
  obtain ⟨valueType, hvalueType, htype⟩ := bind_eq_ok.mp htype
  cases htype
  exact .channel rfl (htypes hvalue hvalueType)

theorem isParsed_chan (htypes : ParsesTypes start.rest.length)
    (h : declarations.Reads .spaced (ruleBody .chanType) start (some (children, stop)))
    (htype : TypeExpr.ofNode ⟨.chanType, start, stop, children⟩ = .ok type) :
    type.IsParsed := by
  obtain ⟨_, next, hword, hgap, h⟩ := h.of_seq_silent rfl
  have hlt := hword.length_lt_of_gap rfl hgap (Nat.le_refl _)
  obtain ⟨_, _, _, _, harrow, hgap', hrest, rfl⟩ := h.of_seq
  obtain ⟨value, rfl, hstart, -, hvalue⟩ :=
    hrest.exists_one nofun (harrow.length_le_of_gap hgap' hlt)
  rcases harrow.of_opt with harrow | ⟨rfl, rfl, harrow⟩
  · obtain ⟨_, rfl, -⟩ := harrow.of_call nofun
    rw [List.singleton_append, TypeExpr.ofNode] at htype
    obtain ⟨valueType, hvalueType, htype⟩ := bind_eq_ok.mp htype
    cases htype
    exact .channel rfl (htypes hvalue hvalueType)
  · obtain ⟨_, hnode, -⟩ := hvalue.exists_children nofun
    rw [List.nil_append, hnode, TypeExpr.ofNode, ← hnode] at htype
    · obtain ⟨valueType, hvalueType, htype⟩ := bind_eq_ok.mp htype
      cases htype
      refine .channel (Bool.eq_false_iff.mpr fun hparens => ?_) (htypes hvalue hvalueType)
      obtain ⟨received, rfl⟩ : ∃ received, valueType = .channel .receive received := by
        unfold needsParens at hparens
        split at hparens
        · exact ⟨_, rfl⟩
        · cases hparens
      -- the arrow of the value would have been taken for that of the channel
      obtain ⟨_, -, -, hread⟩ := exists_form_of_ofNode hvalue hvalueType
      obtain ⟨_, _, hvalueArrow, -⟩ := hread.of_seq_silent rfl
      have hstart := hstart.trans (hgap.eq_of_gap_gap hgap')
      rw [hstart] at hvalueArrow
      exact harrow.call_fails.literal_fails ⟨_, hvalueArrow.of_literal.2.1.symm⟩
    · intro _ _ _ _ _ hsend
      cases hsend

theorem isParsed_paren (htypes : ParsesTypes start.rest.length)
    (h : declarations.Reads .spaced (ruleBody .parenType) start (some (children, stop)))
    (htype : TypeExpr.ofNode ⟨.parenType, start, stop, children⟩ = .ok type) :
    type.IsParsed := by
  obtain ⟨_, _, hopen, hgap, h⟩ := h.of_seq_silent rfl
  have hlt := hopen.length_lt_of_gap rfl hgap (Nat.le_refl _)
  obtain ⟨_, _, hlines, hgap, h⟩ := h.of_seq_silent rfl
  have hlt := hlines.length_le_of_gap hgap hlt
  obtain ⟨_, _, _, _, hinner, -, hrest, rfl⟩ := h.of_seq
  obtain rfl := hrest.nodes_eq_nil rfl
  obtain ⟨inner, rfl, -, -, hinnerNode⟩ := hinner.exists_one nofun hlt
  rw [List.singleton_append, TypeExpr.ofNode] at htype
  obtain ⟨innerType, hinnerType, htype⟩ := bind_eq_ok.mp htype
  cases htype
  exact .paren (htypes hinnerNode hinnerType)

theorem isParsed_qualified
    (h : declarations.Reads .tight (ruleBody .qualifiedIdent) start (some (children, stop)))
    (htype : TypeExpr.ofNode ⟨.qualifiedIdent, start, stop, children⟩ = .ok type) :
    type.IsParsed ∧ type.isTypeName = true := by
  obtain ⟨_, _, _, _, hpackage, -, hrest, rfl⟩ := h.of_seq
  obtain ⟨package, rfl, -, -, hpackageNode⟩ := hpackage.exists_one nofun (Nat.lt_succ_self _)
  obtain ⟨_, _, -, -, hident⟩ := hrest.of_seq_silent rfl
  obtain ⟨ident, rfl, -, -, hident⟩ := hident.exists_one nofun (Nat.lt_succ_self _)
  rw [List.singleton_append, TypeExpr.ofNode] at htype
  cases htype
  exact ⟨.qualified (isName_of_reads hpackageNode nofun) (isName_of_reads hident nofun), rfl⟩

theorem isParsed_typeName
    (h : declarations.Reads .spaced (ruleBody .typeName) start (some (children, stop)))
    (htype : TypeExpr.ofNode ⟨.typeName, start, stop, children⟩ = .ok type) :
    type.IsParsed ∧ type.isTypeName = true := by
  obtain ⟨ident, rfl, -, -, hident⟩ :=
    (h : declarations.Reads .spaced (.call .identifier) start _).exists_one nofun
      (Nat.lt_succ_self _)
  rw [TypeExpr.ofNode] at htype
  cases htype
  exact ⟨.name (isName_of_reads hident nofun), rfl⟩

end Forms

end GoStencil.Grammar
