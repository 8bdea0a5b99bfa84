import GoStencil.Proofs.SourceFile.Parsed
import GoStencil.Proofs.Specialization.Unrelated

/-!
# The types of a text

What is read as a type has names for names at every depth, any number of arguments in parameters and
results only, and a name for every field of a struct. Printing and matching rely on it without
asking.

* `TypeExpr.IsWellShaped`: what holds of every type that occurs in another one.
* `TypeExpr.IsParsed.isWellShaped`: it holds of a type that has been read.
* `TypeExpr.isParsed_of_parse`: what is read from a text of its own is such a type.
* `wellShaped_of_parse`: the types of every file that is read, and every type read alone.
-/

namespace GoStencil

open Grammar

/-! ## 1. The shape of a type -/

/-- Whether the names, lengths and entries of a type are as the grammar has them. -/
def TypeExpr.HasForm : TypeExpr → Prop
  | .name ident => isName ident = true
  | .qualified package ident => isName package = true ∧ isName ident = true
  | .array (some length) _ => IsLength length
  | .channel .both value => ∀ received, value ≠ .channel .receive received
  | .function params results =>
    ∀ field ∈ params.toList ++ results.toList, (∀ name ∈ field.names, isName name = true) ∧
      field.tag = none
  | .struct fields =>
    ∀ field ∈ fields.toList, field.IsStructField ∧ effectiveNames field.names field.type ≠ []
  | .interface members => ∀ field ∈ members.toList, field.IsMember
  | _ => True

/-- Whether a type is as the grammar has it, and only the entries of a function take any number of
    arguments. -/
structure TypeExpr.HasShape (type : TypeExpr) : Prop where
  form : type.HasForm
  variadics : ∀ elem, .variadic elem ∈ type.parts →
    ∃ params results, type = .function params results

/-- Whether a type, with all that occurs in it, is as the grammar has it. -/
structure TypeExpr.IsWellShaped (whole : TypeExpr) : Prop where
  notVariadic : ∀ elem, whole ≠ .variadic elem
  inside : ∀ type, whole.OccursIn type → type.HasShape

/-! ## 2. Types that have been read -/

theorem TypeExpr.IsParsed.ne_variadic {type : TypeExpr} (h : type.IsParsed) (elem : TypeExpr) :
    type ≠ .variadic elem := by
  rintro rfl
  cases h

theorem FieldList.AreEntries.forall_field {fields : FieldList} (h : fields.AreEntries)
    {field : Field} (hmem : field ∈ fields.toList) :
    (∀ name ∈ field.names, isName name = true) ∧ field.tag = none :=
  ⟨List.all_eq_true.mp (h.names field hmem), h.tags field hmem⟩

/-- Types of fields that have been read are not variadic. -/
theorem FieldList.not_variadic_mem_types {fields : FieldList}
    (htypes : ∀ field ∈ fields.toList, field.type.IsParsed) (elem : TypeExpr) :
    .variadic elem ∉ fields.types := by
  intro hmem
  obtain ⟨field, hfield, htype⟩ := FieldList.exists_mem_toList hmem
  exact (htypes field hfield).ne_variadic elem htype

theorem TypeExpr.IsParsed.hasForm {type : TypeExpr} (h : type.IsParsed) : type.HasForm := by
  cases h with
  | name h => exact h
  | qualified hpackage hident => exact ⟨hpackage, hident⟩
  | pointer | slice | paren | map => trivial
  | array hlength => exact hlength
  | @channel direction value hparens =>
    cases direction with
    | both =>
      rintro received rfl
      cases hparens
    | send | receive => trivial
  | function hparams hresults =>
    intro field hmem
    rcases List.mem_append.mp hmem with hmem | hmem
    · exact hparams.forall_field hmem
    · exact hresults.forall_field hmem
  | struct hfields =>
    intro field hmem
    obtain ⟨name, hname⟩ := (hfields field hmem).exists_effectiveName
    exact ⟨hfields field hmem, List.ne_nil_of_mem hname⟩
  | interface hmembers => exact hmembers

theorem TypeExpr.IsParsed.hasShape {type : TypeExpr} (h : type.IsParsed) : type.HasShape := by
  refine ⟨h.hasForm, fun elem hmem => ?_⟩
  cases h with
  | name | qualified => cases hmem
  | pointer h | slice h | array _ h | paren h | channel _ h =>
    exact absurd (List.mem_singleton.mp hmem).symm (h.ne_variadic elem)
  | map hkey hvalue =>
    rcases List.mem_pair.mp hmem with e | e
    · exact absurd e.symm (hkey.ne_variadic elem)
    · exact absurd e.symm (hvalue.ne_variadic elem)
  | function => exact ⟨_, _, rfl⟩
  | struct _ htypes | interface _ htypes =>
    exact absurd hmem (FieldList.not_variadic_mem_types htypes elem)

/-- The parts of a type that has been read have been read, under the dots of a last parameter. -/
theorem TypeExpr.IsParsed.part {type part : TypeExpr} (h : type.IsParsed)
    (hpart : part ∈ type.parts) : part.variadicElem.IsParsed := by
  have hself : ∀ {part : TypeExpr}, part.IsParsed → part.variadicElem.IsParsed := fun hpart =>
    hpart.variadicElem_eq.symm ▸ hpart
  cases h with
  | name | qualified => cases hpart
  | pointer h | slice h | array _ h | paren h | channel _ h =>
    rw [List.mem_singleton.mp hpart]
    exact hself h
  | map hkey hvalue =>
    rcases List.mem_pair.mp hpart with rfl | rfl
    · exact hself hkey
    · exact hself hvalue
  | function _ _ hparams hresults =>
    rcases List.mem_append.mp hpart with hpart | hpart
    · obtain ⟨field, hfield, rfl⟩ := FieldList.exists_mem_toList hpart
      exact hparams field hfield
    · obtain ⟨field, hfield, rfl⟩ := FieldList.exists_mem_toList hpart
      exact hresults field hfield
  | struct _ htypes | interface _ htypes =>
    obtain ⟨field, hfield, rfl⟩ := FieldList.exists_mem_toList hpart
    exact hself (htypes field hfield)

/-- To have been read, but for the dots of a last parameter, is handed on to all parts of a type. -/
theorem hereditary_isParsed : Hereditary fun type => type.variadicElem.IsParsed where
  package := by
    intro package ident h
    cases (show (TypeExpr.qualified package ident).IsParsed from h) with
    | qualified hpackage => exact .name hpackage
  part := by
    intro type part h hpart
    cases type with
    | «variadic» elem =>
      -- the only part of such a type is what has been read under its dots
      rw [List.mem_singleton.mp hpart]
      exact (show elem.IsParsed from h).variadicElem_eq.symm ▸ h
    | _ => exact TypeExpr.IsParsed.part h hpart

/-- What occurs in a type that has been read has been read, under the dots of a last parameter. -/
theorem TypeExpr.IsParsed.occursIn {whole type : TypeExpr} (h : whole.IsParsed)
    (hoccurs : whole.OccursIn type) : type.variadicElem.IsParsed := by
  induction hoccurs with
  | whole => exact h.variadicElem_eq.symm ▸ h
  | part _ hpart ih => exact hereditary_isParsed.part ih hpart

theorem TypeExpr.hasShape_of_variadicElem {type : TypeExpr} (h : type.variadicElem.IsParsed) :
    type.HasShape := by
  cases type with
  | «variadic» elem =>
    exact ⟨trivial, fun inner hmem => absurd (List.mem_singleton.mp hmem).symm
      (TypeExpr.IsParsed.ne_variadic h inner)⟩
  | _ => exact TypeExpr.IsParsed.hasShape h

/-- **A type that has been read is well shaped**, with all that occurs in it. -/
theorem TypeExpr.IsParsed.isWellShaped {type : TypeExpr} (h : type.IsParsed) :
    type.IsWellShaped where
  notVariadic := h.ne_variadic
  inside _ hoccurs := TypeExpr.hasShape_of_variadicElem (h.occursIn hoccurs)

/-! ## 3. Types on their own -/

/-- The tree of a type on its own begins with that of the type. -/
theorem exists_typeExpr_of_parse {text : String} {node : Node}
    (h : declarations.parse .typeExprOnly text = some node) :
    ∃ type rest, node.children = type :: rest ∧
      IsReadBy .spaced .typeExpr (text.toList.length + 1) type := by
  obtain ⟨last, h⟩ := parse_eq_some_iff.mp h
  obtain ⟨children, hnode, hbody⟩ := h.of_call nofun
  cases hnode
  obtain ⟨_, next, hstart, hgap, hbody⟩ := hbody.of_seq_silent rfl
  have hlt := hstart.length_le_of_gap hgap (Nat.lt_succ_self _)
  obtain ⟨_, _, _, _, htype, -, -, rfl⟩ := hbody.of_seq
  obtain ⟨type, rfl, -, -, htypeNode⟩ := htype.exists_one nofun hlt
  exact ⟨type, _, rfl, htypeNode⟩

theorem TypeExpr.isParsed_of_parse {text : String} {type : TypeExpr}
    (h : TypeExpr.parse text = .ok type) : type.IsParsed := by
  unfold TypeExpr.parse at h
  split at h
  · cases h
  · rename_i hparse
    obtain ⟨_, _, hchildren, hread⟩ := exists_typeExpr_of_parse hparse
    cases hchildren
    exact isParsed_of_reads hread h
  · cases h

/-! ## 4. Types in files -/

/-- The types that a declaration writes. A receiver is written as a list of parameters. -/
def Decl.types : Decl → List TypeExpr
  | .type decl => [decl.type]
  | .func decl =>
    .function decl.params decl.results :: decl.receiver.toList.map (.function · .nil)
  | .value _ => []

theorem FieldList.IsParsed.function {params results : FieldList} (hparams : params.IsParsed)
    (hresults : results.IsParsed) : (TypeExpr.function params results).IsParsed :=
  .function hparams.shape hresults.shape hparams.types hresults.types

theorem Decl.IsParsed.types {decl : Decl} (h : decl.IsParsed) :
    ∀ type ∈ decl.types, type.IsParsed := by
  intro type hmem
  cases h with
  | type _ htype =>
    rw [List.mem_singleton.mp hmem]
    exact htype
  | func _ hreceiver hparams hresults =>
    rcases List.mem_cons.mp hmem with rfl | hmem
    · exact hparams.function hresults
    · obtain ⟨receiver, hsome, rfl⟩ := List.mem_map.mp hmem
      exact (hreceiver receiver (Option.mem_toList.mp hsome)).function isParsed_nil
  | value => cases hmem

/-- Whether the names and types that a declaration writes are as the grammar has them. -/
structure Decl.IsWellShaped (decl : Decl) : Prop where
  names : (∀ type, decl = .type type → isName type.name = true) ∧
    ∀ func, decl = .func func → isName func.name = true
  types : ∀ type ∈ decl.types, type.IsWellShaped

theorem Decl.IsParsed.isWellShaped {decl : Decl} (h : decl.IsParsed) : decl.IsWellShaped where
  names := by
    cases h with
    | type hname =>
      refine ⟨fun type e => ?_, nofun⟩
      cases e
      exact hname
    | func hname =>
      refine ⟨nofun, fun func e => ?_⟩
      cases e
      exact hname
    | value => exact ⟨nofun, nofun⟩
  types type hmem := (h.types type hmem).isWellShaped

/-- **Every type that is read from a text is well shaped**, at every depth: those of a file, with
    the parameters, results and receivers of its functions, and one that is read alone. -/
theorem wellShaped_of_parse (text : String) :
    (∀ sourceName file, SourceFile.parse text sourceName = .ok file →
      ∀ decl ∈ file.decls, decl.IsWellShaped) ∧
      ∀ type, TypeExpr.parse text = .ok type → type.IsWellShaped := by
  refine ⟨fun _ file hfile decl hmem => ?_, fun type htype => ?_⟩
  · exact ((SourceFile.isParsed_of_parse hfile).decls decl hmem).isWellShaped
  · exact (TypeExpr.isParsed_of_parse htype).isWellShaped

/-- A struct with an embedded pointer and a tag, and a method that takes any number of channels. -/
def watcherText : String :=
  "package p\n\ntype Watcher struct \x7b\n\tnames, paths []string \x60json:\"names\"\x60\n" ++
    "\t*sync.Mutex\n\x7d\n\n" ++
    "func (w *Watcher) All(sources ...chan (<-chan Event)) (last [ 4 ]Event, err error)\n"

/-- The type of the function that a watcher calls. -/
def callbackText : String :=
  "func(interface \x7b\n\tio.Reader\n\tName(path ...string) string\n\x7d, ...Event)"

theorem wellShaped_of_parse_watcher :
    (∃ file, SourceFile.parse watcherText none = .ok file ∧
      file.decls.map (·.types.length) = [1, 2] ∧ ∀ decl ∈ file.decls, decl.IsWellShaped) ∧
      ∃ type, TypeExpr.parse callbackText = .ok type ∧ type.parts.length = 2 ∧
        type.IsWellShaped := by
  have hfile : (SourceFile.parse watcherText none).toOption.map
      (·.decls.map (·.types.length)) = some [1, 2] := by decide +kernel
  have htype : (TypeExpr.parse callbackText).toOption.map (·.parts.length) = some 2 := by
    decide +kernel
  refine ⟨?_, ?_⟩
  · cases hparse : SourceFile.parse watcherText none with
    | error cause =>
      rw [hparse] at hfile
      cases hfile
    | ok file =>
      rw [hparse] at hfile
      exact ⟨file, rfl, Option.some.inj hfile, (wellShaped_of_parse watcherText).1 _ file hparse⟩
  · cases hparse : TypeExpr.parse callbackText with
    | error cause =>
      rw [hparse] at htype
      cases htype
    | ok type =>
      rw [hparse] at htype
      exact ⟨type, rfl, Option.some.inj htype, (wellShaped_of_parse callbackText).2 type hparse⟩

end GoStencil
