import GoStencil.Proofs.SourceFile.Reparse
import GoStencil.Proofs.Specialization.Leaks
import GoStencil.Proofs.Stream.Instances
import GoStencil.Proofs.TypeExpr.Legible

/-!
# Instances of declarations are read again

* `Decl.isLegible`: no part of a declaration stands where it is taken for something else.
* `Decl.IsParsed.isReadable_instantiate`: a legible instance of a declaration that has been parsed
  can be read again, if everything put in has been parsed.
* `Decl.IsReadFrom.isStreamRead_instantiate`: its stream is read to its end, if it keeps its
  lexemes.
-/

namespace GoStencil

open Grammar

/-! ## 1. Names and types -/

/-- Whether no part of a list of parameters is taken for something else when it is read. -/
def FieldList.isLegible (fields : FieldList) : Bool :=
  keepsNames fields.toList && fields.everywhere TypeExpr.isLegible

/-- Whether no part of a declaration is taken for something else when it is read. -/
def Decl.isLegible : Decl → Bool
  | .type decl => !decl.type.isVariadic && decl.type.everywhere TypeExpr.isLegible
  | .func decl =>
    decl.receiver.all FieldList.isLegible &&
      (TypeExpr.function decl.params decl.results).everywhere TypeExpr.isLegible
  | .value _ => true

section Instances

variable {subst : Substitution} (hvalues : ∀ value ∈ subst.values, value.variadicElem.IsParsed)

include hvalues

theorem isName_declNameUnder {ident : String} (h : isName ident = true) :
    isName (declNameUnder subst ident) = true := by
  unfold declNameUnder
  split
  · rename_i renamed hbound
    have hparsed : (TypeExpr.name renamed).IsParsed :=
      hvalues _ (Substitution.mem_values_of_get? hbound)
    cases hparsed with
    | name hname => exact hname
  · exact h

/-- **A legible instance of a declaration that has been parsed can be read again.** -/
theorem Decl.IsParsed.isReadable_instantiate {decl : Decl} (h : decl.IsParsed)
    (hlegible : (decl.instantiate subst).isLegible = true) :
    (decl.instantiate subst).IsReadable := by
  cases h with
  | @type decl hname htype =>
    obtain ⟨hvariadic, htypes⟩ := Bool.and_eq_true_iff.mp hlegible
    rw [← htype.variadicElem_eq] at htype
    exact .type (isName_declNameUnder hvalues hname) (TypeExpr.isReadable_of_variadicElem
      (TypeExpr.isReadable_instantiate hvalues htype htypes) hvariadic)
  | @func decl hname hreceiver hparams hresults =>
    obtain ⟨hreceiverLegible, htypes⟩ := Bool.and_eq_true_iff.mp hlegible
    have hsignature : (TypeExpr.function decl.params decl.results).variadicElem.IsParsed :=
      .function hparams.shape hresults.shape hparams.types hresults.types
    refine .func hname (fun receiver hsome => ?_)
      (TypeExpr.isReadable_instantiate hvalues hsignature htypes)
    obtain ⟨fields, hfields, rfl⟩ := Option.map_eq_some_iff.mp hsome
    obtain ⟨hkeeps, hlegible⟩ := Bool.and_eq_true_iff.mp
      ((Option.all_eq_true _ _).mp hreceiverLegible _ hsome)
    exact (hreceiver fields hfields).isReadable_instantiate hvalues hkeeps hlegible
  | value decl => exact .value _

/-! ## 2. Streams -/

/-- **The instance of the body of a function is the body of a function.** -/
theorem isBlock_instantiate {cursor last : Cursor} {nodes : List Node} {body : Body}
    (h : declarations.Reads .spaced (.call .funcBody) cursor (some (nodes, last)))
    (hbody : Body.ofNodes? nodes = some body) (hkeeps : body.keepsLexemes subst = true) :
    (body.instantiate subst).IsBlock := by
  obtain ⟨ms, lexemes, hblock, hnested, hscans⟩ := exists_block h
  obtain ⟨cs, hreaches, hscan, -⟩ := exists_body h
  obtain rfl : cs = '\x7b' :: (ms ++ ['\x7d']) :=
    List.append_cancel_right (hreaches.1.symm.trans hblock.1)
  obtain rfl : body = Body.ofScan _ := Option.some.inj (hbody.symm.trans hscan)
  obtain ⟨after, hreplaces, hsource⟩ := Body.exists_replaces_instantiate hvalues hkeeps
  rw [scan_block (hscans [])] at hreplaces
  obtain ⟨others, more, rfl, hinside, hmore⟩ := hreplaces.of_group
  cases hmore
  have hsource' : ((Body.ofScan ('\x7b' :: (ms ++ ['\x7d']))).instantiate subst).source =
      String.ofList ('\x7b' :: (others.flatMap Lexeme.chars ++ ['\x7d'])) := by
    rw [hsource]
    simp [Lexeme.chars]
  exact isBlock_of_takes hsource' fun tail =>
    takes_funcBody_of_nested (hnested.replace (.inl rfl) hinside)
      (Scans.replace hinside (hscans tail) fun _ => .refl _ _).1

/-- **The instance of a line of values is a line of values.** -/
theorem isLine_instantiate {cursor last : Cursor} {children : List Node} {decl : ValueDecl}
    (h : declarations.Reads .tight (ruleBody .valueDecl) cursor (some (children, last)))
    (hdecl : ValueDecl.ofParts ⟨cursor.offset, last.offset⟩ children = .ok decl)
    (hkeeps : decl.body.keepsLexemes subst = true) :
    ValueDecl.IsLine { decl with body := decl.body.instantiate subst } := by
  obtain ⟨mid, ds, _, -, hcontinues, hline, hds, hdecl⟩ := exists_valueParts h hdecl
  rw [hds.1] at hcontinues
  obtain ⟨hne, lexemes, hnested, hscans⟩ := exists_values hline hds
  rw [hdecl] at hkeeps ⊢
  obtain ⟨others, hreplaces, hsource⟩ := Body.exists_replaces_instantiate hvalues hkeeps
  have hscan : scan ds = lexemes := by
    obtain ⟨cs, hcs, hscan⟩ := (hscans []).exists_scan
    rw [List.append_cancel_right hcs, hscan]
  rw [hscan] at hreplaces
  have hagain := fun tail => Scans.replace hreplaces (hscans tail) fun _ => .refl _ _
  refine isLine_of_takes hsource (fun tail => ?_) fun tail => ?_
  · have hends : EndsWord (ds ++ '\n' :: tail) := continues_append_newline hcontinues tail
    exact hends.resume (hagain tail).2
  · have hscans := (hagain tail).1
    refine takes_line_of_nested (hnested.replace (.inr rfl) hreplaces) hscans fun hnone => ?_
    rw [hnone] at hscans
    obtain ⟨cs, hcs, hothers⟩ := hscans.exists_scan
    obtain rfl : cs = [] := List.append_cancel_right (hcs.symm.trans (List.nil_append _).symm)
    rw [scan.eq_1] at hothers
    have hchars := chars_scan ds
    rw [hscan, hreplaces.eq_nil hothers.symm] at hchars
    exact hne hchars.symm

/-- **The stream of an instance is read to its end.** -/
theorem Decl.IsReadFrom.isStreamRead_instantiate {text : String} {decl : Decl}
    (h : decl.IsReadFrom text) (hkeeps : decl.body?.all (Body.keepsLexemes subst) = true) :
    (decl.instantiate subst).IsStreamRead := by
  cases h with
  | type => trivial
  | @func _ _ _ _ decl _ h hdecl =>
    intro body hbody
    obtain ⟨source, hsource, rfl⟩ := Option.map_eq_some_iff.mp hbody
    obtain ⟨_, _, _, nodes, -, -, hread, -, hnodes, -⟩ := exists_funcParts h hdecl hsource
    exact isBlock_instantiate hvalues hread hnodes ((Option.all_eq_true _ _).mp hkeeps _ hsource)
  | value _ h hdecl => exact isLine_instantiate hvalues h hdecl hkeeps

end Instances

end GoStencil
