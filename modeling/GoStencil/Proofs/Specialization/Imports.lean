import GoStencil.Proofs.Mentions
import GoStencil.Proofs.Specialization.Trials

/-!
# Imports that an output needs

What a trial binds may mention packages that the provider imports. An output imports them as well,
unless the template has an import that goes by the same name.

* `Trial.find?_carryImports`: what a name refers to after imports were added.
* `specialize_imports`: a package that a bound type mentions is imported in the output.
* `specialize_imports_other`: an import of the template that goes by the same name is kept instead,
  whatever its path is.
-/

namespace GoStencil

namespace Trial

/-- **What a name refers to after imports were added**: what it referred to before, or else the
    provider's import if the name is one of those asked for. -/
theorem find?_carryImports (provider : Scope) (name : String) :
    ∀ (qualifiers : List String) (imports : List ImportSpec),
      (carryImports provider qualifiers imports).find? (·.localName == name) =
        (imports.find? (·.localName == name)).or
          (if name ∈ qualifiers then
            (provider.qualifierOf name).map fun spec => { spec with span := ⟨0, 0⟩ }
          else none)
  | [], imports => by simp [carryImports]
  | qualifier :: rest, imports => by
    unfold carryImports
    split
    · rename_i hany
      rw [find?_carryImports provider name rest]
      by_cases e : name = qualifier
      · -- what the name refers to already stays in place
        obtain ⟨spec, hspec⟩ := Option.isSome_iff_exists.mp
          ((List.find?_isSome.trans List.any_eq_true.symm).mpr (e ▸ hany))
        rw [hspec, Option.some_or, Option.some_or]
      · simp only [List.mem_cons, e, false_or]
    · rename_i hnone
      split
      · rename_i spec hspec
        have hlocal : spec.localName = qualifier := by
          simpa using List.find?_some hspec
        rw [find?_carryImports provider name rest, List.find?_append]
        by_cases e : name = qualifier
        · have hfree : imports.find? (·.localName == name) = none := by
            rw [e]
            simpa using hnone
          have hnew : ({ spec with span := ⟨0, 0⟩ } : ImportSpec).localName = name :=
            hlocal.trans e.symm
          rw [hfree, Option.none_or, List.find?_cons_of_pos (by simpa using hnew), Option.some_or,
            if_pos (e ▸ List.mem_cons_self), e, hspec]
          rfl
        · have hnew : ({ spec with span := ⟨0, 0⟩ } : ImportSpec).localName ≠ name :=
            fun e' => e (e'.symm.trans hlocal)
          rw [List.find?_cons_of_neg (by simpa using hnew), List.find?_nil, Option.or_none]
          simp only [List.mem_cons, e, false_or]
      · rename_i hspec
        rw [find?_carryImports provider name rest]
        by_cases e : name = qualifier
        · rw [e, hspec, Option.map_none, ite_self, ite_self]
        · simp only [List.mem_cons, e, false_or]

theorem find?_imports_file (options : Options) (template provider : SourceFile)
    (subst : Substitution) (name : String) :
    ((Trial.of options template provider).file subst).imports.find? (·.localName == name) =
      (template.imports.find? (·.localName == name)).or
        (if name ∈ subst.values.flatMap TypeExpr.qualifiers then
          (provider.scope.qualifierOf name).map fun spec => { spec with span := ⟨0, 0⟩ }
        else none) :=
  find?_carryImports provider.scope name _ template.imports

end Trial

/-- **A package that a bound type mentions is imported in the output**: by the template's import
    that goes by the same name if there is one, and else by the provider's. -/
theorem specialize_imports {options : Options} {template provider : SourceFile}
    {output : Specialization} (h : output ∈ (specialize options template provider).outputs)
    {value : TypeExpr} (hvalue : value ∈ output.substitution.values) {package ident : String}
    (hoccurs : value.OccursIn (.qualified package ident)) {spec : ImportSpec}
    (hspec : provider.scope.qualifierOf package = some spec) :
    ∃ found, output.file.imports.find? (·.localName == package) = some found ∧
      found.path =
        ((template.imports.find? (·.localName == package)).getD spec).path := by
  obtain ⟨primary, others, -, candidate, -, hrun⟩ := mem_outputs_iff.mp h
  obtain ⟨_, _, final, -, -, -, rfl⟩ := Trial.run_eq_ok_iff.mp hrun
  have hmem : package ∈ final.values.flatMap TypeExpr.qualifiers :=
    List.mem_flatMap.mpr ⟨value, hvalue, TypeExpr.mem_qualifiers_of_occursIn hoccurs⟩
  have hfind := Trial.find?_imports_file options template provider final package
  rw [if_pos hmem, hspec] at hfind
  cases htemplate : template.imports.find? (·.localName == package) with
  | none =>
    rw [htemplate] at hfind
    exact ⟨_, hfind, rfl⟩
  | some own =>
    rw [htemplate] at hfind
    exact ⟨own, hfind, rfl⟩

/-- A page with values of any type. -/
def pageTemplate (imports : List ImportSpec) : SourceFile :=
  ⟨"page", imports, [.type ⟨"Value", false, .emptyInterface, ⟨0, 0⟩⟩,
    .type ⟨"Page", false, .struct (.cons ["value"] (.name "Value") none .nil), ⟨0, 0⟩⟩], none⟩

/-- A page of markup, which is a type of an imported package. -/
def markupProvider : SourceFile :=
  ⟨"markup", [⟨none, "html/template", ⟨0, 0⟩⟩],
    [.type ⟨"Markup", false, .struct (.cons ["value"]
      (.array none (.qualified "template" "HTML")) none .nil), ⟨0, 0⟩⟩], none⟩

/-- What the page and its value are bound to. -/
def markupBound : Substitution :=
  ⟨[(.name "Page", .name "Markup"), (.name "Value", .array none (.qualified "template" "HTML"))],
    by decide⟩

/-- The package of the markup is imported in the page. -/
theorem specialize_imports_markup :
    ∃ output ∈ (specialize .default (pageTemplate []) markupProvider).outputs, ∃ found,
      output.file.imports.find? (·.localName == "template") = some found ∧
        found.path = "html/template" := by
  have houtputs : (specialize .default (pageTemplate []) markupProvider).outputs =
      [⟨"Markup", (Trial.of .default (pageTemplate []) markupProvider).file markupBound,
        markupBound⟩] := rfl
  have hmem := List.mem_singleton_self (Specialization.mk "Markup"
    ((Trial.of .default (pageTemplate []) markupProvider).file markupBound) markupBound)
  rw [← houtputs] at hmem
  have hvalue : TypeExpr.array none (.qualified "template" "HTML") ∈ markupBound.values :=
    List.mem_cons_of_mem _ List.mem_cons_self
  exact ⟨_, hmem, specialize_imports hmem hvalue (.part .whole List.mem_cons_self) rfl⟩

/-- A page that imports another package called `template` does not import that of the markup. -/
theorem specialize_imports_other :
    ∃ output ∈ (specialize .default (pageTemplate [⟨none, "text/template", ⟨0, 0⟩⟩])
        markupProvider).outputs,
      output.substitution = markupBound ∧
        (markupProvider.scope.qualifierOf "template").map (·.path) = some "html/template" ∧
        (output.file.imports.find? (·.localName == "template")).map (·.path) =
          some "text/template" :=
  ⟨⟨"Markup", _, markupBound⟩, List.mem_cons_self, rfl, by decide, by decide⟩

end GoStencil
