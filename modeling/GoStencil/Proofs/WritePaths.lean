import GoStencil.FileTree
import GoStencil.Command
import GoStencil.Proofs.OutputPlan
import GoStencil.Proofs.Path
import GoStencil.Proofs.SourceFile.Parsed
import GoStencil.Proofs.Specialization.Trials

/-!
# Where a run writes

A run that succeeds plans one file for each output. No file is the template unless the suffix holds
a slash, because its name is longer. A file may be the provider: where the files stand beside it,
one of them is exactly when it has a planned name.

* `exists_of_run_writeImpl`: what a run that succeeds has read, planned and written.
* `IsFileName`: how the name of a file comes from its output.
* `IsFileName.not_same`, `same_join_provider_iff`: the template, and the provider.
* `writeImpl_paths`: where a run writes.
* `writeImpl_over_provider`, `writeImpl_over_template`: runs that write over what they read.
-/

namespace GoStencil

/-! ## 1. Commands that succeed -/

section Runs

variable {σ α β : Type} {before after : σ}

/-- A sequence of two commands succeeds when both do. -/
theorem exists_of_run_bind {first : ExceptT CommandError (StateM σ) α}
    {next : α → ExceptT CommandError (StateM σ) β} {b : β}
    (h : (first >>= next).run.run before = (.ok b, after)) :
    ∃ a mid, first.run.run before = (.ok a, mid) ∧ (next a).run.run mid = (.ok b, after) := by
  rw [ExceptT.run_bind, StateT.run_bind] at h
  cases hfirst : first.run.run before with
  | mk result mid =>
    rw [hfirst] at h
    cases result with
    | error failure => cases h
    | ok a => exact ⟨a, mid, rfl, h⟩

theorem run_of_run_lift {action : StateM σ α} {a : α}
    (h : (liftM action : ExceptT CommandError (StateM σ) α).run.run before = (.ok a, after)) :
    action.run before = (a, after) := by
  have hmap : (Except.ok <$> action : StateM σ (Except CommandError α)).run before =
      (.ok a, after) := h
  rw [StateT.run_map] at hmap
  cases haction : action.run before with
  | mk result last =>
    rw [haction] at hmap
    cases hmap
    rfl

/-- Whether a source file is read from a path, and leads from one state of the files to the next. -/
def Files.Reads (files : Files (StateM σ)) (path : String) (file : SourceFile)
    (before after : σ) : Prop :=
  ∃ text, (files.readText? path).run before = (some text, after) ∧
    SourceFile.parse text (some path) = .ok file

variable {files : Files (StateM σ)}

theorem reads_of_run_loadSource {path : String} {file : SourceFile}
    (h : (loadSource files path).run.run before = (.ok file, after)) :
    files.Reads path file before after := by
  obtain ⟨text?, mid, htext, h⟩ := exists_of_run_bind h
  cases text? with
  | none => cases h
  | some text =>
    cases hparse : SourceFile.parse text (some path) with
    | error cause =>
      simp only [hparse] at h
      cases h
    | ok found =>
      simp only [hparse] at h
      cases h
      exact ⟨text, run_of_run_lift htext, hparse⟩

/-- **A run that succeeds** has read a template and a provider, and returns what is planned for
    them, which it has written unless it was to plan only. -/
theorem exists_of_run_writeImpl {request : WriteRequest} {environment : Option String}
    {config : Config} {outputs : List OutputFile}
    (h : (writeImpl files request environment config).run.run before = (.ok outputs, after)) :
    ∃ provider templateFile providerFile mid last,
      providerPath request.provider environment = some provider ∧
      files.Reads request.template templateFile before mid ∧
      files.Reads provider providerFile mid last ∧
      planRun request.template provider (config.resolve request.overrides) templateFile
        providerFile = .ok outputs ∧
      (request.dryRun = false →
        (writeOutputs files outputs).run.run last = (.ok (), after)) := by
  unfold writeImpl at h
  split at h
  · cases h
  · rename_i provider hprovider
    obtain ⟨templateFile, mid, htemplate, h⟩ := exists_of_run_bind h
    obtain ⟨providerFile, last, hproviderFile, h⟩ := exists_of_run_bind h
    refine ⟨provider, templateFile, providerFile, mid, last, hprovider,
      reads_of_run_loadSource htemplate, reads_of_run_loadSource hproviderFile, ?_⟩
    dsimp only at h
    split at h
    · cases h
    · rename_i planned hplan
      rw [hplan]
      split at h
      · rename_i hdry
        cases h
        exact ⟨rfl, fun hwrite => absurd hdry (by simp [hwrite])⟩
      · obtain ⟨_, _, hwrite, h⟩ := exists_of_run_bind h
        cases h
        exact ⟨rfl, fun _ => hwrite⟩

end Runs

/-! ## 2. Planned names -/

theorem slash_not_mem_toString (k : Nat) : '/' ∉ (toString k).toList := by
  intro hmem
  rw [Nat.toString_eq_ofList_toDigits, String.toList_ofList] at hmem
  exact absurd (Nat.isDigit_of_mem_toDigits (by decide) (Nat.le_refl 10) hmem) (by decide)

theorem slash_not_mem_tail {template nameSuffix : String} (htemplate : '/' ∉ template.toList)
    (hsuffix : '/' ∉ nameSuffix.toList) : '/' ∉ ("_" ++ template ++ nameSuffix).toList := by
  simp only [String.toList_append, List.mem_append, not_or]
  exact ⟨⟨by decide, htemplate⟩, hsuffix⟩

/-- How the name of a file comes from its output: the parts of the base name in lower case, then a
    number, if it has one, and the extension. -/
def IsFileName (settings : Settings) (template output name : String) : Prop :=
  ∃ front back number : String,
    Text.IsLowered (settings.namePrefix ++ output).toList front.toList ∧
    Text.IsLowered ("_" ++ template ++ settings.nameSuffix).toList back.toList ∧
    '/' ∉ number.toList ∧ name = front ++ (back ++ number) ++ ".go"

theorem exists_isFileName {settings : Settings} {templatePath : String}
    {outputs : List Specialization} {names : List String} {name : String}
    (h : IsPlan (settings.baseNames templatePath outputs) names) (hmem : name ∈ names) :
    ∃ output ∈ outputs, IsFileName settings ((Path.fileStem? templatePath).getD "") output.name
      name := by
  obtain ⟨base, hbase, hname⟩ := h.exists_of_mem hmem
  obtain ⟨output, houtput, rfl⟩ := List.mem_map.mp hbase
  obtain ⟨front, back, hfront, hback, hbase⟩ := exists_outputFileName settings.namePrefix
    output.name ((Path.fileStem? templatePath).getD "") settings.nameSuffix
  refine ⟨output, houtput, ?_⟩
  rcases hname with rfl | ⟨stem, k, hstem, rfl⟩
  · exact ⟨front, back, "", hfront, hback, List.not_mem_nil, by rw [hbase, String.append_empty]⟩
  · have hparts : stem = front ++ back :=
      (String.append_left_inj ".go").mp (hstem.symm.trans hbase)
    refine ⟨front, back, "_" ++ toString k, hfront, hback, ?_, ?_⟩
    · rw [String.toList_append, List.mem_append, not_or]
      exact ⟨by decide, slash_not_mem_toString k⟩
    · rw [hparts]
      simp only [String.append_assoc]

/-! ## 3. The template -/

/-- **No file is the template** unless the suffix makes directories: what the name of a file has
    after the type is longer than the stem of the template, with the same extension. -/
theorem IsFileName.not_same {settings : Settings} {path directory output name : String}
    (h : IsFileName settings ((Path.fileStem? path).getD "") output name)
    (hsuffix : '/' ∉ settings.nameSuffix.toList) :
    ¬ Path.Same (Path.join directory name) path := by
  obtain ⟨front, back, number, -, hback, hnumber, hname⟩ := h
  intro hsame
  have hbackSlash := hback.not_mem (slash_not_mem_tail (Path.not_mem_fileStem? path) hsuffix)
  have hlength : ((Path.fileStem? path).getD "").toList.length < back.toList.length := by
    have hparts := hback.length
    rw [String.toList_append, String.toList_append, List.length_append,
      List.length_append] at hparts
    exact Nat.lt_of_lt_of_le (Nat.lt_add_of_pos_left (by decide)) (Nat.le_of_add_right_le hparts)
  have hslash : '/' ∉ back.toList ++ number.toList ++ ['.', 'g', 'o'] := by
    rw [List.mem_append, List.mem_append, not_or, not_or]
    exact ⟨⟨hbackSlash, hnumber⟩, by decide⟩
  obtain ⟨before, hjoin⟩ := Path.exists_join directory name
  have hchars : (Path.join directory name).toList =
      before ++ front.toList ++ (back.toList ++ number.toList ++ ['.', 'g', 'o']) := by
    rw [hjoin, hname]
    simp only [String.toList_append, List.append_assoc]
    rfl
  obtain ⟨rest, hlast⟩ := Path.exists_getLast?_componentsOf_append (before ++ front.toList) hslash
    (by
      rw [List.length_append]
      exact Nat.lt_add_left _ (by decide))
  rw [← hchars, ← List.append_assoc] at hlast
  have hne : rest ++ (back.toList ++ number.toList) ≠ [] := by
    refine List.ne_nil_of_length_pos ?_
    rw [List.length_append, List.length_append]
    omega
  have hstem : Path.fileStem? path =
      some (String.ofList (rest ++ (back.toList ++ number.toList))) :=
    Path.fileStem?_eq_some hne (List.cons_ne_nil 'g' ['o']) (by decide)
      (hsame.components ▸ hlast)
  rw [hstem, Option.getD_some, String.toList_ofList] at hlength
  simp only [List.length_append] at hlength
  omega

/-! ## 4. The provider -/

theorem components_providerDirectory (provider : String) :
    Path.components (providerDirectory provider) = (Path.components provider).dropLast ∧
      (Path.components provider ≠ [] →
        (Path.IsAbsolute (providerDirectory provider) ↔ Path.IsAbsolute provider)) := by
  unfold providerDirectory
  cases hparent : Path.parent? provider with
  | none =>
    rw [Path.components_eq_nil_of_parent? hparent]
    exact ⟨rfl, fun hne => absurd rfl hne⟩
  | some parent =>
    have h := Path.components_parent? hparent
    dsimp only
    split
    · rename_i hempty
      cases String.isEmpty_iff.mp hempty
      exact ⟨h.1, fun hne => (iff_of_false (by decide) (by decide)).trans (h.2 hne)⟩
    · exact h

/-- **A file is the provider** exactly when it stands beside it and has its name. -/
theorem same_join_provider_iff {provider directory name : String} (hslash : '/' ∉ name.toList)
    (hlength : 2 < name.toList.length) :
    Path.Same (Path.join directory name) provider ↔
      Path.Same directory (providerDirectory provider) ∧
        Path.fileName? provider = some name := by
  obtain ⟨hjoin, hroot⟩ :=
    Path.components_join_name directory hslash (Nat.lt_of_succ_lt hlength)
  obtain ⟨hdirectory, hdirectoryRoot⟩ := components_providerDirectory provider
  rw [Path.fileName?_eq_some hlength]
  constructor
  · intro hsame
    have hcomponents := hsame.components.symm.trans hjoin
    have hne : Path.components provider ≠ [] := by
      rw [hcomponents]
      exact List.concat_ne_nil _ _
    refine ⟨⟨?_, ?_⟩, ?_⟩
    · exact (hroot.symm.trans hsame.absolute).trans (hdirectoryRoot hne).symm
    · rw [hdirectory, hcomponents, List.dropLast_concat]
    · rw [hcomponents, List.getLast?_concat]
  · rintro ⟨hsame, hlast⟩
    have hne : Path.components provider ≠ [] := by
      intro hnil
      rw [hnil] at hlast
      cases hlast
    refine ⟨hroot.trans (hsame.absolute.trans (hdirectoryRoot hne)), ?_⟩
    rw [hjoin, hsame.components, hdirectory]
    exact List.dropLast_append_getLast? _ hlast

/-- The names of types of a file that was read are names of the language. -/
theorem Files.Reads.slash_not_mem {σ : Type} {files : Files (StateM σ)} {path : String}
    {provider : SourceFile} {before after : σ} (h : files.Reads path provider before after)
    {options : Options} {template : SourceFile} {output : Specialization}
    (hmem : output ∈ (specialize options template provider).outputs) :
    '/' ∉ output.name.toList := by
  obtain ⟨primary, others, -, candidate, hcandidate, hrun⟩ := mem_outputs_iff.mp hmem
  have hdecl : .type candidate ∈ provider.decls := by
    obtain ⟨decl, hdecl, h⟩ := List.mem_filterMap.mp (mem_of_mem_firstByName hcandidate)
    cases decl with
    | type found =>
      cases h
      exact hdecl
    | _ => cases h
  obtain ⟨text, -, hparse⟩ := h
  rw [Trial.name_of_run hrun]
  cases (SourceFile.isParsed_of_parse hparse).decls _ hdecl with
  | type hname =>
    obtain ⟨c, cs, hchars, -, hall, -⟩ := Grammar.isName_iff.mp hname
    intro hslash
    rw [hchars] at hslash
    exact absurd (hall _ hslash) (by decide)

theorem IsFileName.slash_not_mem {settings : Settings} {template output name : String}
    (h : IsFileName settings template output name) (hleading : '/' ∉ settings.namePrefix.toList)
    (hsuffix : '/' ∉ settings.nameSuffix.toList) (htemplate : '/' ∉ template.toList)
    (houtput : '/' ∉ output.toList) : '/' ∉ name.toList := by
  obtain ⟨front, back, number, hfront, hback, hnumber, rfl⟩ := h
  have hhead : '/' ∉ (settings.namePrefix ++ output).toList := by
    simp only [String.toList_append, List.mem_append, not_or]
    exact ⟨hleading, houtput⟩
  simp only [String.toList_append, List.mem_append, not_or]
  exact ⟨⟨hfront.not_mem hhead, hback.not_mem (slash_not_mem_tail htemplate hsuffix), hnumber⟩,
    by decide⟩

theorem IsFileName.length {settings : Settings} {template output name : String}
    (h : IsFileName settings template output name) : 2 < name.toList.length := by
  obtain ⟨front, back, number, -, -, -, rfl⟩ := h
  rw [String.toList_append, List.length_append]
  exact Nat.lt_add_left _ (by decide)

theorem exists_path_iff {outputs : List OutputFile} {names : List String} {f : String → String}
    {P : String → Prop} (h : outputs.map (·.path) = names.map f) :
    (∃ output ∈ outputs, P output.path) ↔ ∃ name ∈ names, P (f name) := by
  constructor
  · rintro ⟨output, hmem, hP⟩
    obtain ⟨name, hname, hpath⟩ :=
      List.mem_map.mp (h ▸ List.mem_map_of_mem (f := OutputFile.path) hmem)
    exact ⟨name, hname, hpath ▸ hP⟩
  · rintro ⟨name, hname, hP⟩
    obtain ⟨output, hmem, hpath⟩ := List.mem_map.mp (h.symm ▸ List.mem_map_of_mem (f := f) hname)
    exact ⟨output, hmem, hpath ▸ hP⟩

/-- **One of the files is the provider** exactly when they stand beside it and one has its name. -/
theorem exists_same_provider_iff {settings : Settings} {templatePath directory provider : String}
    {found : List Specialization} {names : List String}
    (hplan : IsPlan (settings.baseNames templatePath found) names)
    (hfound : ∀ output ∈ found, '/' ∉ output.name.toList)
    (hleading : '/' ∉ settings.namePrefix.toList) (hsuffix : '/' ∉ settings.nameSuffix.toList) :
    (∃ name ∈ names, Path.Same (Path.join directory name) provider) ↔
      Path.Same directory (providerDirectory provider) ∧
        ∃ name ∈ names, Path.fileName? provider = some name := by
  have hsame : ∀ name ∈ names, Path.Same (Path.join directory name) provider ↔
      Path.Same directory (providerDirectory provider) ∧ Path.fileName? provider = some name := by
    intro name hname
    obtain ⟨candidate, hcandidate, hfile⟩ := exists_isFileName hplan hname
    have hslash := hfile.slash_not_mem hleading hsuffix (Path.not_mem_fileStem? _)
      (hfound candidate hcandidate)
    exact same_join_provider_iff hslash hfile.length
  constructor
  · rintro ⟨name, hname, hprovider⟩
    obtain ⟨hdirectory, hfile⟩ := (hsame name hname).mp hprovider
    exact ⟨hdirectory, name, hname, hfile⟩
  · rintro ⟨hdirectory, name, hname, hfile⟩
    exact ⟨name, hname, (hsame name hname).mpr ⟨hdirectory, hfile⟩⟩

/-! ## 5. Runs -/

theorem eq_planOutputs_of_planRun {template provider : String} {settings : Settings}
    {templateFile providerFile : SourceFile} {outputs : List OutputFile}
    (h : planRun template provider settings templateFile providerFile = .ok outputs) :
    outputs = planOutputs
      (specialize ⟨settings.marker, TypeExpr.niceName⟩ templateFile providerFile).outputs template
      (settings.directory.getD (providerDirectory provider)) settings := by
  unfold planRun at h
  dsimp only at h
  split at h
  · cases h
    rfl
  · cases h

/-- **Where a run writes.** The files have the planned names, in the output directory. None of them
    is the template, unless the suffix makes directories. Where the names make no directories, one
    of them is the provider exactly when the output directory is that of the provider and a planned
    name is its name. -/
theorem writeImpl_paths {σ : Type} {files : Files (StateM σ)} {request : WriteRequest}
    {environment : Option String} {config : Config} {before after : σ} {outputs : List OutputFile}
    (h : (writeImpl files request environment config).run.run before = (.ok outputs, after)) :
    let settings := config.resolve request.overrides
    ∃ provider templateFile providerFile mid last names,
      providerPath request.provider environment = some provider ∧
      files.Reads request.template templateFile before mid ∧
      files.Reads provider providerFile mid last ∧
      IsPlan (settings.baseNames request.template
        (specialize ⟨settings.marker, TypeExpr.niceName⟩ templateFile providerFile).outputs)
        names ∧
      outputs.map (·.path) =
        names.map (Path.join (settings.directory.getD (providerDirectory provider))) ∧
      (request.dryRun = false →
        (writeOutputs files outputs).run.run last = (.ok (), after)) ∧
      ('/' ∉ settings.nameSuffix.toList →
        ∀ output ∈ outputs, ¬ Path.Same output.path request.template) ∧
      ('/' ∉ settings.namePrefix.toList → '/' ∉ settings.nameSuffix.toList →
        ((∃ output ∈ outputs, Path.Same output.path provider) ↔
          Path.Same (settings.directory.getD (providerDirectory provider))
            (providerDirectory provider) ∧
          ∃ name ∈ names, Path.fileName? provider = some name)) := by
  intro settings
  obtain ⟨provider, templateFile, providerFile, mid, last, hprovider, htemplate, hproviderFile,
    hplan, hwrite⟩ := exists_of_run_writeImpl h
  let found := (specialize ⟨settings.marker, TypeExpr.niceName⟩ templateFile providerFile).outputs
  let names := planNames [] 0 (settings.baseNames request.template found)
  have hnames : IsPlan (settings.baseNames request.template found) names :=
    isPlan_baseNames found request.template settings
  have hpaths : outputs.map (·.path) =
      names.map (Path.join (settings.directory.getD (providerDirectory provider))) := by
    rw [eq_planOutputs_of_planRun hplan]
    exact map_path_planOutputs found request.template _ settings
  refine ⟨provider, templateFile, providerFile, mid, last, names, hprovider, htemplate,
    hproviderFile, hnames, hpaths, hwrite, fun hsuffix output hmem hsame => ?_,
    fun hleading hsuffix => ?_⟩
  · obtain ⟨name, hname, hsame⟩ :=
      (exists_path_iff (P := (Path.Same · request.template)) hpaths).mp ⟨output, hmem, hsame⟩
    obtain ⟨candidate, -, hfile⟩ := exists_isFileName hnames hname
    exact hfile.not_same hsuffix hsame
  · exact (exists_path_iff (P := (Path.Same · provider)) hpaths).trans
      (exists_same_provider_iff hnames (fun output hmem => hproviderFile.slash_not_mem hmem)
        hleading hsuffix)

/-- A template of slices and a provider of one type that is a slice. -/
def sliceTree (template provider : Address) : FileTree :=
  ((⟨[], []⟩ : FileTree).addFile template
    "package p\n\ntype T interface\x7b\x7d\n\ntype Slice []T\n".toUTF8).addFile provider
    "package p\n\ntype Ints []int\n".toUTF8

/-- The run of a template by a provider. -/
def sliceRequest (template provider : String) (nameSuffix : Option String) : WriteRequest :=
  ⟨template, some provider, ⟨none, nameSuffix, none, none, false⟩, false⟩

theorem eq_of_fst_eq_ok {ε α σ : Type} {run : Except ε α × σ} {a : α} (h : run.1 = .ok a) :
    run = (.ok a, run.2) :=
  Prod.ext h rfl

/-- A file beside the provider that is neither the provider nor the template. -/
theorem writeImpl_paths_beside :
    ∃ outputs after,
      (writeImpl FileTree.files (sliceRequest "slice.go" "pkg/main.go" none) none .default).run.run
        (sliceTree ["slice.go"] ["pkg", "main.go"]) = (.ok outputs, after) ∧
      outputs.map (·.path) = ["pkg/ints_slice.go"] ∧
      ∀ output ∈ outputs, ¬ Path.Same output.path "slice.go" := by
  have hrun : ((writeImpl FileTree.files (sliceRequest "slice.go" "pkg/main.go" none) none
      .default).run.run (sliceTree ["slice.go"] ["pkg", "main.go"])).1 =
        .ok [⟨"pkg/ints_slice.go", "package p\n"⟩] := by
    decide +kernel
  obtain ⟨_, _, _, _, _, _, -, -, -, -, -, -, htemplate, -⟩ :=
    writeImpl_paths (eq_of_fst_eq_ok hrun)
  have hsuffix : '/' ∉ (Config.default.resolve
      (sliceRequest "slice.go" "pkg/main.go" none).overrides).nameSuffix.toList := by
    decide
  exact ⟨_, _, eq_of_fst_eq_ok hrun, rfl, htemplate hsuffix⟩

/-- **A provider that has the name of the file for its type is written over.** -/
theorem writeImpl_over_provider :
    ∃ outputs after,
      (writeImpl FileTree.files (sliceRequest "slice.go" "pkg/ints_slice.go" none) none
        .default).run.run (sliceTree ["slice.go"] ["pkg", "ints_slice.go"]) =
          (.ok outputs, after) ∧
      (∃ output ∈ outputs, output.path = "pkg/ints_slice.go") ∧
      after.readText? "pkg/ints_slice.go" = some "package p\n" := by
  refine ⟨[⟨"pkg/ints_slice.go", "package p\n"⟩], _, eq_of_fst_eq_ok ?_,
    ⟨_, List.mem_cons_self, rfl⟩, ?_⟩
  · decide +kernel
  · decide +kernel

/-- **With a suffix that makes directories, a template may be written over.** -/
theorem writeImpl_over_template :
    ∃ outputs after,
      (writeImpl FileTree.files
        (sliceRequest "pkg/ints_slice/slice.go" "pkg/main.go" (some "/slice")) none
        .default).run.run (sliceTree ["pkg", "ints_slice", "slice.go"] ["pkg", "main.go"]) =
          (.ok outputs, after) ∧
      (∃ output ∈ outputs, output.path = "pkg/ints_slice/slice.go") ∧
      after.readText? "pkg/ints_slice/slice.go" = some "package p\n" := by
  refine ⟨[⟨"pkg/ints_slice/slice.go", "package p\n"⟩], _, eq_of_fst_eq_ok ?_,
    ⟨_, List.mem_cons_self, rfl⟩, ?_⟩
  · decide +kernel
  · decide +kernel

end GoStencil
