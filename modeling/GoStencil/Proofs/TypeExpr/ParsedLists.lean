import GoStencil.Proofs.TypeExpr.Lists
import GoStencil.Proofs.TypeExpr.Parsed

/-!
# Lists in types that are parsed

Parameters, results, fields and members as the grammar reads them, and with these all types.

A name in a list of parameters is an entry by itself only if no names and type are read from it on.
So an entry that is a name is never followed by names that end in a type.

* `isParsed_of_rounds`: parameters have this shape.
* `exists_signature`, `exists_field`, `exists_member`: so do the other lists, entry by entry.
* `isParsed_of_reads`: **types that are read have the shape of types**.
-/

namespace GoStencil.Grammar

open Pattern

variable {cursor last : Cursor} {nodes : List Node} {node : Node} {bound : Nat}

/-! ## 1. Entries -/

/-- Whether a list is that of some nodes with an entry before it. -/
def BeginsWith (read : List Node → Parsed FieldList) (nodes : List Node) (fields : FieldList)
    (P : Field → Prop) : Prop :=
  ∃ (field : Field) (more : FieldList),
    fields = .cons field.names field.type field.tag more ∧ read nodes = .ok more ∧ P field

/-- What holds of the entry of each node holds of all entries. -/
theorem forall_of_beginsWith {read : List Node → Parsed FieldList} {P : Field → Prop}
    (hnil : read [] = .ok .nil) {fields : FieldList}
    (hcons : ∀ node ∈ nodes, ∀ {rest fields}, read (node :: rest) = .ok fields →
      BeginsWith read rest fields P)
    (h : read nodes = .ok fields) : ∀ field ∈ fields.toList, P field := by
  induction nodes generalizing fields with
  | nil =>
    rw [hnil] at h
    cases h
    nofun
  | cons node nodes ih =>
    obtain ⟨field, more, rfl, hmore, hfield⟩ := hcons node List.mem_cons_self h
    exact List.forall_mem_cons.mpr
      ⟨hfield, ih (fun other hmem => hcons other (List.mem_cons_of_mem _ hmem)) hmore⟩

/-! ## 2. Names -/

/-- A list of names has at least one, and all are names. -/
theorem areNames_of_reads (h : IsReadBy .spaced .identifierList bound node) :
    identifiersOf node ≠ [] ∧ (identifiersOf node).all isName = true := by
  obtain ⟨children, hnode, hbody⟩ := h.exists_children nofun
  have hnames : ∀ child ∈ children, IsReadBy .spaced .identifier bound child :=
    hbody.isReadBy nofun (by decide) h.length_lt
  obtain ⟨_, _, _, _, hfirst, -, -, rfl⟩ := hbody.of_seq
  obtain ⟨_, rfl, -⟩ := hfirst.of_call nofun
  rw [hnode]
  refine ⟨List.cons_ne_nil _ _, List.all_eq_true.mpr fun name hname => ?_⟩
  obtain ⟨child, hchild, rfl⟩ := List.mem_map.mp hname
  exact isName_of_reads (hnames child hchild) nofun

/-! ## 3. Parameters -/

/-- Whether names and a type are read at a place. -/
def ReadsNames (cursor : Cursor) : Prop :=
  ∃ found, declarations.Reads .spaced (.call .namedParameter) cursor (some found)

/-- Whether a place is that after a comma. -/
structure FollowsComma (cursor start : Cursor) : Prop where
  length_le : start.rest.length ≤ cursor.rest.length
  other : ∀ {pattern reading}, declarations.Reads .spaced pattern start reading →
    declarations.Reads .spaced (commaRound pattern) cursor reading

theorem exists_comma {pattern : Pattern}
    (h : declarations.Reads .spaced (commaRound pattern) cursor (some (nodes, last))) :
    ∃ start, declarations.Reads .spaced pattern start (some (nodes, last)) ∧
      FollowsComma cursor start := by
  obtain ⟨_, _, hcomma, hgap, h⟩ := h.of_seq_silent rfl
  obtain ⟨_, start, hlines, hgap', h⟩ := h.of_seq_silent rfl
  refine ⟨start, h, ?_, fun {pattern reading} hother => ?_⟩
  · exact (hgap'.length_le.trans hlines.length_le).trans (hgap.length_le.trans hcomma.length_le)
  · have hsame : ∀ reading : Reading,
        (reading.map fun found => ([] ++ found.1, found.2)) = reading := by
      rintro (_ | _) <;> rfl
    have hround := Reads.seq hcomma hgap (Reads.seq hlines hgap' hother)
    rwa [hsame, hsame] at hround

/-- A name before a comma, names and a type is one of these names. -/
theorem ReadsNames.cons {mid next start : Cursor}
    (hident : declarations.Reads .spaced (.call .identifier) cursor (some (nodes, mid)))
    (hgap : declarations.Reads .token (declarations.gapIn .spaced) mid (some ([], next)))
    (hcomma : FollowsComma next start) (h : ReadsNames start) : ReadsNames cursor := by
  obtain ⟨_, h⟩ := h
  obtain ⟨_, -, hbody⟩ := h.of_call nofun
  obtain ⟨_, _, after, _, hlist, hgapType, htype, -⟩ := hbody.of_seq
  obtain ⟨_, -, hnames⟩ := hlist.of_call nofun
  obtain ⟨_, _, _, _, hfirst, hgapFirst, hmany, -⟩ := hnames.of_seq
  have hround : declarations.Reads .spaced nameRound next _ := hcomma.other hfirst
  have hwhole : ∃ found stop, declarations.Reads .spaced (.many nameRound) next
      (some (found, stop)) ∧
        declarations.Reads .token (declarations.gapIn .spaced) stop (some ([], after)) := by
    rcases hround.many_cons hgapFirst hmany with ⟨rfl, hone⟩ | hmore
    · obtain rfl := hgapFirst.eq_of_gap_gap hgapType
      exact ⟨_, _, hone, hgapFirst⟩
    · exact ⟨_, _, hmore, hgapType⟩
  obtain ⟨_, stop, hmany, hgapType⟩ := hwhole
  exact ⟨_, .call (.seq (.call (.seq hident hgap hmany)) hgapType htype)⟩

/-- Whether an entry is read at the place of a node. -/
structure IsEntryAt (node : Node) (field : Field) : Prop where
  names : field.names.all isName = true
  tag : field.tag = none
  type : field.type.variadicElem.IsParsed
  named : field.names ≠ [] ↔ ReadsNames node.start
  lone : field.isLoneName = true →
    ∃ nodes, declarations.Reads .spaced (.call .identifier) node.start (some (nodes, node.stop))

/-- The type of an entry, which may take any number of arguments. -/
theorem exists_paramType (htypes : ParsesTypes bound)
    (h : IsReadBy .spaced .paramType bound node) :
    ∃ child, node = ⟨.paramType, node.start, node.stop, [child]⟩ ∧
      ∀ type, TypeExpr.ofNode child = .ok type → type.variadicElem.IsParsed ∧
        (type.isOwnName = true → ∃ nodes, declarations.Reads .spaced (.call .identifier) node.start
          (some (nodes, node.stop))) := by
  obtain ⟨_, hnode, hbody⟩ := h.exists_children nofun
  rcases hbody.of_alt with hread | ⟨-, hread⟩
  · obtain ⟨children, rfl, hvariadic⟩ := hread.of_call nofun
    refine ⟨_, hnode, fun type htype => ?_⟩
    obtain ⟨_, _, hdots, hgap, helem⟩ := hvariadic.of_seq_silent rfl
    obtain ⟨elem, rfl, -, -, helemNode⟩ :=
      helem.exists_one nofun (hdots.length_le_of_gap hgap h.length_lt)
    rw [TypeExpr.ofNode] at htype
    obtain ⟨elemType, helemType, htype⟩ := bind_eq_ok.mp htype
    cases htype
    exact ⟨htypes helemNode helemType, fun hown => by cases hown⟩
  · obtain ⟨child, rfl, hstart, hstop, hchild⟩ := hread.exists_one nofun h.length_lt
    refine ⟨child, hnode, fun type htype => ?_⟩
    have hparsed := htypes hchild htype
    rw [hparsed.variadicElem_eq]
    refine ⟨hparsed, fun hown => ?_⟩
    cases type with
    | name ident =>
      obtain ⟨_, -, -, hname⟩ := exists_form_of_ofNode hchild htype
      rw [← hstart, ← hstop]
      exact ⟨_, hname⟩
    | _ => cases hown

/-- An entry is names and a type, or a type where no names and type are read. -/
theorem exists_entry (htypes : ParsesTypes bound) (h : IsReadBy .spaced .parameterDecl bound node)
    {fields : FieldList} (hread : FieldList.ofParameters (node :: nodes) = .ok fields) :
    BeginsWith FieldList.ofParameters nodes fields (IsEntryAt node) := by
  obtain ⟨_, hnode, hbody⟩ := h.exists_children nofun
  rcases hbody.of_alt with hnamed | ⟨hnone, hunnamed⟩
  · have hnames : ReadsNames node.start := ⟨_, hnamed⟩
    obtain ⟨_, rfl, hparts⟩ := hnamed.of_call nofun
    obtain ⟨_, _, _, _, hlist, hgap, htype, rfl⟩ := hparts.of_seq
    obtain ⟨list, rfl, -, -, hlistNode⟩ := hlist.exists_one nofun h.length_lt
    obtain ⟨param, rfl, -, -, hparam⟩ :=
      htype.exists_one nofun (hlist.length_le_of_gap hgap h.length_lt)
    obtain ⟨child, hparamNode, hchild⟩ := exists_paramType htypes hparam
    obtain ⟨hne, hall⟩ := areNames_of_reads hlistNode
    rw [hnode, List.singleton_append, hparamNode, FieldList.ofParameters] at hread
    obtain ⟨type, htype, hread⟩ := bind_eq_ok.mp hread
    obtain ⟨more, hmore, hread⟩ := bind_eq_ok.mp hread
    cases hread
    refine ⟨⟨identifiersOf list, type, none⟩, more, rfl, hmore, hall, rfl, (hchild type htype).1,
      iff_of_true hne hnames, fun hlone => ?_⟩
    exact absurd (List.isEmpty_iff.mp (Bool.and_eq_true_iff.mp hlone).1) hne
  · obtain ⟨param, rfl, hstart, hstop, hparam⟩ := hunnamed.exists_one nofun h.length_lt
    obtain ⟨child, hparamNode, hchild⟩ := exists_paramType htypes hparam
    rw [hnode, hparamNode, FieldList.ofParameters] at hread
    obtain ⟨type, htype, hread⟩ := bind_eq_ok.mp hread
    obtain ⟨more, hmore, hread⟩ := bind_eq_ok.mp hread
    cases hread
    obtain ⟨hparsed, hown⟩ := hchild type htype
    refine ⟨⟨[], type, none⟩, more, rfl, hmore, rfl, rfl, hparsed,
      iff_of_false (fun h => h rfl) fun hnames => ?_, fun hlone => ?_⟩
    · obtain ⟨_, hfound⟩ := hnames
      cases hfound.unique hnone
    · rw [← hstart, ← hstop]
      exact hown (Bool.and_eq_true_iff.mp hlone).2

theorem isParsed_nil : FieldList.nil.IsParsed :=
  ⟨⟨nofun, nofun, rfl⟩, nofun⟩

/-- An entry before others. If it is a name and names with a type came next, it would be one of
    these. -/
theorem IsEntryAt.cons {field : Field} {more : FieldList} (h : IsEntryAt node field)
    (hmore : more.IsParsed)
    (hlone : field.isLoneName = true → beginsWithoutType more.toList = false →
      ReadsNames node.start) :
    (FieldList.cons field.names field.type field.tag more).IsParsed ∧
      (beginsWithoutType (field :: more.toList) = false → ReadsNames node.start) := by
  have hkeeps : field.isLoneName = true → beginsWithoutType more.toList = true := by
    refine fun hname => Bool.of_not_eq_false fun hbegins => ?_
    exact h.named.mpr (hlone hname hbegins) (List.isEmpty_iff.mp (Bool.and_eq_true_iff.mp hname).1)
  refine ⟨⟨⟨?_, ?_, ?_⟩, ?_⟩, fun hbegins => ?_⟩
  · exact List.forall_mem_cons.mpr ⟨h.names, hmore.shape.names⟩
  · exact List.forall_mem_cons.mpr ⟨h.tag, hmore.shape.tags⟩
  · refine Bool.and_eq_true_iff.mpr ⟨?_, hmore.shape.keeps⟩
    cases hname : field.isLoneName with
    | false => rfl
    | true => exact hkeeps hname
  · exact List.forall_mem_cons.mpr ⟨h.type, hmore.types⟩
  · rw [beginsWithoutType, Bool.and_eq_false_iff] at hbegins
    rcases hbegins with hnames | hbegins
    · exact h.named.mp (List.isEmpty_eq_false_iff.mp hnames)
    · obtain ⟨hown, hbegins⟩ := Bool.or_eq_false_iff.mp hbegins
      by_cases hnames : field.names = []
      · refine hlone ?_ hbegins
        rw [Field.isLoneName, hnames, Bool.not_eq_eq_eq_not.mp hown]
        rfl
      · exact h.named.mp hnames

/-- **Entries that are read keep their names**: none is taken for a name of an entry after it. -/
theorem isParsed_of_rounds (htypes : ParsesTypes bound)
    (h : SpacedRounds (commaRound (.call .parameterDecl)) cursor nodes)
    (hnode : IsReadBy .spaced .parameterDecl bound node)
    (hgap : declarations.Reads .token (declarations.gapIn .spaced) node.stop (some ([], cursor)))
    {fields : FieldList} (hread : FieldList.ofParameters (node :: nodes) = .ok fields) :
    fields.IsParsed ∧ (beginsWithoutType fields.toList = false → ReadsNames node.start) := by
  induction h generalizing node fields with
  | done =>
    obtain ⟨field, more, rfl, hmore, hentry⟩ := exists_entry htypes hnode hread
    cases hmore
    exact hentry.cons isParsed_nil nofun
  | more hround hgapNext _ ih =>
    obtain ⟨field, more, rfl, hmore, hentry⟩ := exists_entry htypes hnode hread
    obtain ⟨_, hnext, hcomma⟩ := exists_comma hround
    have hlt := hnode.reads.length_le_of_gap hgap hnode.length_lt
    obtain ⟨other, rfl, rfl, rfl, hother⟩ := hnext.exists_one nofun (hcomma.length_le.trans_lt hlt)
    obtain ⟨hparsed, hbegins⟩ := ih hother hgapNext hmore
    refine hentry.cons hparsed fun hname hmoreBegins => ?_
    obtain ⟨_, hident⟩ := hentry.lone hname
    exact (hbegins hmoreBegins).cons hident hgap hcomma

/-! ## 4. Lists in parentheses -/

theorem isParsed_parameters (htypes : ParsesTypes bound)
    (h : IsReadBy .spaced .parameters bound node) {fields : FieldList}
    (hread : FieldList.ofParameters node.children = .ok fields) : fields.IsParsed := by
  obtain ⟨children, hnode, hbody⟩ := h.exists_children nofun
  obtain ⟨_, _, hopen, hgap, hbody⟩ := hbody.of_seq_silent rfl
  have hlt := hopen.length_le_of_gap hgap h.length_lt
  obtain ⟨_, _, hlines, hgap, hbody⟩ := hbody.of_seq_silent rfl
  have hlt := hlines.length_le_of_gap hgap hlt
  obtain ⟨_, _, _, _, hentries, -, hclose, rfl⟩ := hbody.of_seq
  obtain rfl := hclose.nodes_eq_nil rfl
  rw [hnode, List.append_nil] at hread
  rcases hentries.of_opt with hentries | ⟨rfl, -⟩
  · obtain ⟨_, _, _, _, hfirst, hgap, hmore, rfl⟩ := hentries.of_seq
    obtain ⟨_, _, _, _, hmany, -, hcomma, rfl⟩ := hmore.of_seq
    obtain rfl := hcomma.nodes_eq_nil rfl
    obtain ⟨first, rfl, -, rfl, hfirstNode⟩ := hfirst.exists_one nofun hlt
    rw [List.append_nil] at hread
    exact (isParsed_of_rounds htypes hmany.spacedRounds hfirstNode hgap hread).1
  · cases hread
    exact isParsed_nil

/-! ## 5. Signatures -/

/-- A single type without a name is a list of results. -/
theorem isParsed_single {type : TypeExpr} (h : type.IsParsed) :
    (FieldList.cons [] type none .nil).IsParsed where
  shape := {
    names := List.forall_mem_singleton.mpr rfl
    tags := List.forall_mem_singleton.mpr rfl
    keeps := Bool.and_eq_true_iff.mpr ⟨Bool.or_true _, rfl⟩ }
  types := List.forall_mem_singleton.mpr (h.variadicElem_eq.symm ▸ h)

/-- Results are a list in parentheses, or a type. -/
theorem isParsed_results (htypes : ParsesTypes bound)
    (h : declarations.Reads .spaced (.opt (.call .result)) cursor (some (nodes, last)))
    (hbound : cursor.rest.length < bound) {fields : FieldList}
    (hread : FieldList.ofResults nodes = .ok fields) : fields.IsParsed := by
  rcases h.of_opt with hresult | ⟨rfl, -⟩
  · obtain ⟨_, rfl, hform⟩ := hresult.of_call nofun
    rcases hform.of_alt with hlist | ⟨-, htype⟩
    · obtain ⟨list, rfl, -, -, hlistNode⟩ := hlist.exists_one nofun hbound
      obtain ⟨_, hlistEq, -⟩ := hlistNode.exists_children nofun
      rw [hlistEq, FieldList.ofResults] at hread
      rw [hlistEq] at hlistNode
      exact isParsed_parameters htypes hlistNode hread
    · obtain ⟨single, rfl, -, -, hsingle⟩ := htype.exists_one nofun hbound
      obtain ⟨_, hsingleEq, -⟩ := hsingle.exists_children nofun
      rw [hsingleEq, FieldList.ofResults, ← hsingleEq] at hread
      obtain ⟨type, htype, hread⟩ := bind_eq_ok.mp hread
      cases hread
      exact isParsed_single (htypes hsingle htype)
  · cases hread
    exact isParsed_nil

theorem exists_signature (htypes : ParsesTypes bound) (h : IsReadBy .spaced .signature bound node) :
    ∃ start stop params results,
      node = ⟨.signature, node.start, node.stop, ⟨.parameters, start, stop, params⟩ :: results⟩ ∧
        (∀ fields, FieldList.ofParameters params = .ok fields → fields.IsParsed) ∧
        ∀ fields, FieldList.ofResults results = .ok fields → fields.IsParsed := by
  obtain ⟨_, hnode, hbody⟩ := h.exists_children nofun
  obtain ⟨_, _, _, results, hparams, hgap, hresults, rfl⟩ := hbody.of_seq
  have hlt := hparams.length_le_of_gap hgap h.length_lt
  obtain ⟨params, rfl, -, -, hparamsNode⟩ := hparams.exists_one nofun h.length_lt
  obtain ⟨children, hparamsEq, -⟩ := hparamsNode.exists_children nofun
  rw [hparamsEq] at hnode hparamsNode
  exact ⟨_, _, children, results, hnode, fun _ => isParsed_parameters htypes hparamsNode,
    fun _ => isParsed_results htypes hresults hlt⟩

/-! ## 6. Fields and members -/

/-- An embedded type is a name. -/
theorem exists_embedded
    (h : declarations.Reads .spaced (oneOf [.call .qualifiedIdent, .call .typeName]) cursor
      (some (nodes, last))) :
    ∃ rule children, nodes = [⟨rule, cursor, last, children⟩] ∧
      ∀ type, TypeExpr.ofNode ⟨rule, cursor, last, children⟩ = .ok type →
        type.IsParsed ∧ type.isTypeName = true := by
  rcases h.of_alt with h | ⟨-, h⟩
  · obtain ⟨children, rfl, hread⟩ := h.of_call nofun
    exact ⟨_, children, rfl, fun type htype => isParsed_qualified hread htype⟩
  · obtain ⟨children, rfl, hread⟩ := h.of_call nofun
    exact ⟨_, children, rfl, fun type htype => isParsed_typeName hread htype⟩

theorem isEmbeddable_of_isTypeName {type : TypeExpr} (h : type.isTypeName = true) :
    type.isEmbeddable = true := by
  cases type <;> first | rfl | cases h

theorem exists_field (htypes : ParsesTypes bound) (h : IsReadBy .spaced .fieldDecl bound node)
    {fields : FieldList} (hread : FieldList.ofFields (node :: nodes) = .ok fields) :
    BeginsWith FieldList.ofFields nodes fields fun field =>
      field.IsStructField ∧ field.type.IsParsed := by
  obtain ⟨_, hnode, hbody⟩ := h.exists_children nofun
  obtain ⟨_, _, _, tags, hfield, hgap, htags, rfl⟩ := hbody.of_seq
  have hlt := hfield.length_le_of_gap hgap h.length_lt
  have htag : ∀ tag, tags.head?.map Node.text = some tag → isTag tag = true := by
    intro tag htag
    obtain ⟨tagNode, hhead, rfl⟩ := Option.map_eq_some_iff.mp htag
    have htagNodes : ∀ other ∈ tags, IsReadBy .spaced .fieldTag bound other :=
      htags.isReadBy nofun (by decide) hlt
    exact isTag_of_reads (htagNodes tagNode (List.mem_of_head? hhead)) nofun
  rcases hfield.of_alt with hnamed | ⟨-, hembedded⟩
  · obtain ⟨_, rfl, hparts⟩ := hnamed.of_call nofun
    obtain ⟨_, _, _, _, hlist, hgap, htype, rfl⟩ := hparts.of_seq
    obtain ⟨list, rfl, -, -, hlistNode⟩ := hlist.exists_one nofun h.length_lt
    obtain ⟨typeNode, rfl, -, -, htypeNode⟩ :=
      htype.exists_one nofun (hlist.length_le_of_gap hgap h.length_lt)
    obtain ⟨hne, hall⟩ := areNames_of_reads hlistNode
    rw [hnode, List.singleton_append, List.singleton_append, FieldList.ofFields] at hread
    obtain ⟨type, htype, hread⟩ := bind_eq_ok.mp hread
    obtain ⟨more, hmore, hread⟩ := bind_eq_ok.mp hread
    cases hread
    exact ⟨⟨identifiersOf list, type, tags.head?.map Node.text⟩, more, rfl, hmore,
      ⟨hall, fun hnil => absurd hnil hne, htag⟩, htypes htypeNode htype⟩
  · obtain ⟨_, rfl, hparts⟩ := hembedded.of_call nofun
    obtain ⟨_, _, _, _, hpointer, -, htype, rfl⟩ := hparts.of_seq
    obtain ⟨rule, children, rfl, hchild⟩ := exists_embedded htype
    rcases hpointer.of_opt with hpointer | ⟨rfl, -⟩
    · obtain ⟨_, rfl, -⟩ := hpointer.of_call nofun
      rw [hnode, List.singleton_append, List.singleton_append, FieldList.ofFields] at hread
      obtain ⟨type, hof, hread⟩ := bind_eq_ok.mp hread
      obtain ⟨more, hmore, hread⟩ := bind_eq_ok.mp hread
      cases hread
      obtain ⟨hparsed, hname⟩ := hchild type hof
      exact ⟨⟨[], .pointer type, tags.head?.map Node.text⟩, more, rfl, hmore,
        ⟨rfl, fun _ => hname, htag⟩, .pointer hparsed⟩
    · rw [hnode, List.nil_append, List.singleton_append, FieldList.ofFields] at hread
      · obtain ⟨type, hof, hread⟩ := bind_eq_ok.mp hread
        obtain ⟨more, hmore, hread⟩ := bind_eq_ok.mp hread
        cases hread
        obtain ⟨hparsed, hname⟩ := hchild type hof
        exact ⟨⟨[], type, tags.head?.map Node.text⟩, more, rfl, hmore,
          ⟨rfl, fun _ => isEmbeddable_of_isTypeName hname, htag⟩, hparsed⟩
      · nofun

theorem exists_member (htypes : ParsesTypes bound) (h : IsReadBy .spaced .methodSpec bound node)
    {fields : FieldList} (hread : FieldList.ofMembers (node :: nodes) = .ok fields) :
    BeginsWith FieldList.ofMembers nodes fields fun field =>
      field.IsMember ∧ field.type.IsParsed := by
  obtain ⟨_, hnode, hbody⟩ := h.exists_children nofun
  rcases hbody.of_alt with hmethod | ⟨-, hembedded⟩
  · obtain ⟨_, rfl, hparts⟩ := hmethod.of_call nofun
    obtain ⟨_, _, _, _, hname, hgap, hsignature, rfl⟩ := hparts.of_seq
    obtain ⟨name, rfl, -, -, hnameNode⟩ := hname.exists_one nofun h.length_lt
    obtain ⟨signature, rfl, -, -, hsignatureNode⟩ :=
      hsignature.exists_one nofun (hname.length_le_of_gap hgap h.length_lt)
    obtain ⟨_, _, params, results, hsignatureEq, hparams, hresults⟩ :=
      exists_signature htypes hsignatureNode
    rw [hnode, List.singleton_append, hsignatureEq, FieldList.ofMembers] at hread
    obtain ⟨paramFields, hparamFields, hread⟩ := bind_eq_ok.mp hread
    obtain ⟨resultFields, hresultFields, hread⟩ := bind_eq_ok.mp hread
    obtain ⟨more, hmore, hread⟩ := bind_eq_ok.mp hread
    cases hread
    have hparams := hparams _ hparamFields
    have hresults := hresults _ hresultFields
    refine ⟨⟨[name.text], .function paramFields resultFields, none⟩, more, rfl, hmore, ?_, ?_⟩
    · exact ⟨.inl ⟨_, _, _, rfl, isName_of_reads hnameNode nofun, rfl⟩, rfl⟩
    · exact .function hparams.shape hresults.shape hparams.types hresults.types
  · obtain ⟨_, rfl, hparts⟩ := hembedded.of_call nofun
    obtain ⟨rule, children, rfl, htype⟩ := exists_embedded hparts
    rw [hnode, FieldList.ofMembers] at hread
    obtain ⟨type, hof, hread⟩ := bind_eq_ok.mp hread
    obtain ⟨more, hmore, hread⟩ := bind_eq_ok.mp hread
    cases hread
    obtain ⟨hparsed, hname⟩ := htype type hof
    exact ⟨⟨[], type, none⟩, more, rfl, hmore, ⟨.inr ⟨rfl, hname⟩, rfl⟩, hparsed⟩

/-! ## 7. Types -/

section Forms

variable {type : TypeExpr} {start stop : Cursor} {children : List Node}

theorem isParsed_func (htypes : ParsesTypes start.rest.length)
    (h : declarations.Reads .spaced (ruleBody .funcType) start (some (children, stop)))
    (htype : TypeExpr.ofNode ⟨.funcType, start, stop, children⟩ = .ok type) :
    type.IsParsed := by
  obtain ⟨_, _, hword, hgap, h⟩ := h.of_seq_silent rfl
  obtain ⟨signature, rfl, -, -, hsignature⟩ :=
    h.exists_one nofun (hword.length_lt_of_gap rfl hgap (Nat.le_refl _))
  obtain ⟨_, _, params, results, hnode, hparams, hresults⟩ := exists_signature htypes hsignature
  rw [hnode, TypeExpr.ofNode] at htype
  obtain ⟨paramFields, hparamFields, htype⟩ := bind_eq_ok.mp htype
  obtain ⟨resultFields, hresultFields, htype⟩ := bind_eq_ok.mp htype
  cases htype
  have hparams := hparams _ hparamFields
  have hresults := hresults _ hresultFields
  exact .function hparams.shape hresults.shape hparams.types hresults.types

/-- Between two brackets only items make nodes. -/
theorem eq_of_mem_calls {opening closing : String} {item other : Rule}
    (h : other ∈ (inOrder
      [text opening, newlines, .opt (separated (.call item)), text closing]).calls) :
    other = item := by
  simpa [Pattern.calls, inOrder, oneOf, separated, separator, newlines, newline, atLeastOnce,
    text] using h

/-- The nodes of a list in braces are what the rule of its items reads. -/
theorem isReadBy_of_braces {word item : Rule} {spelling : String}
    (h : declarations.Reads .spaced
      (inOrder [keyword word spelling, text "\x7b", newlines, .opt (separated (.call item)),
        text "\x7d"]) start (some (children, stop)))
    (hword : (keyword word spelling).consumes = true) :
    ∀ node ∈ children, IsReadBy .spaced item start.rest.length node := by
  obtain ⟨_, _, hkeyword, hgap, h⟩ := h.of_seq_silent rfl
  have hlt := hkeyword.length_lt_of_gap hword hgap (Nat.le_refl _)
  exact h.isReadBy nofun (fun _ => eq_of_mem_calls) hlt

theorem isParsed_struct (htypes : ParsesTypes start.rest.length)
    (h : declarations.Reads .spaced (ruleBody .structType) start (some (children, stop)))
    (htype : TypeExpr.ofNode ⟨.structType, start, stop, children⟩ = .ok type) :
    type.IsParsed := by
  have hnodes := isReadBy_of_braces h rfl
  rw [TypeExpr.ofNode] at htype
  obtain ⟨fields, hfields, htype⟩ := bind_eq_ok.mp htype
  cases htype
  have hall := forall_of_beginsWith rfl
    (fun node hmem {_ _} => exists_field htypes (hnodes node hmem)) hfields
  exact .struct (fun field hmem => (hall field hmem).1) fun field hmem => (hall field hmem).2

theorem isParsed_interface (htypes : ParsesTypes start.rest.length)
    (h : declarations.Reads .spaced (ruleBody .interfaceType) start (some (children, stop)))
    (htype : TypeExpr.ofNode ⟨.interfaceType, start, stop, children⟩ = .ok type) :
    type.IsParsed := by
  have hnodes := isReadBy_of_braces h rfl
  rw [TypeExpr.ofNode] at htype
  obtain ⟨members, hmembers, htype⟩ := bind_eq_ok.mp htype
  cases htype
  have hall := forall_of_beginsWith rfl
    (fun node hmem {_ _} => exists_member htypes (hnodes node hmem)) hmembers
  exact .interface (fun field hmem => (hall field hmem).1) fun field hmem => (hall field hmem).2

end Forms

/-- **Types that are read have the shape of types.** -/
theorem isParsed_of_reads {type : TypeExpr} (h : IsReadBy .spaced .typeExpr bound node)
    (htype : TypeExpr.ofNode node = .ok type) : type.IsParsed := by
  induction hn : node.start.rest.length using Nat.strongRecOn generalizing node type bound with
  | ind n ih =>
    -- the types in a type stand after its start
    have htypes : ParsesTypes node.start.rest.length := fun {inner innerType} hinner hinnerType =>
      ih _ (hn ▸ hinner.length_lt) hinner hinnerType rfl
    obtain ⟨form, children, hform, hnode, hread⟩ := exists_form h
    rw [hnode, TypeExpr.ofNode] at htype
    simp only [typeForms, namelessForms, List.mem_append, List.mem_cons, List.not_mem_nil,
      or_false] at hform
    rcases hform with hform | hform
    · rcases hform with rfl | rfl | rfl | rfl | rfl | rfl | rfl | rfl | rfl | rfl
      · exact isParsed_pointer htypes hread htype
      · exact isParsed_slice htypes hread htype
      · exact isParsed_array htypes hread htype
      · exact isParsed_map htypes hread htype
      · exact isParsed_recvChan htypes hread htype
      · exact isParsed_chan htypes hread htype
      · exact isParsed_func htypes hread htype
      · exact isParsed_struct htypes hread htype
      · exact isParsed_interface htypes hread htype
      · exact isParsed_paren htypes hread htype
    · rcases hform with rfl | rfl
      · exact (isParsed_qualified hread htype).1
      · exact (isParsed_typeName hread htype).1

end GoStencil.Grammar
