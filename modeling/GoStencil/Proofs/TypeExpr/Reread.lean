import GoStencil.TypeExpr.Printer
import GoStencil.Text.Blank
import GoStencil.Proofs.Equivalence
import GoStencil.Proofs.Grammar.Words
import GoStencil.Proofs.Matching.Goals

/-!
# Types that can be written, and what they are read as

Not every tree is a type of the language, and some trees are written like others: a bidirectional
channel of an unparenthesised receive channel is written with parentheses, and the parentheses of
a single result are those of a result list.

* `TypeExpr.IsWellFormed`: the trees that are types of the language.
* `TypeExpr.IsReadable`: those, and some more that are written and read like them.
* `TypeExpr.reread`: the tree that is written the same and comes back from the text.
* `TypeExpr.equivalent_reread`: it is an equivalent type.
* `TypeExpr.reread_eq_self`: it is the tree itself unless one of the two cases occurs in it.
-/

namespace GoStencil

/-! ## 1. Well-formed types -/

/-- Whether a text can stand as the length of an array. -/
def isArrayLength (length : String) : Bool :=
  !length.toList.isEmpty && Text.trim length == length &&
    length.toList.all (fun c => c != ']' && c != '\n' && c != '\r') &&
    !(List.isPrefixOf ['/', '/'] length.toList) &&
    !(List.isPrefixOf ['/', '*'] length.toList)

/-- Whether some characters are the inside of a string literal up to its closing quote. -/
def closesString : List Char → Bool
  | [] => false
  | ['"'] => true
  | '\\' :: _ :: rest => closesString rest
  | c :: rest => c != '"' && c != '\\' && c != '\n' && c != '\r' && closesString rest

/-- Whether some characters are the inside of a raw string literal up to its closing quote. -/
def closesRawString : List Char → Bool
  | [] => false
  | ['\x60'] => true
  | c :: rest => c != '\x60' && closesRawString rest

/-- Whether a text is a string literal or a raw string literal. -/
def isTag (tag : String) : Bool :=
  match tag.toList with
  | '"' :: rest => closesString rest
  | '\x60' :: rest => closesRawString rest
  | _ => false

/-- Whether the type is a name, perhaps of another package. -/
def TypeExpr.isTypeName : TypeExpr → Bool
  | .name _ | .qualified _ _ => true
  | _ => false

/-- Whether a struct can have an unnamed field of the type. -/
def TypeExpr.isEmbeddable : TypeExpr → Bool
  | .pointer elem => elem.isTypeName
  | type => type.isTypeName

/-- Whether a list of parameters or results declares names and nothing else, and does so for all
    entries or for none. -/
structure FieldList.AreParameters (fields : FieldList) : Prop where
  names : ∀ field ∈ fields.toList, field.names.all Grammar.isName = true
  tags : ∀ field ∈ fields.toList, field.tag = none
  uniform : (∀ field ∈ fields.toList, field.names = []) ∨
    ∀ field ∈ fields.toList, field.names ≠ []

/-- Whether an entry can be a field of a struct. -/
structure Field.IsStructField (field : Field) : Prop where
  names : field.names.all Grammar.isName = true
  embedded : field.names = [] → field.type.isEmbeddable = true
  tag : ∀ tag, field.tag = some tag → isTag tag = true

/-- Whether an entry can be a member of an interface: a method, or an embedded interface. -/
structure Field.IsMember (field : Field) : Prop where
  shape : (∃ name params results, field.names = [name] ∧ Grammar.isName name = true ∧
      field.type = .function params results) ∨ field.names = [] ∧ field.type.isTypeName = true
  tag : field.tag = none

/-- Whether a tree is a type of the language. A type that takes any number of arguments is none,
    but parameters and results can have it. -/
inductive TypeExpr.IsWellFormed : TypeExpr → Prop where
  | name {ident : String} (h : Grammar.isName ident = true) : IsWellFormed (.name ident)
  | qualified {package ident : String} (hpackage : Grammar.isName package = true)
      (hident : Grammar.isName ident = true) : IsWellFormed (.qualified package ident)
  | pointer {elem : TypeExpr} (h : IsWellFormed elem) : IsWellFormed (.pointer elem)
  | slice {elem : TypeExpr} (h : IsWellFormed elem) : IsWellFormed (.array none elem)
  | array {length : String} {elem : TypeExpr} (hlength : isArrayLength length = true)
      (h : IsWellFormed elem) : IsWellFormed (.array (some length) elem)
  | paren {inner : TypeExpr} (h : IsWellFormed inner) : IsWellFormed (.paren inner)
  | channel {direction : Direction} {value : TypeExpr} (h : IsWellFormed value) :
      IsWellFormed (.channel direction value)
  | map {key value : TypeExpr} (hkey : IsWellFormed key) (hvalue : IsWellFormed value) :
      IsWellFormed (.map key value)
  | function {params results : FieldList} (hparams : params.AreParameters)
      (hresults : results.AreParameters)
      (hsingle : ∀ elem tag, results ≠ .cons [] (.variadic elem) tag .nil)
      (hparamTypes : ∀ field ∈ params.toList, IsWellFormed field.type.variadicElem)
      (hresultTypes : ∀ field ∈ results.toList, IsWellFormed field.type.variadicElem) :
      IsWellFormed (.function params results)
  | struct {fields : FieldList} (hfields : ∀ field ∈ fields.toList, field.IsStructField)
      (htypes : ∀ field ∈ fields.toList, IsWellFormed field.type) : IsWellFormed (.struct fields)
  | interface {members : FieldList} (hmembers : ∀ field ∈ members.toList, field.IsMember)
      (htypes : ∀ field ∈ members.toList, IsWellFormed field.type) :
      IsWellFormed (.interface members)

/-! ## 2. Readable types -/

/-- Whether the type is a name of this package. -/
def TypeExpr.isOwnName : TypeExpr → Bool
  | .name _ => true
  | _ => false

/-- Whether an entry is a name and nothing else. -/
def Field.isLoneName (field : Field) : Bool :=
  field.names.isEmpty && field.type.isOwnName

/-- Whether the names that some entries begin with are followed by no type. -/
def beginsWithoutType : List Field → Bool
  | [] => true
  | field :: rest => field.names.isEmpty && (!field.type.isOwnName || beginsWithoutType rest)

/-- Whether no entry of a list is taken for one of the names of an entry after it. -/
def keepsNames : List Field → Bool
  | [] => true
  | field :: rest => (!field.isLoneName || beginsWithoutType rest) && keepsNames rest

/-- Whether a list of parameters or results declares names and nothing else. Entries with names and
    without can stand together, as long as it is clear which names have a type. -/
structure FieldList.AreEntries (fields : FieldList) : Prop where
  names : ∀ field ∈ fields.toList, field.names.all Grammar.isName = true
  tags : ∀ field ∈ fields.toList, field.tag = none
  keeps : keepsNames fields.toList = true

theorem beginsWithoutType_of_unnamed {fields : List Field}
    (h : ∀ field ∈ fields, field.names = []) : beginsWithoutType fields = true := by
  induction fields with
  | nil => rfl
  | cons field rest ih =>
    rw [beginsWithoutType, h field List.mem_cons_self,
      ih fun other hmem => h other (List.mem_cons_of_mem _ hmem), Bool.or_true]
    rfl

theorem FieldList.AreParameters.areEntries {fields : FieldList} (h : fields.AreParameters) :
    fields.AreEntries := by
  refine ⟨h.names, h.tags, ?_⟩
  have huniform := h.uniform
  generalize fields.toList = entries at huniform
  induction entries with
  | nil => rfl
  | cons field rest ih =>
    rw [keepsNames, Bool.and_eq_true_iff]
    rcases huniform with hnone | hsome
    · refine ⟨?_, ih (.inl fun other hmem => hnone other (List.mem_cons_of_mem _ hmem))⟩
      rw [beginsWithoutType_of_unnamed fun other hmem => hnone other (List.mem_cons_of_mem _ hmem),
        Bool.or_true]
    · refine ⟨?_, ih (.inr fun other hmem => hsome other (List.mem_cons_of_mem _ hmem))⟩
      have hnames : field.names.isEmpty = false :=
        List.isEmpty_eq_false_iff.mpr (hsome field List.mem_cons_self)
      rw [Field.isLoneName, hnames]
      rfl

/-- Whether a type is read again from its text. Well-formed types are, but entries with names and
    without can stand together. -/
inductive TypeExpr.IsReadable : TypeExpr → Prop where
  | name {ident : String} (h : Grammar.isName ident = true) : IsReadable (.name ident)
  | qualified {package ident : String} (hpackage : Grammar.isName package = true)
      (hident : Grammar.isName ident = true) : IsReadable (.qualified package ident)
  | pointer {elem : TypeExpr} (h : IsReadable elem) : IsReadable (.pointer elem)
  | slice {elem : TypeExpr} (h : IsReadable elem) : IsReadable (.array none elem)
  | array {length : String} {elem : TypeExpr} (hlength : isArrayLength length = true)
      (h : IsReadable elem) : IsReadable (.array (some length) elem)
  | paren {inner : TypeExpr} (h : IsReadable inner) : IsReadable (.paren inner)
  | channel {direction : Direction} {value : TypeExpr} (h : IsReadable value) :
      IsReadable (.channel direction value)
  | map {key value : TypeExpr} (hkey : IsReadable key) (hvalue : IsReadable value) :
      IsReadable (.map key value)
  | function {params results : FieldList} (hparams : params.AreEntries)
      (hresults : results.AreEntries)
      (hsingle : ∀ elem tag, results ≠ .cons [] (.variadic elem) tag .nil)
      (hparamTypes : ∀ field ∈ params.toList, IsReadable field.type.variadicElem)
      (hresultTypes : ∀ field ∈ results.toList, IsReadable field.type.variadicElem) :
      IsReadable (.function params results)
  | struct {fields : FieldList} (hfields : ∀ field ∈ fields.toList, field.IsStructField)
      (htypes : ∀ field ∈ fields.toList, IsReadable field.type) : IsReadable (.struct fields)
  | interface {members : FieldList} (hmembers : ∀ field ∈ members.toList, field.IsMember)
      (htypes : ∀ field ∈ members.toList, IsReadable field.type) :
      IsReadable (.interface members)

theorem TypeExpr.IsWellFormed.isReadable {type : TypeExpr} (h : type.IsWellFormed) :
    type.IsReadable := by
  induction h with
  | name h => exact .name h
  | qualified hpackage hident => exact .qualified hpackage hident
  | pointer _ ih => exact .pointer ih
  | slice _ ih => exact .slice ih
  | array hlength _ ih => exact .array hlength ih
  | paren _ ih => exact .paren ih
  | channel _ ih => exact .channel ih
  | map _ _ ihkey ihvalue => exact .map ihkey ihvalue
  | function hparams hresults hsingle _ _ ihparams ihresults =>
    exact .function hparams.areEntries hresults.areEntries hsingle ihparams ihresults
  | struct hfields _ ih => exact .struct hfields ih
  | interface hmembers _ ih => exact .interface hmembers ih

theorem TypeExpr.IsReadable.variadicElem_eq {type : TypeExpr} (h : type.IsReadable) :
    type.variadicElem = type := by
  cases h <;> rfl

/-! ## 3. What types are read as -/

/-- A result list without parentheses around the type of a single unnamed result: they are taken
    for those of the list. -/
def FieldList.unwrapSingle : FieldList → FieldList
  | .cons [] (.paren inner) tag .nil => .cons [] inner tag .nil
  | results => results

mutual

/-- The type that is read from the text of a type. -/
def TypeExpr.reread : TypeExpr → TypeExpr
  | .name ident => .name ident
  | .qualified package ident => .qualified package ident
  | .pointer elem => .pointer elem.reread
  | .array length elem => .array length elem.reread
  | .variadic elem => .variadic elem.reread
  | .paren inner => .paren inner.reread
  | .channel direction value =>
    .channel direction (if needsParens direction value then .paren value.reread else value.reread)
  | .map key value => .map key.reread value.reread
  | .function params results => .function params.reread results.reread.unwrapSingle
  | .struct fields => .struct fields.reread
  | .interface members => .interface members.reread

/-- The entries that are read from the text of some entries. -/
def FieldList.reread : FieldList → FieldList
  | .nil => .nil
  | .cons names type tag rest => .cons names type.reread tag rest.reread

end

/-- The entry that is read from the text of an entry. -/
def Field.reread (field : Field) : Field :=
  { field with type := field.type.reread }

theorem FieldList.reread_eq (fields : FieldList) :
    fields.reread = .ofList (fields.toList.map Field.reread) := by
  fun_induction FieldList.toList fields with
  | case1 => rfl
  | case2 names type tag rest ih =>
    rw [FieldList.reread, ih]
    rfl

mutual

/-- Whether a type and all types in it have a property. -/
def TypeExpr.everywhere (p : TypeExpr → Bool) : TypeExpr → Bool
  | .name ident => p (.name ident)
  | .qualified package ident => p (.qualified package ident)
  | .pointer elem => p (.pointer elem) && elem.everywhere p
  | .array length elem => p (.array length elem) && elem.everywhere p
  | .variadic elem => p (.variadic elem) && elem.everywhere p
  | .paren inner => p (.paren inner) && inner.everywhere p
  | .channel direction value => p (.channel direction value) && value.everywhere p
  | .map key value => p (.map key value) && (key.everywhere p && value.everywhere p)
  | .function params results =>
    p (.function params results) && (params.everywhere p && results.everywhere p)
  | .struct fields => p (.struct fields) && fields.everywhere p
  | .interface members => p (.interface members) && members.everywhere p

/-- Whether all types in the entries of a list have a property. -/
def FieldList.everywhere (p : TypeExpr → Bool) : FieldList → Bool
  | .nil => true
  | .cons _ type _ rest => type.everywhere p && rest.everywhere p

end

theorem FieldList.everywhere_iff {p : TypeExpr → Bool} {fields : FieldList} :
    fields.everywhere p = true ↔ ∀ field ∈ fields.toList, field.type.everywhere p = true := by
  fun_induction FieldList.toList fields with
  | case1 => simp [FieldList.everywhere]
  | case2 _ _ _ rest ih =>
    rw [FieldList.everywhere, Bool.and_eq_true_iff, ih, List.forall_mem_cons]

/-- Whether a type is no bidirectional channel of an unparenthesised receive channel. -/
def TypeExpr.addsNoParens : TypeExpr → Bool
  | .channel direction value => !needsParens direction value
  | _ => true

/-- Whether a type is no function with a single unnamed result in parentheses. -/
def TypeExpr.losesNoParens : TypeExpr → Bool
  | .function _ results => results.unwrapSingle == results
  | _ => true

theorem FieldList.normalTypes_unwrapSingle (results : FieldList) :
    results.unwrapSingle.normalTypes = results.normalTypes := by
  unfold unwrapSingle
  split <;> rfl

mutual

theorem TypeExpr.normal_reread : ∀ type : TypeExpr, type.reread.normal = type.normal
  | .name _ | .qualified _ _ => rfl
  | .pointer elem => congrArg TypeExpr.pointer (TypeExpr.normal_reread elem)
  | .array length elem => congrArg (TypeExpr.array length) (TypeExpr.normal_reread elem)
  | .variadic elem => congrArg TypeExpr.variadic (TypeExpr.normal_reread elem)
  | .paren inner => TypeExpr.normal_reread inner
  | .channel direction value => by
    have ih := TypeExpr.normal_reread value
    rw [TypeExpr.reread, TypeExpr.normal, TypeExpr.normal]
    split
    · rw [TypeExpr.normal, ih]
    · rw [ih]
  | .map key value => by
    rw [TypeExpr.reread, TypeExpr.normal, TypeExpr.normal, TypeExpr.normal_reread key,
      TypeExpr.normal_reread value]
  | .function params results => by
    rw [TypeExpr.reread, TypeExpr.normal, TypeExpr.normal, FieldList.normalTypes_unwrapSingle,
      FieldList.normalTypes_reread params, FieldList.normalTypes_reread results]
  | .struct fields => by
    rw [TypeExpr.reread, TypeExpr.normal, TypeExpr.normal, FieldList.normalNamed_reread fields]
  | .interface members => by
    rw [TypeExpr.reread, TypeExpr.normal, TypeExpr.normal, FieldList.normalNamed_reread members]

theorem FieldList.normalTypes_reread : ∀ fields : FieldList,
    fields.reread.normalTypes = fields.normalTypes
  | .nil => rfl
  | .cons names type tag rest => by
    rw [FieldList.reread, FieldList.normalTypes, FieldList.normalTypes,
      TypeExpr.normal_reread type, FieldList.normalTypes_reread rest]

theorem FieldList.normalNamed_reread : ∀ fields : FieldList,
    fields.reread.normalNamed = fields.normalNamed
  | .nil => rfl
  | .cons names type tag rest => by
    rw [FieldList.reread, FieldList.normalNamed, FieldList.normalNamed,
      TypeExpr.normal_reread type, FieldList.normalNamed_reread rest]

end

/-- **What a type is read as is equivalent to it.** -/
theorem TypeExpr.equivalent_reread (type : TypeExpr) : type.reread.equivalent type = true :=
  (equivalent_iff_normal_eq _ _).mpr type.normal_reread

mutual

/-- **A type is read as itself** unless parentheses are added or lost. -/
theorem TypeExpr.reread_eq_self : ∀ type : TypeExpr, type.everywhere TypeExpr.addsNoParens = true →
    type.everywhere TypeExpr.losesNoParens = true → type.reread = type
  | .name _, _, _ | .qualified _ _, _, _ => rfl
  | .pointer elem, hadds, hloses =>
    congrArg TypeExpr.pointer (TypeExpr.reread_eq_self elem hadds hloses)
  | .array length elem, hadds, hloses =>
    congrArg (TypeExpr.array length) (TypeExpr.reread_eq_self elem hadds hloses)
  | .variadic elem, hadds, hloses =>
    congrArg TypeExpr.variadic (TypeExpr.reread_eq_self elem hadds hloses)
  | .paren inner, hadds, hloses =>
    congrArg TypeExpr.paren (TypeExpr.reread_eq_self inner hadds hloses)
  | .channel direction value, hadds, hloses => by
    obtain ⟨hparens, hvalue⟩ := Bool.and_eq_true_iff.mp hadds
    have hvalue' : value.everywhere TypeExpr.losesNoParens = true := hloses
    have hnone : ¬ needsParens direction value = true := by
      rw [TypeExpr.addsNoParens, Bool.not_eq_true'] at hparens
      rw [hparens]
      nofun
    rw [TypeExpr.reread, if_neg hnone, TypeExpr.reread_eq_self value hvalue hvalue']
  | .map key value, hadds, hloses => by
    obtain ⟨-, hboth⟩ := Bool.and_eq_true_iff.mp hadds
    obtain ⟨hkey, hvalue⟩ := Bool.and_eq_true_iff.mp hboth
    obtain ⟨-, hboth'⟩ := Bool.and_eq_true_iff.mp hloses
    obtain ⟨hkey', hvalue'⟩ := Bool.and_eq_true_iff.mp hboth'
    rw [TypeExpr.reread, TypeExpr.reread_eq_self key hkey hkey',
      TypeExpr.reread_eq_self value hvalue hvalue']
  | .function params results, hadds, hloses => by
    obtain ⟨-, hboth⟩ := Bool.and_eq_true_iff.mp hadds
    obtain ⟨hparams, hresults⟩ := Bool.and_eq_true_iff.mp hboth
    obtain ⟨hsingle, hboth'⟩ := Bool.and_eq_true_iff.mp hloses
    obtain ⟨hparams', hresults'⟩ := Bool.and_eq_true_iff.mp hboth'
    rw [TypeExpr.reread, FieldList.reread_eq_self params hparams hparams',
      FieldList.reread_eq_self results hresults hresults', beq_iff_eq.mp hsingle]
  | .struct fields, hadds, hloses =>
    congrArg TypeExpr.struct (FieldList.reread_eq_self fields hadds hloses)
  | .interface members, hadds, hloses =>
    congrArg TypeExpr.interface (FieldList.reread_eq_self members hadds hloses)

theorem FieldList.reread_eq_self : ∀ fields : FieldList,
    fields.everywhere TypeExpr.addsNoParens = true →
    fields.everywhere TypeExpr.losesNoParens = true → fields.reread = fields
  | .nil, _, _ => rfl
  | .cons names type tag rest, hadds, hloses => by
    obtain ⟨htype, hrest⟩ := Bool.and_eq_true_iff.mp hadds
    obtain ⟨htype', hrest'⟩ := Bool.and_eq_true_iff.mp hloses
    rw [FieldList.reread, TypeExpr.reread_eq_self type htype htype',
      FieldList.reread_eq_self rest hrest hrest']

end

end GoStencil
