import GoStencil.Specialization
import GoStencil.Proofs.TypeExpr.Parsed

/-!
# Names for types are names

The piece of a name for a type begins with a capital or an underscore. So what is put together
from an identifier and such pieces is an identifier again, and no reserved word.

* `Text.isCapitalized_capitalize`: the upper case of what begins an identifier begins one.
* `TypeExpr.IsParsed.isCapitalized_niceName`: the pieces for types that have been parsed are
  capitalized.
* `isName_relatedName`: the names of related types are names.
-/

namespace GoStencil.Text

variable {c : Char} {cs : List Char}

/-! ## 1. Capitals -/

/-- Whether identifiers begin with the character, and reserved words do not. -/
def isCapital (c : Char) : Bool :=
  isIdentifierStart c && !c.isLower

/-- Whether some characters are an identifier that begins with a capital. -/
def isCapitalized : List Char → Bool
  | [] => false
  | c :: cs => isCapital c && cs.all isXidContinue

theorem isXidContinue_of_isCapital (h : isCapital c = true) : isXidContinue c = true :=
  isXidContinue_of_isIdentifierStart (Bool.and_eq_true_iff.mp h).1

theorem all_of_isCapitalized (h : isCapitalized cs = true) : cs.all isXidContinue = true := by
  cases cs with
  | nil => cases h
  | cons c cs =>
    obtain ⟨hfirst, hrest⟩ := Bool.and_eq_true_iff.mp h
    rw [List.all_cons, isXidContinue_of_isCapital hfirst, hrest]
    rfl

theorem isCapitalized_append {ds : List Char} (h : isCapitalized cs = true)
    (hds : ds.all isXidContinue = true) : isCapitalized (cs ++ ds) = true := by
  cases cs with
  | nil => cases h
  | cons c cs =>
    obtain ⟨hfirst, hrest⟩ := Bool.and_eq_true_iff.mp h
    rw [List.cons_append, isCapitalized, hfirst, List.all_append, hrest, hds]
    rfl

/-! ## 2. Upper case -/

/-- Whether a range lies in one of the ranges of a table. The tables are long, and `Nat.ble` is
    what the kernel computes at once. -/
def Ranges.includes (ranges : Ranges) (first last : Nat) : Bool :=
  ranges.any fun range => Nat.ble range.1 first && Nat.ble last range.2

/-- Whether no range of a table meets a range. -/
def Ranges.avoids (ranges : Ranges) (first last : Nat) : Bool :=
  ranges.all fun range => Nat.blt last range.1 || Nat.blt range.2 first

/-- Whether a run maps what begins identifiers to capitals: its images lie together in the table,
    or all are capitals, or nothing in it begins identifiers. -/
def CaseRun.givesCapitals (run : CaseRun) : Bool :=
  identifierStartRanges.includes run.image (run.image + (run.last - run.first)) ||
    ((List.range (run.last - run.first + 1)).all fun offset =>
      (run.imageOf? (run.first + offset)).all fun image => isCapital (Char.ofNat image)) ||
    identifierStartRanges.avoids run.first run.last

theorem givesCapitals_of_mem_upperRuns :
    ∀ run ∈ upperRuns, run.givesCapitals = true := by
  decide +kernel

theorem isCapitalized_of_mem_upperExpansions :
    ∀ entry ∈ upperExpansions, isCapitalized (entry.2.map Char.ofNat) = true := by
  decide +kernel

theorem isCapital_toUpper_ascii :
    ∀ code < 128, isIdentifierStart (Char.ofNat code) = true →
      isCapital (Char.ofNat code).toUpper = true := by
  decide +kernel

/-- The table holds characters above ASCII only. -/
theorem identifierStartRanges_bounds : ∀ range ∈ identifierStartRanges,
    128 ≤ range.1 ∧ (range.2 < 0xD800 ∨ 0xDFFF < range.1 ∧ range.2 < 0x110000) := by
  decide +kernel

theorem isCapital_of_covers (h : identifierStartRanges.covers c.toNat = true) :
    isCapital c = true := by
  obtain ⟨range, hmem, hfirst, -⟩ := Ranges.covers_iff.mp h
  have hlarge : 128 ≤ c.toNat := Nat.le_trans (identifierStartRanges_bounds range hmem).1 hfirst
  have hascii : ¬ c.val < 0x80 := fun hlt => absurd (UInt32.lt_iff_toNat_lt.mp hlt) (by
    show ¬ c.toNat < 128
    omega)
  have hlower : c.isLower = false := by
    refine Bool.and_eq_false_iff.mpr (.inr (decide_eq_false fun hle => ?_))
    have hsmall : c.toNat ≤ 122 := UInt32.le_iff_toNat_le.mp hle
    omega
  rw [isCapital, hlower, isIdentifierStart, isXidStart, if_neg hascii, h]
  rfl

theorem isCapital_ofNat {code : Nat} (h : identifierStartRanges.covers code = true) :
    isCapital (Char.ofNat code) = true := by
  obtain ⟨range, hmem, hfirst, hlast⟩ := Ranges.covers_iff.mp h
  have hvalid : code.isValidChar := by
    rcases (identifierStartRanges_bounds range hmem).2 with hlow | ⟨hhigh, hbound⟩
    · exact .inl (Nat.lt_of_le_of_lt hlast hlow)
    · exact .inr ⟨Nat.lt_of_lt_of_le hhigh hfirst, Nat.lt_of_le_of_lt hlast hbound⟩
  have hcode : (Char.ofNat code).toNat = code := by
    rw [Char.ofNat, dif_pos hvalid]
    rfl
  exact isCapital_of_covers (by rw [hcode, h])

theorem isCapital_of_imageOf? {run : CaseRun} {code image : Nat}
    (hrun : run.givesCapitals = true) (hcode : identifierStartRanges.covers code = true)
    (h : run.imageOf? code = some image) : isCapital (Char.ofNat image) = true := by
  have himage := h
  unfold CaseRun.imageOf? at h
  split at h
  · rename_i hheld
    cases h
    simp only [Bool.and_eq_true, decide_eq_true_eq] at hheld
    obtain ⟨⟨hfirst, hlast⟩, -⟩ := hheld
    rcases Bool.or_eq_true_iff.mp hrun with hrun | havoids
    · rcases Bool.or_eq_true_iff.mp hrun with hincludes | hall
      · obtain ⟨range, hmem, hin⟩ := List.any_eq_true.mp hincludes
        obtain ⟨hlow, hhigh⟩ := Bool.and_eq_true_iff.mp hin
        have hlow := Nat.le_of_ble_eq_true hlow
        have hhigh := Nat.le_of_ble_eq_true hhigh
        exact isCapital_ofNat (Ranges.covers_iff.mpr ⟨range, hmem, by omega, by omega⟩)
      · have hoffset := List.all_eq_true.mp hall (code - run.first)
          (List.mem_range.mpr (by omega))
        rw [Nat.add_sub_cancel' hfirst, himage] at hoffset
        exact hoffset
    · obtain ⟨range, hmem, hlow, hhigh⟩ := Ranges.covers_iff.mp hcode
      have hapart := List.all_eq_true.mp havoids range hmem
      rw [Bool.or_eq_true_iff, Nat.blt_eq, Nat.blt_eq] at hapart
      omega
  · cases h

/-- The upper case of what begins an identifier is capitalized. -/
theorem isCapitalized_upperChar (h : isIdentifierStart c = true) :
    isCapitalized (upperChar c) = true := by
  unfold upperChar
  split
  · rename_i hascii
    have hcode : c.toNat < 128 := UInt32.lt_iff_toNat_lt.mp hascii
    have hcapital := isCapital_toUpper_ascii c.toNat hcode
    rw [Char.ofNat_toNat] at hcapital
    rw [isCapitalized, hcapital h]
    rfl
  · rename_i hascii
    have hcovers : identifierStartRanges.covers c.toNat = true := by
      rcases Bool.or_eq_true_iff.mp h with hstart | hunderscore
      · rwa [isXidStart, if_neg hascii] at hstart
      · cases eq_of_beq hunderscore
        exact absurd (by decide) hascii
    unfold mapCase
    split
    · rename_i codes hcodes
      obtain ⟨before, after, hentry, -⟩ := List.lookup_eq_some_iff.mp hcodes
      exact isCapitalized_of_mem_upperExpansions (c.toNat, codes) (by
        rw [hentry]
        exact List.mem_append_right _ List.mem_cons_self)
    · split
      · rename_i image himage
        obtain ⟨run, hmem, hrun⟩ := List.exists_of_findSome?_eq_some himage
        rw [isCapitalized, isCapital_of_imageOf? (givesCapitals_of_mem_upperRuns run hmem)
          hcovers hrun]
        rfl
      · rw [isCapitalized, isCapital_of_covers hcovers]
        rfl

/-- **A capitalized name** begins with a capital. -/
theorem isCapitalized_capitalize {ident : String} (h : Grammar.isName ident = true) :
    isCapitalized (capitalize ident).toList = true := by
  obtain ⟨c, cs, hchars, hstart, hall, -⟩ := Grammar.isName_iff.mp h
  have hrest : cs.all isXidContinue = true :=
    List.all_eq_true.mpr fun d hd => hall d (List.mem_cons_of_mem _ hd)
  unfold capitalize
  rw [hchars]
  dsimp only
  rw [String.toList_ofList]
  exact isCapitalized_append (isCapitalized_upperChar hstart) hrest

end GoStencil.Text

namespace GoStencil

open Text

/-! ## 3. Pieces of names -/

/-- Whether a type can be bound: a type of the language, or that of a last parameter. -/
def TypeExpr.IsBindable (type : TypeExpr) : Prop :=
  type.variadicElem.IsWellFormed

theorem TypeExpr.IsWellFormed.isBindable {type : TypeExpr} (h : type.IsWellFormed) :
    type.IsBindable := by
  rw [TypeExpr.IsBindable, h.isReadable.variadicElem_eq]
  exact h

theorem Direction.noun_continues : ∀ direction : Direction,
    direction.noun.toList.all isXidContinue = true := by
  intro direction
  cases direction <;> decide

theorem all_join_replicate {piece : String} (h : piece.toList.all isXidContinue = true) :
    ∀ count : Nat, (String.join (List.replicate count piece)).toList.all isXidContinue = true
  | 0 => rfl
  | count + 1 => by
    rw [List.replicate_succ, String.join_cons, String.toList_append, List.all_append, h,
      all_join_replicate h count]
    rfl

theorem FieldList.all_niceNames : ∀ fields : FieldList,
    (∀ field ∈ fields.toList, isCapitalized field.type.niceName.toList = true) →
      fields.niceNames.toList.all isXidContinue = true
  | .nil, _ => rfl
  | .cons names type tag rest, h => by
    have hfirst : isCapitalized type.niceName.toList = true :=
      h ⟨names, type, tag⟩ List.mem_cons_self
    rw [FieldList.niceNames, String.toList_append, List.all_append,
      all_join_replicate (all_of_isCapitalized hfirst),
      all_niceNames rest fun field hmem => h field (List.mem_cons_of_mem _ hmem)]
    rfl

theorem TypeExpr.isCapitalized_niceName_of_variadicElem {type : TypeExpr}
    (h : isCapitalized type.variadicElem.niceName.toList = true) :
    isCapitalized type.niceName.toList = true := by
  cases type with
  | «variadic» elem =>
    rw [TypeExpr.niceName, String.toList_append]
    exact isCapitalized_append h (by decide)
  | _ => exact h

/-- **The piece of a name for a type that has been parsed is capitalized.** -/
theorem TypeExpr.IsParsed.isCapitalized_niceName {type : TypeExpr} (h : type.IsParsed) :
    isCapitalized type.niceName.toList = true := by
  induction h with
  | name hident => exact isCapitalized_capitalize hident
  | qualified hpackage hident =>
    rw [TypeExpr.niceName, String.toList_append]
    exact isCapitalized_append (isCapitalized_capitalize hpackage)
      (all_of_isCapitalized (isCapitalized_capitalize hident))
  | pointer _ ih | slice _ ih | array _ _ ih =>
    rw [TypeExpr.niceName, String.toList_append]
    exact isCapitalized_append ih (by decide)
  | paren _ ih => exact ih
  | @channel direction value _ _ ih =>
    rw [TypeExpr.niceName, String.toList_append]
    exact isCapitalized_append ih direction.noun_continues
  | map _ _ ihkey ihvalue =>
    rw [TypeExpr.niceName, String.toList_append, String.toList_append]
    exact isCapitalized_append (isCapitalized_append ihvalue (by decide))
      (all_of_isCapitalized ihkey)
  | @function params results _ _ _ _ ihparams ihresults =>
    have hparams := FieldList.all_niceNames params fun field hmem =>
      isCapitalized_niceName_of_variadicElem (ihparams field hmem)
    have hresults := FieldList.all_niceNames results fun field hmem =>
      isCapitalized_niceName_of_variadicElem (ihresults field hmem)
    have hword : isCapitalized "Func".toList = true := by decide
    cases results with
    | nil =>
      rw [TypeExpr.niceName, String.toList_append]
      exact isCapitalized_append hword hparams
    | cons =>
      rw [TypeExpr.niceName, String.toList_append, String.toList_append, String.toList_append]
      · exact isCapitalized_append
          (isCapitalized_append (isCapitalized_append hword hparams) (by decide)) hresults
      · nofun
  | struct =>
    have hword : isCapitalized "Struct".toList = true := by decide
    exact hword
  | interface =>
    have hword : isCapitalized "Interface".toList = true := by decide
    exact hword

/-! ## 4. Related types -/

/-- The characters of a piece are those of the text and of the piece at hand. -/
theorem mem_of_mem_splitFrom {needle : List Char} {c : Char} {found : List Char} :
    ∀ {cs : List Char} {skip : Nat} {piece : List Char},
      found ∈ splitFrom needle skip piece cs → c ∈ found → c ∈ piece ∨ c ∈ cs := by
  intro cs
  induction cs with
  | nil =>
    intro skip piece hfound hc
    rw [splitFrom] at hfound
    cases List.mem_singleton.mp hfound
    exact .inl (List.mem_reverse.mp hc)
  | cons d cs ih =>
    intro skip piece hfound hc
    cases skip with
    | succ skip => exact (ih hfound hc).imp_right (List.mem_cons_of_mem _)
    | zero =>
      unfold splitFrom at hfound
      split at hfound
      · rcases List.mem_cons.mp hfound with rfl | hfound
        · exact .inl (List.mem_reverse.mp hc)
        · exact .inr ((ih hfound hc).elim nofun (List.mem_cons_of_mem _))
      · rcases ih hfound hc with hpiece | hcs
        · rcases List.mem_cons.mp hpiece with rfl | hpiece
          · exact .inr List.mem_cons_self
          · exact .inl hpiece
        · exact .inr (List.mem_cons_of_mem _ hcs)

theorem splitFrom_ne_nil {needle : List Char} : ∀ {cs : List Char} {skip : Nat} {piece : List Char},
    splitFrom needle skip piece cs ≠ [] := by
  intro cs
  induction cs with
  | nil => nofun
  | cons d cs ih =>
    intro skip piece
    cases skip with
    | succ => exact ih
    | zero =>
      unfold splitFrom
      split
      · nofun
      · exact ih

/-- The first piece is the beginning of the text, and is not the only one when the text contains
    what it is split by. -/
theorem exists_of_splitFrom {needle : List Char} (hneedle : needle.isEmpty = false) :
    ∀ {cs : List Char} (piece : List Char), occursIn needle cs = true →
      ∃ count next pieces, splitFrom needle 0 piece cs =
        (piece.reverse ++ cs.take count) :: next :: pieces := by
  intro cs
  induction cs with
  | nil =>
    intro piece h
    rw [occursIn, hneedle] at h
    cases h
  | cons d cs ih =>
    intro piece h
    unfold splitFrom
    split
    · have hrest : splitFrom needle (needle.length - 1) [] cs ≠ [] := splitFrom_ne_nil
      obtain ⟨next, pieces, hnext⟩ := List.exists_cons_of_ne_nil hrest
      exact ⟨0, next, pieces, by rw [hnext, List.take_zero, List.append_nil]⟩
    · rename_i hprefix
      rw [occursIn, Bool.or_eq_true_iff] at h
      obtain ⟨count, next, pieces, hpieces⟩ := ih (d :: piece) (h.resolve_left hprefix)
      refine ⟨count + 1, next, pieces, ?_⟩
      rw [hpieces, List.reverse_cons, List.take_succ_cons, List.append_assoc,
        List.singleton_append]

section FillMarkers

variable {fallback : String} (hfallback : isCapitalized fallback.toList = true)

include hfallback

theorem all_fillMarkers {pieces : List String} :
    ∀ {names : List String}, (∀ piece ∈ pieces, piece.toList.all isXidContinue = true) →
      (∀ name ∈ names, isCapitalized name.toList = true) →
      (fillMarkers fallback pieces names).toList.all isXidContinue = true := by
  induction pieces with
  | nil => exact fun _ _ => rfl
  | cons piece pieces ih =>
    intro names hpieces hnames
    have hpiece := hpieces piece List.mem_cons_self
    have hrest := fun other hmem => hpieces other (List.mem_cons_of_mem _ hmem)
    cases names with
    | nil =>
      rw [fillMarkers, String.toList_append, String.toList_append, List.all_append,
        List.all_append, all_of_isCapitalized hfallback, hpiece,
        ih hrest fun _ hmem => absurd hmem List.not_mem_nil]
      rfl
    | cons name names =>
      rw [fillMarkers, String.toList_append, String.toList_append, List.all_append,
        List.all_append, all_of_isCapitalized (hnames name List.mem_cons_self), hpiece,
        ih hrest fun other hmem => hnames other (List.mem_cons_of_mem _ hmem)]
      rfl

/-- What stands for a marker begins with a capital. -/
theorem isCapitalized_fillMarkers {piece : String} {pieces names : List String}
    (hpieces : ∀ other ∈ piece :: pieces, other.toList.all isXidContinue = true)
    (hnames : ∀ name ∈ names, isCapitalized name.toList = true) :
    isCapitalized (fillMarkers fallback (piece :: pieces) names).toList = true := by
  have hpiece := hpieces piece List.mem_cons_self
  have hrest := fun other hmem => hpieces other (List.mem_cons_of_mem _ hmem)
  cases names with
  | nil =>
    rw [fillMarkers, String.toList_append, String.toList_append]
    exact isCapitalized_append (isCapitalized_append hfallback hpiece)
      (all_fillMarkers hfallback hrest fun _ hmem => absurd hmem List.not_mem_nil)
  | cons name names =>
    rw [fillMarkers, String.toList_append, String.toList_append]
    exact isCapitalized_append
      (isCapitalized_append (hnames name List.mem_cons_self) hpiece)
      (all_fillMarkers hfallback hrest fun other hmem => hnames other (List.mem_cons_of_mem _ hmem))

end FillMarkers

/-- Reserved words consist of lower case letters. -/
theorem isLower_of_mem_reservedWords :
    ∀ word ∈ Grammar.reservedWords, word.toList.all Char.isLower = true := by
  decide

/-- The beginning of a name and a capitalized text are a name. -/
theorem isName_of_isCapitalized {ident : String} {c : Char} {cs ds : List Char} {count : Nat}
    (hstart : isIdentifierStart c = true) (hall : ∀ d ∈ c :: cs, isXidContinue d = true)
    (hds : isCapitalized ds = true) (hchars : ident.toList = (c :: cs).take count ++ ds) :
    Grammar.isName ident = true := by
  obtain ⟨d, ds, rfl⟩ : ∃ d rest, ds = d :: rest := by
    cases ds with
    | nil => cases hds
    | cons d ds => exact ⟨d, ds, rfl⟩
  obtain ⟨hcapital, hlower⟩ := Bool.and_eq_true_iff.mp (Bool.and_eq_true_iff.mp hds).1
  have hcontinues : ∀ e ∈ ident.toList, isXidContinue e = true := by
    intro e he
    rw [hchars] at he
    rcases List.mem_append.mp he with he | he
    · exact hall e (List.mem_of_mem_take he)
    · exact List.all_eq_true.mp (all_of_isCapitalized hds) e he
  have hword : ident ∉ Grammar.reservedWords := by
    intro hmem
    have hd : d ∈ ident.toList := by
      rw [hchars]
      exact List.mem_append_right _ List.mem_cons_self
    rw [List.all_eq_true.mp (isLower_of_mem_reservedWords ident hmem) d hd] at hlower
    cases hlower
  cases count with
  | zero =>
    rw [List.take_zero, List.nil_append] at hchars
    rw [hchars] at hcontinues
    exact Grammar.isName_iff.mpr ⟨d, ds, hchars, hcapital, hcontinues, hword⟩
  | succ count =>
    rw [List.take_succ_cons, List.cons_append] at hchars
    rw [hchars] at hcontinues
    exact Grammar.isName_iff.mpr ⟨c, _, hchars, hstart, hcontinues, hword⟩

/-- **The name of a related type is a name** when its markers stand for types that have been parsed,
    or take any number of such a type. -/
theorem isName_relatedName {related marker fallback : String} {references : List TypeExpr}
    (hrelated : Grammar.isName related = true) (hmarker : isRelated marker related = true)
    (hreferences : ∀ type ∈ references, type.variadicElem.IsParsed)
    (hfallback : isCapitalized fallback.toList = true) :
    Grammar.isName (relatedName TypeExpr.niceName related marker references fallback) = true := by
  obtain ⟨hnonempty, hcontains⟩ := Bool.and_eq_true_iff.mp hmarker
  have hempty : marker.isEmpty = false := by simpa using hnonempty
  have hneedle : marker.toList.isEmpty = false := by simpa using hempty
  obtain ⟨c, cs, hchars, hstart, hall, -⟩ := Grammar.isName_iff.mp hrelated
  obtain ⟨count, next, pieces, hsplit⟩ := exists_of_splitFrom hneedle [] hcontains
  have hpieces : ∀ piece ∈ (next :: pieces).map String.ofList,
      piece.toList.all isXidContinue = true := by
    intro piece hpiece
    obtain ⟨found, hfound, rfl⟩ := List.mem_map.mp hpiece
    rw [String.toList_ofList, List.all_eq_true]
    intro d hd
    have hmem : found ∈ splitFrom marker.toList 0 [] related.toList := by
      rw [hsplit]
      exact List.mem_cons_of_mem _ hfound
    rcases mem_of_mem_splitFrom hmem hd with hd | hd
    · cases hd
    · exact hall d (hchars ▸ hd)
  have hnames : ∀ name ∈ references.map TypeExpr.niceName,
      isCapitalized name.toList = true := by
    intro name hname
    obtain ⟨type, htype, rfl⟩ := List.mem_map.mp hname
    exact TypeExpr.isCapitalized_niceName_of_variadicElem
      (hreferences type htype).isCapitalized_niceName
  have htext : (relatedName TypeExpr.niceName related marker references fallback).toList =
      (c :: cs).take count ++ (fillMarkers fallback ((next :: pieces).map String.ofList)
        (references.map TypeExpr.niceName)).toList := by
    rw [relatedName, hempty, if_neg Bool.false_ne_true, splitOn, hsplit, List.map_cons]
    dsimp only
    rw [String.toList_append, String.toList_ofList, List.reverse_nil, List.nil_append, hchars]
  exact isName_of_isCapitalized hstart hall
    (isCapitalized_fillMarkers hfallback hpieces hnames) htext

end GoStencil
