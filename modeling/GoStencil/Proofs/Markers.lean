import GoStencil.Proofs.Naming

/-!
# Names around their markers

The name of a related type keeps the text before its first marker and the text after its last one.
What stands in between is put together from the names of other types.

* `nameHead`, `nameTail`: the two texts that are kept.
* `nameFilling`: what comes to stand between them.
* `relatedName_eq`, `name_eq_of_isRelated`: every new name of a related type is made up of these
  three, and so is its old name.
* `FitsMarkers`: whether a text begins and ends as they say.
-/

namespace GoStencil

/-! ## 1. Pieces and markers -/

namespace Text

/-- The pieces with what they are split by between them are the text again. -/
theorem exists_join_splitFrom {needle : List Char} (hneedle : needle ≠ []) : ∀ {cs : List Char}
    {skip : Nat} {piece : List Char}, skip ≤ cs.length →
      ∃ first rest, splitFrom needle skip piece cs = first :: rest ∧
        first ++ rest.flatMap (needle ++ ·) = piece.reverse ++ cs.drop skip := by
  intro cs
  induction cs with
  | nil =>
    intro skip piece _
    exact ⟨piece.reverse, [], by rw [splitFrom], by simp⟩
  | cons c cs ih =>
    intro skip piece hskip
    cases skip with
    | succ skip => exact ih (Nat.le_of_succ_le_succ hskip)
    | zero =>
      unfold splitFrom
      split
      · rename_i hprefix
        obtain ⟨after, hafter⟩ := List.isPrefixOf_iff_prefix.mp hprefix
        cases needle with
        | nil => exact absurd rfl hneedle
        | cons d needle =>
          rw [List.cons_append] at hafter
          cases hafter
          have hle : needle.length ≤ (needle ++ after).length := by simp
          obtain ⟨first, rest, hsplit, hjoin⟩ := @ih needle.length [] hle
          refine ⟨piece.reverse, first :: rest,
            by rw [List.length_cons, Nat.add_sub_cancel, hsplit], ?_⟩
          rw [List.reverse_nil, List.nil_append, List.drop_left] at hjoin
          rw [List.flatMap_cons, List.append_assoc, hjoin, List.drop_zero, List.cons_append]
      · obtain ⟨first, rest, hsplit, hjoin⟩ := @ih 0 (c :: piece) (Nat.zero_le _)
        refine ⟨first, rest, hsplit, ?_⟩
        rw [hjoin, List.reverse_cons, List.append_assoc]
        rfl

end Text

theorem toList_fillMarkers_nil (fallback : String) : ∀ pieces : List String,
    (fillMarkers fallback pieces []).toList =
      pieces.flatMap fun piece => fallback.toList ++ piece.toList
  | [] => rfl
  | piece :: pieces => by
    rw [fillMarkers, String.toList_append, String.toList_append, toList_fillMarkers_nil fallback,
      List.flatMap_cons]

/-- The last piece stands at the end. -/
theorem fillMarkers_append (fallback last : String) : ∀ (pieces names : List String),
    fillMarkers fallback (pieces ++ [last]) names =
      fillMarkers fallback (pieces ++ [""]) names ++ last
  | [], [] => by simp [fillMarkers]
  | [], name :: names => by simp [fillMarkers]
  | piece :: pieces, [] => by
    rw [List.cons_append, List.cons_append, fillMarkers, fillMarkers,
      fillMarkers_append fallback last pieces [], ← String.append_assoc]
  | piece :: pieces, name :: names => by
    rw [List.cons_append, List.cons_append, fillMarkers, fillMarkers,
      fillMarkers_append fallback last pieces names, ← String.append_assoc]

/-- Names beyond the last marker are not looked at. -/
theorem fillMarkers_take (fallback : String) : ∀ pieces names : List String,
    fillMarkers fallback pieces (names.take pieces.length) = fillMarkers fallback pieces names
  | [], _ => rfl
  | _ :: _, [] => by rw [List.take_nil]
  | piece :: pieces, name :: names => by
    rw [List.length_cons, List.take_succ_cons, fillMarkers, fillMarkers,
      fillMarkers_take fallback pieces names]

/-- How many markers there are in a name. -/
def markerCount (marker name : String) : Nat :=
  (Text.splitOn name marker).tail.length

/-- A related type is named after as many types as its name has markers, at most. -/
theorem relatedName_take (nameOf : TypeExpr → String) (related marker : String)
    (references : List TypeExpr) (fallback : String) :
    relatedName nameOf related marker (references.take (markerCount marker related)) fallback =
      relatedName nameOf related marker references fallback := by
  unfold relatedName markerCount
  split
  · rfl
  · split
    · rfl
    · rename_i first pieces hsplit
      rw [hsplit, List.tail_cons, List.map_take, fillMarkers_take]

/-! ## 2. The parts of a name -/

/-- The text before the first marker of a name. -/
def nameHead (marker name : String) : String :=
  (Text.splitOn name marker).headD ""

/-- The text after the last marker of a name. -/
def nameTail (marker name : String) : String :=
  (Text.splitOn name marker).getLastD ""

/-- The text between its first marker and its last when the markers of a name are replaced by other
    names, and by the fallback where these run out. -/
def nameFilling (marker name fallback : String) (names : List String) : String :=
  fillMarkers fallback ((Text.splitOn name marker).tail.dropLast ++ [""]) names

section Related

variable {marker name : String} (h : isRelated marker name = true)

include h

theorem marker_isEmpty_eq_false : marker.isEmpty = false := by
  simpa using (Bool.and_eq_true_iff.mp h).1

/-- A related type has a marker in its name, so its name has two pieces at least. -/
theorem splitOn_of_isRelated : Text.splitOn name marker = nameHead marker name ::
    ((Text.splitOn name marker).tail.dropLast ++ [nameTail marker name]) := by
  have hneedle : marker.toList.isEmpty = false := by
    simpa using marker_isEmpty_eq_false h
  obtain ⟨count, next, pieces, hsplit⟩ :=
    exists_of_splitFrom hneedle [] (Bool.and_eq_true_iff.mp h).2
  rw [nameHead, nameTail, Text.splitOn, hsplit, List.map_cons, List.map_cons, List.headD_cons,
    List.tail_cons, List.getLastD_cons, List.getLastD_cons, ← List.getLast_eq_getLastD,
    List.dropLast_concat_getLast]
  exact List.cons_ne_nil _ _

/-- **The new name of a related type** begins and ends as its old name. -/
theorem relatedName_eq (nameOf : TypeExpr → String) (references : List TypeExpr)
    (fallback : String) :
    relatedName nameOf name marker references fallback =
      nameHead marker name ++ nameFilling marker name fallback (references.map nameOf) ++
        nameTail marker name := by
  rw [relatedName, if_neg (by rw [marker_isEmpty_eq_false h]; exact Bool.false_ne_true),
    splitOn_of_isRelated h]
  dsimp only
  rw [fillMarkers_append, nameFilling, String.append_assoc]

/-- The name itself is made up like a new one, with its markers in their places. -/
theorem name_eq_of_isRelated :
    name = nameHead marker name ++ nameFilling marker name marker [] ++ nameTail marker name := by
  have hneedle : marker.toList ≠ [] := by
    simpa using marker_isEmpty_eq_false h
  obtain ⟨first, rest, hsplit, hjoin⟩ :=
    @Text.exists_join_splitFrom _ hneedle name.toList 0 [] (Nat.zero_le _)
  have hpieces := splitOn_of_isRelated h
  rw [Text.splitOn, hsplit, List.map_cons] at hpieces
  obtain ⟨hfirst, hrest⟩ := List.cons_eq_cons.mp hpieces
  rw [nameFilling, String.append_assoc, ← fillMarkers_append, Text.splitOn, hsplit, List.map_cons,
    ← hrest, ← hfirst]
  refine String.toList_inj.mp ?_
  rw [String.toList_append, toList_fillMarkers_nil, String.toList_ofList, List.flatMap_map]
  simpa using hjoin.symm

end Related

/-! ## 3. Texts that look like a new name -/

/-- Whether a text begins and ends like the name of a related type. -/
def FitsMarkers (marker name text : String) : Prop :=
  ∃ filling, text = nameHead marker name ++ filling ++ nameTail marker name

theorem FitsMarkers.nameTail_isSuffix {marker name text : String}
    (h : FitsMarkers marker name text) : (nameTail marker name).toList <:+ text.toList := by
  obtain ⟨filling, rfl⟩ := h
  exact ⟨_, (String.toList_append ..).symm⟩

/-- Of the ends of two names that a text fits, one ends with the other. -/
theorem FitsMarkers.nameTail_or {marker name other text : String}
    (h : FitsMarkers marker name text) (h' : FitsMarkers marker other text) :
    (nameTail marker name).toList <:+ (nameTail marker other).toList ∨
      (nameTail marker other).toList <:+ (nameTail marker name).toList :=
  List.suffix_or_suffix_of_suffix h.nameTail_isSuffix h'.nameTail_isSuffix

end GoStencil
