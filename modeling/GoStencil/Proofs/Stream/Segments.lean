import GoStencil.Proofs.Instantiation
import GoStencil.Proofs.Stream.Scan

/-!
# The stream that a scan makes

Every word becomes an identifier, and what stands between two words becomes one segment of text.

* `Body.source_ofScan`: the stream writes what was scanned.
* `Body.identifiers_ofScan`: its identifiers are the words of the scan.
* `Body.alternates_ofScan`: identifiers and text alternate.
* `Body.foldr_joinSegment_pieces`: text may be pushed whole or piece by piece.
-/

namespace GoStencil

/-! ## 1. From lexemes to segments -/

/-- The segment of a lexeme. -/
def Lexeme.segment : Lexeme → Segment
  | .word chars => .ident (String.ofList chars)
  | .bracket c => .text (String.ofList [c])
  | .plain chars => .text (String.ofList chars)

/-- The stream that a scan of some characters makes. -/
def Body.ofScan (cs : List Char) : Body :=
  .ofSegments ((scan cs).map Lexeme.segment)

/-- Whether the segment is an identifier. -/
def Segment.isIdent : Segment → Bool
  | .ident _ => true
  | .text _ => false

@[simp]
theorem Lexeme.source_segment (lexeme : Lexeme) :
    lexeme.segment.source = String.ofList lexeme.chars := by
  cases lexeme <;> rfl

@[simp]
theorem Lexeme.ident?_segment (lexeme : Lexeme) : lexeme.segment.ident? = lexeme.word? := by
  cases lexeme <;> rfl

@[simp]
theorem Lexeme.isIdent_segment (lexeme : Lexeme) : lexeme.segment.isIdent = lexeme.isWord := by
  cases lexeme <;> rfl

namespace Body

/-- The segments of lexemes write the characters of these. -/
theorem join_source_segment (lexemes : List Lexeme) :
    String.join ((lexemes.map Lexeme.segment).map Segment.source) =
      String.ofList (lexemes.flatMap Lexeme.chars) := by
  induction lexemes with
  | nil => rfl
  | cons lexeme lexemes ih =>
    rw [List.map_cons, List.map_cons, String.join_cons, ih, Lexeme.source_segment,
      List.flatMap_cons, String.ofList_append]

/-- **The stream of a scan writes what was scanned.** -/
theorem source_ofScan (cs : List Char) : (ofScan cs).source = String.ofList cs := by
  rw [ofScan, source_ofSegments, join_source_segment, chars_scan]

/-- **The identifiers of the stream are the words of the scan.** -/
theorem identifiers_ofScan (cs : List Char) :
    (ofScan cs).identifiers = (scan cs).filterMap Lexeme.word? := by
  rw [ofScan, identifiers_ofSegments, List.filterMap_map]
  exact congrArg (List.filterMap · (scan cs)) (funext Lexeme.ident?_segment)

/-! ## 2. Identifiers and text alternate -/

/-- Whether no segment is of the kind of the segment before it. -/
def Alternates (segments : List Segment) : Prop :=
  segments.IsChain fun first second => first.isIdent ≠ second.isIdent

theorem isIdent_head_joinSegment (segment : Segment) (segments : List Segment) :
    (joinSegment segment segments).head?.map Segment.isIdent = some segment.isIdent := by
  fun_cases joinSegment segment segments <;> rfl

theorem isIdent_head_foldr (segments : List Segment) :
    (segments.foldr joinSegment []).head?.map Segment.isIdent =
      segments.head?.map Segment.isIdent := by
  cases segments with
  | nil => rfl
  | cons segment segments => exact isIdent_head_joinSegment segment _

theorem alternates_joinSegment {segment : Segment} {segments : List Segment}
    (h : Alternates segments)
    (hident : segment.isIdent = true → segments.head?.map Segment.isIdent ≠ some true) :
    Alternates (joinSegment segment segments) := by
  unfold Alternates at h ⊢
  fun_cases joinSegment segment segments with
  | case1 before after rest =>
    rw [List.isChain_cons] at h ⊢
    exact h
  | case2 segment segments hjoin =>
    rw [List.isChain_cons]
    refine ⟨fun next hnext => ?_, h⟩
    have hhead : segments.head? = some next := hnext
    rw [hhead] at hident
    cases segment with
    | ident source => cases next with
      | ident other => exact absurd rfl (hident rfl)
      | text other => exact Bool.noConfusion
    | text source => cases next with
      | ident other => exact Bool.noConfusion
      | text other =>
        obtain ⟨rest, rfl⟩ := List.head?_eq_some_iff.mp hhead
        exact (hjoin source other rest rfl rfl).elim

/-- Where no two identifiers stand side by side, joining leaves no two texts either. -/
theorem alternates_foldr {segments : List Segment}
    (h : segments.IsChain fun first second => first.isIdent = true → second.isIdent = false) :
    Alternates (segments.foldr joinSegment []) := by
  induction h with
  | nil => exact .nil
  | singleton segment => exact alternates_joinSegment .nil fun _ => nofun
  | @cons_cons first second rest hnext _ ih =>
    refine alternates_joinSegment ih fun hident => ?_
    rw [isIdent_head_foldr, List.head?_cons, Option.map_some, hnext hident]
    nofun

/-- **Identifiers and text alternate in the stream of a scan.** -/
theorem alternates_ofScan (cs : List Char) : Alternates (ofScan cs).segments := by
  refine alternates_foldr (List.isChain_map_of_isChain _ (fun _ _ h => ?_) (isChain_scan cs))
  rwa [Lexeme.isIdent_segment, Lexeme.isIdent_segment]

/-! ## 3. Text in pieces -/

theorem joinSegment_text_append (before after : String) (segments : List Segment) :
    joinSegment (.text (before ++ after)) segments =
      joinSegment (.text before) (joinSegment (.text after) segments) := by
  match segments with
  | [] => rfl
  | .ident _ :: _ => rfl
  | .text next :: rest => simp [joinSegment, String.append_assoc]

/-- Text may be put before some segments whole or piece by piece. -/
theorem foldr_joinSegment_pieces {pieces : List (List Char)} (h : pieces ≠ [])
    (segments : List Segment) :
    (pieces.map fun piece => Segment.text (String.ofList piece)).foldr joinSegment segments =
      joinSegment (.text (String.ofList pieces.flatten)) segments := by
  match pieces with
  | [] => exact absurd rfl h
  | [piece] => rw [List.flatten_singleton]; rfl
  | piece :: next :: pieces =>
    have hflatten : (piece :: next :: pieces).flatten = piece ++ (next :: pieces).flatten :=
      List.flatten_cons
    rw [List.map_cons, List.foldr_cons, foldr_joinSegment_pieces (List.cons_ne_nil next pieces),
      hflatten, String.ofList_append, joinSegment_text_append]

end Body

end GoStencil
