import GoStencil.Proofs.Stream.Segments

/-!
# Streams in pieces

Where text stands in several pieces, a stream can be instantiated piece by piece: of what precedes
an identifier only the text right before it and the word before that text decide, and of what
follows it only whether a colon comes first.

* `Body.stack`: the segments before a place, with one more piece.
* `Body.transcribe`: what an instance writes, piece by piece; `transcribe_append` puts it together.
* `Body.source_instantiate_ofSegments`: where no text begins with a colon, this is what the instance
  of the stream writes.
-/

namespace GoStencil.Body

variable {subst : Substitution} {before segments : List Segment}

/-! ## 1. Piece by piece -/

/-- The segments before a place, given last first, with one more piece: text joins text. -/
def stack : List Segment → Segment → List Segment
  | .text first :: rest, .text next => .text (first ++ next) :: rest
  | before, segment => segment :: before

/-- What an instance writes for a piece, if no colon follows. -/
def transcribeSegment (subst : Substitution) (before : List Segment) : Segment → String
  | .text text => text
  | .ident ident =>
    match subst.getName? ident with
    | none => ident
    | some bound => if followsSelector before then ident else (boundSegment before bound).source

/-- What an instance writes for some pieces after those in `before`, given last first. -/
def transcribe (subst : Substitution) : List Segment → List Segment → String
  | _, [] => ""
  | before, segment :: rest =>
    transcribeSegment subst before segment ++ transcribe subst (stack before segment) rest

theorem transcribe_append : ∀ (before first second : List Segment),
    transcribe subst before (first ++ second) =
      transcribe subst before first ++ transcribe subst (first.foldl stack before) second
  | _, [], _ => by simp [transcribe]
  | before, segment :: first, second => by
    simp [transcribe, transcribe_append (stack before segment) first second, String.append_assoc]

@[simp] theorem stack_ident (before : List Segment) (ident : String) :
    stack before (.ident ident) = .ident ident :: before := by
  cases before with
  | nil => rfl
  | cons first rest => cases first <;> rfl

/-! ## 2. Pieces and whole segments -/

/-- Whether a text does not begin with a colon, not even after white space. -/
def beginsWithoutColon (text : String) : Bool :=
  (Text.dropBlank text.toList).head? != some ':'

theorem head?_dropBlank_append (first second : List Char) :
    (Text.dropBlank (first ++ second)).head? =
      (Text.dropBlank first).head?.or (Text.dropBlank second).head? := by
  induction first with
  | nil => rfl
  | cons c cs ih =>
    cases hblank : Text.isBlank c with
    | true => simpa [Text.dropBlank, hblank] using ih
    | false => simp [Text.dropBlank, hblank]

theorem beginsWithoutColon_append {first second : String} (hfirst : beginsWithoutColon first = true)
    (hsecond : beginsWithoutColon second = true) : beginsWithoutColon (first ++ second) = true := by
  simp only [beginsWithoutColon, bne_iff_ne, ne_eq] at hfirst hsecond ⊢
  rw [String.toList_append, head?_dropBlank_append]
  cases hhead : (Text.dropBlank first.toList).head? with
  | none => exact hsecond
  | some c => rwa [hhead] at hfirst

theorem precedesColon_eq_false {text : String} (h : beginsWithoutColon text = true)
    (rest : List Segment) : precedesColon (.text text :: rest) = false := by
  simp only [beginsWithoutColon, bne_iff_ne, ne_eq] at h
  unfold precedesColon
  dsimp only
  split
  · rfl
  · rename_i hcolon
    rw [hcolon] at h
    exact absurd rfl h
  · rfl

/-- Whether no text among some segments begins with a colon. -/
def AvoidsColons (segments : List Segment) : Prop :=
  ∀ text, .text text ∈ segments → beginsWithoutColon text = true

@[simp] theorem avoidsColons_nil : AvoidsColons [] :=
  nofun

@[simp] theorem avoidsColons_text_cons {text : String} : AvoidsColons (.text text :: segments) ↔
    beginsWithoutColon text = true ∧ AvoidsColons segments := by
  simp [AvoidsColons]

@[simp] theorem avoidsColons_ident_cons {ident : String} :
    AvoidsColons (.ident ident :: segments) ↔ AvoidsColons segments := by
  simp [AvoidsColons]

@[simp] theorem avoidsColons_append {others : List Segment} :
    AvoidsColons (segments ++ others) ↔ AvoidsColons segments ∧ AvoidsColons others := by
  simp [AvoidsColons, or_imp, forall_and]

theorem AvoidsColons.joined {segment : Segment} (h : AvoidsColons (segment :: segments)) :
    AvoidsColons (joinSegment segment segments) := by
  intro text hmem
  match segment, segments with
  | .text before, .text after :: rest =>
    rcases List.mem_cons.mp hmem with e | hmem
    · cases e
      exact beginsWithoutColon_append (h before (by simp)) (h after (by simp))
    · exact h text (by simp [hmem])
  | .ident ident, rest => exact h text hmem
  | .text before, [] => exact h text hmem
  | .text before, .ident ident :: rest => exact h text hmem

theorem AvoidsColons.foldr (h : AvoidsColons segments) :
    AvoidsColons (segments.foldr joinSegment []) := by
  induction segments with
  | nil => exact h
  | cons segment rest ih =>
    refine AvoidsColons.joined fun text hmem => ?_
    rcases List.mem_cons.mp hmem with e | hmem
    · exact h text (by simp [e])
    · exact ih (fun text hmem => h text (List.mem_cons_of_mem _ hmem)) text hmem

theorem AvoidsColons.precedesColon_eq_false (h : AvoidsColons segments) :
    precedesColon segments = false := by
  match segments with
  | [] => rfl
  | .ident _ :: _ => rfl
  | .text text :: rest => exact Body.precedesColon_eq_false (h text (by simp)) rest

/-- No key of a composite literal stands before such segments. -/
theorem source_instantiateSegment (subst : Substitution) (before : List Segment)
    (segment : Segment) (h : AvoidsColons segments) :
    (instantiateSegment subst before segment segments).source =
      transcribeSegment subst before segment := by
  cases segment with
  | text text => rfl
  | ident ident =>
    simp only [instantiateSegment, transcribeSegment, isCompositeKey, h.precedesColon_eq_false,
      Bool.false_and, Bool.or_false]
    cases subst.getName? ident with
    | none => rfl
    | some bound => cases followsSelector before <;> rfl

/-- What the instance of some segments writes. -/
def instanceSource (subst : Substitution) (before segments : List Segment) : String :=
  String.join ((instantiateSegments subst before segments).map Segment.source)

theorem instanceSource_cons (subst : Substitution) (before : List Segment) (segment : Segment)
    (h : AvoidsColons segments) :
    instanceSource subst before (segment :: segments) =
      transcribeSegment subst before segment ++
        instanceSource subst (segment :: before) segments := by
  simp [instanceSource, instantiateSegments, source_instantiateSegment subst before segment h]

/-- **A whole stream is transcribed piece by piece**: where text stands before the pieces, and where
    an identifier or nothing does. -/
theorem transcribe_eq : ∀ (segments before : List Segment), AvoidsColons segments →
    (∀ text rest, before ≠ .text text :: rest) →
    transcribe subst before segments =
        instanceSource subst before (segments.foldr joinSegment []) ∧
      ∀ text, beginsWithoutColon text = true →
        text ++ transcribe subst (.text text :: before) segments =
          instanceSource subst before (joinSegment (.text text) (segments.foldr joinSegment []))
  | [], before, _, _ => by simp [transcribe, instanceSource, instantiateSegments, joinSegment,
      instantiateSegment, Segment.source]
  | .text first :: rest, before, h, hbefore => by
    have hrest : AvoidsColons rest := fun text hmem => h text (List.mem_cons_of_mem _ hmem)
    have hfirst := h first List.mem_cons_self
    have hstack : stack before (.text first) = .text first :: before := by
      cases before with
      | nil => rfl
      | cons segment before =>
        cases segment with
        | ident => rfl
        | text text => exact absurd rfl (hbefore text before)
    have ih := (transcribe_eq rest before hrest hbefore).2
    refine ⟨?_, fun text htext => ?_⟩
    · rw [transcribe, hstack, List.foldr_cons]
      exact ih first hfirst
    · rw [List.foldr_cons, ← joinSegment_text_append,
        ← ih (text ++ first) (beginsWithoutColon_append htext hfirst), String.append_assoc]
      rfl
  | .ident ident :: rest, before, h, hbefore => by
    have hrest : AvoidsColons rest := fun text hmem => h text (List.mem_cons_of_mem _ hmem)
    have hident : ∀ before, transcribe subst before (.ident ident :: rest) =
        instanceSource subst before (.ident ident :: rest.foldr joinSegment []) := by
      intro before
      rw [transcribe, stack_ident, instanceSource_cons _ _ _ hrest.foldr,
        (transcribe_eq rest (.ident ident :: before) hrest fun _ _ h => by cases h).1]
    refine ⟨hident before, fun text htext => ?_⟩
    have hwhole : AvoidsColons (.ident ident :: rest.foldr joinSegment []) := by
      intro other hmem
      exact hrest.foldr other (by simpa using hmem)
    rw [hident, List.foldr_cons]
    exact (instanceSource_cons subst before (.text text) hwhole).symm

/-- **Where no text begins with a colon, an instance is transcribed piece by piece.** -/
theorem source_instantiate_ofSegments (h : AvoidsColons segments) :
    ((ofSegments segments).instantiate subst).source = transcribe subst [] segments := by
  rw [instantiate, source_ofSegments, (transcribe_eq segments [] h fun _ _ h => by cases h).1]
  rfl

end GoStencil.Body
