/-!
# Token streams

The body of a function, or what follows `var` or `const`, kept as written: every identifier is a
segment of its own, and everything between two identifiers is one segment of text.

* `Body.push`: text after text becomes one segment.
* `Body.ofSegments`: the stream of any list of segments; `ofSegments_append_singleton` says that
  it is built by pushing them in order.
* `Body.source`: the characters of a stream; `source_push` and `source_ofSegments` say that none
  are lost when text is joined.
-/

namespace GoStencil

/-- A piece of a token stream. -/
inductive Segment where
  /-- An identifier. -/
  | ident (source : String)
  /-- Everything else: blanks, comments, literals, operators and brackets. -/
  | text (source : String)
  deriving DecidableEq, Repr

/-- The characters of a segment. -/
def Segment.source : Segment → String
  | .ident source => source
  | .text source => source

/-- A token stream. -/
structure Body where
  segments : List Segment
  deriving DecidableEq, Repr

namespace Body

/-- The empty stream. -/
def empty : Body :=
  ⟨[]⟩

/-- A segment after a list of segments; text joins the text before it. -/
def pushSegment : List Segment → Segment → List Segment
  | [.text before], .text after => [.text (before ++ after)]
  | [], segment => [segment]
  | first :: rest, segment => first :: pushSegment rest segment

/-- The stream with one more segment. -/
def push (body : Body) (segment : Segment) : Body :=
  ⟨pushSegment body.segments segment⟩

/-- A segment before a list of segments; text joins the text after it. -/
def joinSegment : Segment → List Segment → List Segment
  | .text before, .text after :: rest => .text (before ++ after) :: rest
  | segment, rest => segment :: rest

/-- The stream of a list of segments. -/
def ofSegments (segments : List Segment) : Body :=
  ⟨segments.foldr joinSegment []⟩

theorem joinSegment_pushSegment (first : Segment) (segments : List Segment) (last : Segment) :
    joinSegment first (pushSegment segments last) =
      pushSegment (joinSegment first segments) last := by
  match segments with
  | [] => cases first <;> cases last <;> rfl
  | [mid] => cases first <;> cases mid <;> cases last <;>
      simp [joinSegment, pushSegment, String.append_assoc]
  | mid :: next :: rest => cases first <;> cases mid <;> simp [joinSegment, pushSegment]

/-- A stream is built by pushing its segments in order. -/
theorem ofSegments_append_singleton (segments : List Segment) (last : Segment) :
    ofSegments (segments ++ [last]) = (ofSegments segments).push last := by
  have key : segments.foldr joinSegment [last] =
      pushSegment (segments.foldr joinSegment []) last := by
    induction segments with
    | nil => cases last <;> rfl
    | cons first rest ih => simp only [List.foldr_cons, ih, joinSegment_pushSegment]
  simpa [ofSegments, push, joinSegment] using key

/-- The identifiers in order. -/
def identifiers (body : Body) : List String :=
  body.segments.filterMap fun
    | .ident source => some source
    | .text _ => none

/-- The characters of the whole stream. -/
def source (body : Body) : String :=
  String.join (body.segments.map Segment.source)

theorem join_source_pushSegment (segments : List Segment) (segment : Segment) :
    String.join ((pushSegment segments segment).map Segment.source) =
      String.join (segments.map Segment.source) ++ segment.source := by
  fun_induction pushSegment segments segment with
  | case1 before after => simp [Segment.source]
  | case2 segment => simp
  | case3 first rest segment _ ih => simp [ih, String.append_assoc]

/-- Pushing a segment adds its characters at the end, whether or not it joins another. -/
theorem source_push (body : Body) (segment : Segment) :
    (body.push segment).source = body.source ++ segment.source :=
  join_source_pushSegment body.segments segment

theorem join_source_joinSegment (segment : Segment) (segments : List Segment) :
    String.join ((joinSegment segment segments).map Segment.source) =
      segment.source ++ String.join (segments.map Segment.source) := by
  fun_cases joinSegment segment segments <;> simp [Segment.source, String.append_assoc]

/-- The characters of a stream are those of the segments it is made of. -/
theorem source_ofSegments (segments : List Segment) :
    (ofSegments segments).source = String.join (segments.map Segment.source) := by
  induction segments with
  | nil => rfl
  | cons first rest ih =>
    simp only [ofSegments, source, List.foldr_cons] at ih ⊢
    rw [join_source_joinSegment, ih, List.map_cons, String.join_cons]

end Body

end GoStencil
