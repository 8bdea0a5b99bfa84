/-!
# Places in a text

A cursor is a place in a source text: the byte offset, and the characters from there on.

* `Cursor.skip?_eq_some_iff`: skipping a text succeeds exactly on a place that continues with it.
-/

namespace GoStencil.Grammar

/-- A place in a text. -/
structure Cursor where
  /-- How many bytes precede the place. -/
  offset : Nat
  /-- What follows it. -/
  rest : List Char
  deriving DecidableEq

namespace Cursor

/-- The start of a text. -/
def start (text : String) : Cursor :=
  ⟨0, text.toList⟩

/-- The place after the next character. -/
def next? (cursor : Cursor) (accepts : Char → Bool) : Option Cursor :=
  match cursor.rest with
  | [] => none
  | c :: rest => if accepts c then some ⟨cursor.offset + c.utf8Size, rest⟩ else none

/-- The place after the given characters, when they are what follows. -/
def skip? (cursor : Cursor) : List Char → Option Cursor
  | [] => some cursor
  | c :: cs => (cursor.next? (· == c)).bind (skip? · cs)

/-- The number of bytes of some characters. -/
def byteLength : List Char → Nat
  | [] => 0
  | c :: cs => c.utf8Size + byteLength cs

/-- The first characters of a list that together have the given number of bytes. -/
def takeBytes : Nat → List Char → List Char
  | _, [] => []
  | bytes, c :: cs => if bytes = 0 then [] else c :: takeBytes (bytes - c.utf8Size) cs

/-- The characters between two places of one text. -/
def upTo (first last : Cursor) : List Char :=
  takeBytes (last.offset - first.offset) first.rest

theorem skip?_eq_some_iff {cursor after : Cursor} {cs : List Char} :
    cursor.skip? cs = some after ↔
      cursor.rest = cs ++ after.rest ∧ after.offset = cursor.offset + byteLength cs := by
  induction cs generalizing cursor with
  | nil =>
    cases cursor; cases after
    simp [skip?, byteLength, eq_comm, and_comm]
  | cons c cs ih =>
    obtain ⟨offset, rest⟩ := cursor
    cases rest with
    | nil => simp [skip?, next?]
    | cons d rest =>
      by_cases h : d = c
      · subst h
        simp [skip?, next?, ih, byteLength, Nat.add_assoc]
      · simp [skip?, next?, h]

end Cursor

end GoStencil.Grammar
