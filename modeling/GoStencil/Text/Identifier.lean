import GoStencil.Text.IdentifierRanges

/-!
# Identifier characters

Which characters may start an identifier and which may continue one. ASCII is decided directly,
every other character by the tables of `IdentifierRanges`.

* `isXidContinue_of_isXidStart`: what may start an identifier may also continue one, so an
  identifier never ends before a character that could start the next.
-/

namespace GoStencil.Text

/-- Whether the character has the property `XID_Start`. -/
def isXidStart (c : Char) : Bool :=
  if c.val < 0x80 then c.isAlpha else identifierStartRanges.covers c.toNat

/-- Whether the character has the property `XID_Continue`. -/
def isXidContinue (c : Char) : Bool :=
  isXidStart c ||
    if c.val < 0x80 then c.isDigit || c == '_' else identifierMarkRanges.covers c.toNat

/-- Whether an identifier may begin with the character: a letter or an underscore. -/
def isIdentifierStart (c : Char) : Bool :=
  isXidStart c || c == '_'

theorem isXidContinue_of_isXidStart {c : Char} (h : isXidStart c = true) :
    isXidContinue c = true := by
  simp [isXidContinue, h]

theorem isXidContinue_of_isIdentifierStart {c : Char} (h : isIdentifierStart c = true) :
    isXidContinue c = true := by
  rcases Bool.or_eq_true _ _ ▸ h with h | h
  · exact isXidContinue_of_isXidStart h
  · cases eq_of_beq h
    decide

end GoStencil.Text
