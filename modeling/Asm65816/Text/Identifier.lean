import Asm65816.Text.Identifier.Table

/-!
# Characters of identifiers

An identifier is a word of Unicode Standard Annex #31. An underscore may stand anywhere in it, and
an exclamation mark may begin it. No character that continues an identifier is a blank or one of the
grammar's own signs, so an identifier always ends where the next token begins.
-/

namespace Asm65816.Text

namespace Identifier

/-- Whether a character has the property XID_Start. -/
def isXidStart (c : Char) : Bool :=
  if c.toNat < 128 then c.isAlpha else CharRange.anyContains startRanges c

/-- Whether a character has the property XID_Continue. The underscore has it. -/
def isXidContinue (c : Char) : Bool :=
  if c.toNat < 128 then c.isAlphanum || c == '_'
  else CharRange.anyContains startRanges c || CharRange.anyContains continueRanges c

theorem isXidContinue_of_isXidStart {c : Char} (h : isXidStart c = true) :
    isXidContinue c = true := by
  unfold isXidStart at h
  unfold isXidContinue
  split
  · rename_i hc
    rw [if_pos hc] at h
    simp [Char.isAlphanum, h]
  · rename_i hc
    rw [if_neg hc] at h
    simp [h]

end Identifier

/-- Whether a character may begin an identifier. -/
def isIdentifierStart (c : Char) : Bool :=
  c == '!' || c == '_' || Identifier.isXidStart c

/-- Whether a character may stand in an identifier after its first character. -/
def isIdentifierContinue (c : Char) : Bool :=
  c == '_' || Identifier.isXidContinue c

/-- Beginning an identifier is the stronger property, the exclamation mark apart. -/
theorem isIdentifierContinue_of_isIdentifierStart {c : Char} (h : isIdentifierStart c = true)
    (hc : c ≠ '!') : isIdentifierContinue c = true := by
  simp only [isIdentifierStart, Bool.or_eq_true, beq_iff_eq] at h
  rcases h with (h | h) | h
  · exact absurd h hc
  · simp [isIdentifierContinue, h]
  · simp [isIdentifierContinue, Identifier.isXidContinue_of_isXidStart h]

end Asm65816.Text
