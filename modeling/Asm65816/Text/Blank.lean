/-!
# Blanks

The characters that may stand between two tokens: space, tab, carriage return and line feed. A line
break is a blank like any other, so a statement may run over several lines.
-/

namespace Asm65816.Text

/-- Whether a character may stand between two tokens. -/
def isBlank (c : Char) : Bool :=
  c == ' ' || c == '\t' || c == '\r' || c == '\n'

/-- The text after the blanks that it begins with. -/
def skipBlanks (s : List Char) : List Char := s.dropWhile isBlank

theorem isBlank_iff {c : Char} : isBlank c = true ↔ c = ' ' ∨ c = '\t' ∨ c = '\r' ∨ c = '\n' := by
  simp [isBlank, or_assoc]

theorem skipBlanks_suffix (s : List Char) : skipBlanks s <:+ s := List.dropWhile_suffix _

@[simp] theorem skipBlanks_nil : skipBlanks [] = [] := rfl

theorem skipBlanks_cons_of_blank {c : Char} {s : List Char} (h : isBlank c = true) :
    skipBlanks (c :: s) = skipBlanks s := List.dropWhile_cons_of_pos h

theorem skipBlanks_cons_of_not_blank {c : Char} {s : List Char} (h : ¬isBlank c = true) :
    skipBlanks (c :: s) = c :: s := List.dropWhile_cons_of_neg h

/-- No blank is left in front. -/
theorem not_blank_of_skipBlanks_eq_cons {c : Char} {s r : List Char} (h : skipBlanks s = c :: r) :
    isBlank c = false := by
  induction s with
  | nil => simp at h
  | cons d s ih =>
    by_cases hd : isBlank d = true
    · rw [skipBlanks_cons_of_blank hd] at h
      exact ih h
    · rw [skipBlanks_cons_of_not_blank hd, List.cons.injEq] at h
      simpa [h.1] using hd

@[simp] theorem skipBlanks_skipBlanks (s : List Char) :
    skipBlanks (skipBlanks s) = skipBlanks s := by
  cases h : skipBlanks s with
  | nil => rfl
  | cons c r =>
    -- what is left begins with a character that is no blank
    exact skipBlanks_cons_of_not_blank (by simp [not_blank_of_skipBlanks_eq_cons h])

end Asm65816.Text
