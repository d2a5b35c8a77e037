import Mathlib.Data.List.DropRight
import Asm65816.Report

/-!
# The line that a report shows

A place in a text stands on one line only: around the place the text is a line without a line break,
between what ends with a line break and what begins with one, or with nothing. A report finds that
line by looking for the line breaks next to the place, backwards and forwards, and points at the
place with a caret.
-/

namespace Asm65816

variable {source : List Char} {position : Nat}

/-! ## Lines -/

/-- The line on which a place stands, with what stands before and after it in the text. -/
@[ext] structure Line (source : List Char) (position : Nat) where
  /-- The lines before, each with its line break. -/
  before : List Char
  /-- The line, without its line break. -/
  chars : List Char
  /-- The line break behind the line, and the lines after it. -/
  after : List Char
  /-- These are the parts of the text. -/
  split : source = before ++ chars ++ after
  /-- There is no line break on the line. -/
  unbroken : '\n' ∉ chars
  /-- The line begins with the text, or behind a line break. -/
  begins : before = [] ∨ before.getLast? = some '\n'
  /-- The line ends with the text, or before a line break. -/
  ends : after = [] ∨ after.head? = some '\n'
  /-- The place is not before the line. -/
  length_le : before.length ≤ position
  /-- The place is on the line, or just behind it. -/
  le_length : position ≤ before.length + chars.length

theorem unbroken_iff {s : List Char} : '\n' ∉ s ↔ ∀ c ∈ s, (c != '\n') = true := by
  simp only [bne_iff_ne, ne_eq]
  exact ⟨fun h c hc heq => h (heq ▸ hc), fun h hmem => h _ hmem rfl⟩

/-- A text up to its first line break. -/
theorem firstLine_append {line after : List Char} (hline : '\n' ∉ line)
    (hafter : after = [] ∨ after.head? = some '\n') : firstLine (line ++ after) = line := by
  rw [firstLine, List.takeWhile_append_of_pos (unbroken_iff.mp hline)]
  cases after with
  | nil => exact List.append_nil line
  | cons c after =>
    obtain rfl : c = '\n' := Option.some.inj (hafter.resolve_left (List.cons_ne_nil c after))
    exact List.append_nil line

/-- A text behind its last line break. -/
theorem lastLine_append {before line : List Char} (hline : '\n' ∉ line)
    (hbefore : before = [] ∨ before.getLast? = some '\n') : lastLine (before ++ line) = line := by
  have hreverse : firstLine (line.reverse ++ before.reverse) = line.reverse :=
    firstLine_append (by rwa [List.mem_reverse])
      (hbefore.imp List.reverse_eq_nil_iff.mpr fun h => List.head?_reverse.trans h)
  rw [lastLine, List.reverse_append]
  exact (congrArg List.reverse hreverse).trans (List.reverse_reverse line)

/-- A text begins with its first line. -/
theorem exists_firstLine (s : List Char) :
    ∃ after, s = firstLine s ++ after ∧ '\n' ∉ firstLine s ∧
      (after = [] ∨ after.head? = some '\n') := by
  refine ⟨s.dropWhile (· != '\n'), List.takeWhile_append_dropWhile.symm,
    unbroken_iff.mpr fun _ => List.mem_takeWhile_imp (p := (· != '\n')), ?_⟩
  have hnot := List.head?_dropWhile_not (· != '\n') s
  cases hdrop : s.dropWhile (· != '\n') with
  | nil => exact .inl rfl
  | cons c after =>
    rw [hdrop] at hnot
    have hc : c = '\n' := by simpa using hnot
    exact .inr (congrArg some hc)

/-- A text ends with its last line. -/
theorem exists_lastLine (s : List Char) :
    ∃ before, s = before ++ lastLine s ∧ '\n' ∉ lastLine s ∧
      (before = [] ∨ before.getLast? = some '\n') := by
  obtain ⟨after, hsplit, hunbroken, hafter⟩ := exists_firstLine s.reverse
  refine ⟨after.reverse, ?_, mt List.mem_reverse.mp hunbroken, ?_⟩
  · have hreverse := congrArg List.reverse hsplit
    rwa [List.reverse_reverse, List.reverse_append] at hreverse
  · exact hafter.imp List.reverse_eq_nil_iff.mpr fun h => List.getLast?_reverse.trans h

namespace Line

/-- The part of the line before the place. -/
theorem take_position (line : Line source position) :
    source.take position = line.before ++ line.chars.take (position - line.before.length) := by
  have hle := line.le_length
  have hlength : position - line.before.length ≤ line.chars.length := by omega
  conv_lhs => rw [line.split]
  rw [List.append_assoc, List.take_append, List.take_of_length_le line.length_le,
    List.take_append_of_le_length hlength]

/-- The part of the line behind the place. -/
theorem drop_position (line : Line source position) :
    source.drop position = line.chars.drop (position - line.before.length) ++ line.after := by
  have hle := line.le_length
  have hlength : position - line.before.length ≤ line.chars.length := by omega
  conv_lhs => rw [line.split]
  rw [List.append_assoc, List.drop_append, List.drop_of_length_le line.length_le, List.nil_append,
    List.drop_append_of_le_length hlength]

theorem lastLine_take (line : Line source position) :
    lastLine (source.take position) = line.chars.take (position - line.before.length) := by
  rw [line.take_position]
  exact lastLine_append (mt List.mem_of_mem_take line.unbroken) line.begins

theorem firstLine_drop (line : Line source position) :
    firstLine (source.drop position) = line.chars.drop (position - line.before.length) := by
  rw [line.drop_position]
  exact firstLine_append (mt List.mem_of_mem_drop line.unbroken) line.ends

/-- The line is the one that is found by looking for line breaks. -/
theorem chars_eq (line : Line source position) : line.chars = lineAt source position := by
  rw [lineAt, line.lastLine_take, line.firstLine_drop, List.take_append_drop]

/-- **There is only one line on which a place stands.** -/
theorem eq_of_place (line other : Line source position) : line = other := by
  have hbefore : line.before = other.before := by
    have h := line.take_position.symm.trans other.take_position
    rw [← line.lastLine_take, ← other.lastLine_take] at h
    exact List.append_cancel_right h
  have hafter : line.after = other.after := by
    have h := line.drop_position.symm.trans other.drop_position
    rw [← line.firstLine_drop, ← other.firstLine_drop] at h
    exact List.append_cancel_left h
  exact Line.ext hbefore (line.chars_eq.trans other.chars_eq.symm) hafter

/-- **Every place of a text stands on a line**, and that behind its end does. -/
theorem exists_line (h : position ≤ source.length) : Nonempty (Line source position) := by
  obtain ⟨before, htake, hlast, hbefore⟩ := exists_lastLine (source.take position)
  obtain ⟨after, hdrop, hfirst, hafter⟩ := exists_firstLine (source.drop position)
  have hlength : position = before.length + (lastLine (source.take position)).length := by
    rw [← List.length_append, ← htake, List.length_take_of_le h]
  refine ⟨⟨before, lineAt source position, after, ?_, ?_, hbefore, hafter, by omega, ?_⟩⟩
  · rw [lineAt, ← List.append_assoc, ← htake, List.append_assoc, ← hdrop, List.take_append_drop]
  · rw [lineAt, List.mem_append]
    exact not_or.mpr ⟨hlast, hfirst⟩
  · rw [lineAt, List.length_append]
    omega

/-! ## The place on the line -/

/-- The column of the place, counted from one. -/
def column (line : Line source position) : Nat := position - line.before.length + 1

theorem columnAt_eq (line : Line source position) : columnAt source position = line.column := by
  have hlength := congrArg List.length line.take_position
  rw [List.length_append] at hlength
  rw [columnAt, line.lastLine_take, hlength, Nat.add_sub_cancel, column]

/-- The line as it is shown. -/
def text (line : Line source position) : String := "    " ++ String.ofList line.chars

/-- What is shown below the line. -/
def caret (line : Line source position) : String :=
  String.ofList (List.replicate (4 + line.column - 1) ' ' ++ ['^'])

theorem toList_text (line : Line source position) :
    line.text.toList = [' ', ' ', ' ', ' '] ++ line.chars := by
  rw [text, String.toList_append, String.toList_ofList, String.toList_ofList]

theorem place_of_caret (line : Line source position) :
    4 + line.column - 1 = 4 + (position - line.before.length) := by
  rw [column]
  omega

/-- The character at a place on the line is on the line. -/
theorem getElem?_chars (line : Line source position)
    (h : position < line.before.length + line.chars.length) :
    source[position]? = line.chars[position - line.before.length]? := by
  have hle := line.length_le
  conv_lhs => rw [line.split]
  rw [List.append_assoc, List.getElem?_append_right hle, List.getElem?_append_left (by omega)]

/-- **The caret points at the character at the place.** -/
theorem exists_under (line : Line source position)
    (h : position < line.before.length + line.chars.length) :
    ∃ c, source[position]? = some c ∧ c ≠ '\n' ∧
      line.text.toList[4 + line.column - 1]? = some c := by
  have hle := line.length_le
  have hlt : position - line.before.length < line.chars.length := by omega
  refine ⟨line.chars[position - line.before.length], ?_, ?_, ?_⟩
  · rw [line.getElem?_chars h, List.getElem?_eq_getElem hlt]
  · exact ne_of_mem_of_not_mem (List.getElem_mem hlt) line.unbroken
  · rw [line.toList_text, line.place_of_caret, List.getElem?_append_right (Nat.le_add_right 4 _)]
    simp [List.getElem?_eq_getElem hlt]

/-- **The caret points just behind the line at its line break**, and at the end of the text. -/
theorem length_text_of_break (line : Line source position)
    (h : source[position]? = some '\n' ∨ position = source.length) :
    line.text.length = 4 + line.column - 1 := by
  have hle := line.le_length
  have hend : position = line.before.length + line.chars.length := by
    by_contra hne
    obtain ⟨c, hc, hbreak, _⟩ := line.exists_under (by omega)
    rcases h with h | h
    · exact hbreak (Option.some.inj (hc.symm.trans h))
    · rw [h, List.getElem?_length] at hc
      cases hc
  rw [← String.length_toList, line.toList_text, line.place_of_caret, List.length_append]
  have hplace : position - line.before.length = line.chars.length := by omega
  rw [hplace]
  rfl

end Line

/-! ## Reports -/

/-- A report shows the line of a place, and points at the place. -/
structure Report.Shows (r : Report) (line : Line source position) : Prop where
  /-- The column counts from the beginning of the line. -/
  column : r.column = some line.column
  /-- The report is a headline, the line and the caret below it, and a hint if there is any to
  give. -/
  render : r.render = "\n".intercalate
    (["column " ++ toString line.column ++ ": error: " ++ r.diagnosis.message, line.text,
      line.caret] ++ ((r.diagnosis.hint.filter (· ≠ "")).map ("hint: " ++ ·)).toList)
  /-- The caret stands below the character at the place. -/
  under : position < line.before.length + line.chars.length →
    ∃ c, source[position]? = some c ∧ c ≠ '\n' ∧ line.text.toList[4 + line.column - 1]? = some c
  /-- At a line break, and at the end of the text, the caret stands just behind the line. -/
  behind : source[position]? = some '\n' ∨ position = source.length →
    line.text.length = 4 + line.column - 1

theorem Report.hintLines_eq (r : Report) :
    r.hintLines = ((r.diagnosis.hint.filter (· ≠ "")).map ("hint: " ++ ·)).toList := by
  rw [hintLines]
  cases r.diagnosis.hint with
  | none => rfl
  | some hint =>
    by_cases h : hint = ""
    · subst h
      rfl
    · rw [Option.filter_some_pos (by simpa using h)]
      split
      · rename_i heq
        cases heq
      · rename_i heq
        exact absurd (Option.some.inj heq) h
      · rename_i heq
        cases heq
        rfl

/-- **A report of any place in a text shows the one line on which the place stands**, and points at
the place. -/
theorem Report.exists_line_shows (diagnosis : Diagnosis) {source : String} {position : Nat}
    (h : position ≤ source.length) :
    ∃ line : Line source.toList position, (∀ other : Line source.toList position, other = line) ∧
      ({ diagnosis, position := some position, source := some source } : Report).Shows line := by
  rw [← String.length_toList] at h
  obtain ⟨line⟩ := Line.exists_line h
  generalize hr : ({ diagnosis, position := some position, source := some source } : Report) = r
  have hcolumn : r.column = some line.column := by
    subst hr
    exact congrArg some line.columnAt_eq
  have hexcerpt : r.excerpt = [line.text, line.caret] := by
    subst hr
    rw [Line.text, Line.caret, line.chars_eq, ← line.columnAt_eq]
    rfl
  refine ⟨line, fun other => other.eq_of_place line, hcolumn, ?_, line.exists_under,
    line.length_text_of_break⟩
  rw [render, headline, hcolumn, hexcerpt, hintLines_eq]

/-- A line break is shown behind the line that it ends. -/
theorem Report.exists_line_shows_break :
    let report : Report :=
      { diagnosis := .mismatch "bad" (some "try again")
        position := some 9
        source := some "NOP\nLDA X\nRTS" }
    (∃ line : Line "NOP\nLDA X\nRTS".toList 9,
      (∀ other : Line "NOP\nLDA X\nRTS".toList 9, other = line) ∧ report.Shows line) ∧
    report.render = "column 6: error: bad\n    LDA X\n         ^\nhint: try again" :=
  ⟨exists_line_shows (.mismatch "bad" (some "try again")) (by decide), by decide +kernel⟩

end Asm65816
