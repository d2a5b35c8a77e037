import Asm65816.Proofs.Statement.OperandText

/-!
# Instructions

What is read as an instruction has a name for its mnemonic and a readable operand, and from its text
it is read again, up to where a statement may end.
-/

namespace Asm65816

open Rule Asm65816.Derivation

/-- An instruction that is read from its text within a number of levels. -/
structure Instruction.Readable (n : Nat) (i : Instruction) : Prop where
  /-- The mnemonic is a name. -/
  name : IsName i.mnemonic
  /-- The operand is read from its text. -/
  operand : i.operand.Readable n

namespace Rule

/-! ## What is read -/

/-- What is read as a name is the longest one. -/
theorem exists_word_of_parse {s t : List Char} {name : String}
    (h : identifier.parse s = .ok (name, t)) :
    ∃ word : Word, s = word.chars ++ t ∧ word.name = name ∧
      ∀ c ∈ t.head?, Text.isIdentifierContinue c = false := by
  rcases begins_or Text.isIdentifierStart s with ⟨c, u, rfl, hstart⟩ | hnot
  · rw [parse_identifier_of_start hstart] at h
    cases h
    refine ⟨.leading hstart u, ?_, rfl, ?_⟩
    · rw [Word.chars, Word.leading, List.cons_append, List.takeWhile_append_dropWhile]
    · intro d hd
      have hnot := List.head?_dropWhile_not Text.isIdentifierContinue u
      rw [hd] at hnot
      exact hnot
  · rw [parse_identifier_of_not_start hnot] at h
    cases h

theorem gives_identifier : identifier.Gives IsName := by
  intro s t name h
  obtain ⟨word, _, hname, _⟩ := exists_word_of_parse h
  exact ⟨word, hname⟩

/-- **An instruction that is read is readable.** -/
theorem gives_instruction (limit n : Nat) :
    (instruction (nested limit n)).Gives (·.Readable n) := by
  have hoperand : (operand (nested limit n)).Gives (·.Readable n) :=
    fun _ _ _ => readable_of_parse_operand
  exact gives_then fun _ => gives_identifier.bind fun _ hname => gives_then fun _ =>
    hoperand.bind fun _ ho => gives_then fun _ => gives_pure ⟨hname, ho⟩

/-- A statement is an instruction. -/
theorem parse_statement (inner : Rule Expression) (s : List Char) :
    (statement inner).parse s =
      (instruction inner >>= fun i => pure (.instruction i)).parse s := by
  have hskip : (instruction inner >>= fun i => pure (Statement.instruction i)).SkipsBlanks :=
    (skipsBlanks_blanks.bind _).bind _
  rw [statement, parse_bind_of_ok (parse_blanks s)]
  exact (parse_firstOf_singleton (statementBranch inner .instruction) _ _).trans (hskip s)

/-- The only statements that are read are instructions. -/
theorem parse_statement_eq_ok_iff {inner : Rule Expression} {s t : List Char} {x : Statement} :
    (statement inner).parse s = .ok (x, t) ↔
      ∃ i, x = .instruction i ∧ (instruction inner).parse s = .ok (i, t) := by
  rw [parse_statement, parse_bind_eq_ok_iff]
  constructor
  · rintro ⟨i, u, hi, h⟩
    obtain ⟨rfl, rfl⟩ := eq_of_parse_pure h
    exact ⟨i, rfl, hi⟩
  · rintro ⟨i, rfl, hi⟩
    exact ⟨i, t, hi, rfl⟩

/-- A statement fails as an instruction does. -/
theorem parse_statement_eq_error_iff {inner : Rule Expression} {s : List Char} {f : Failure} :
    (statement inner).parse s = .error f ↔ (instruction inner).parse s = .error f := by
  rw [parse_statement, parse_bind_pure_eq_error_iff]

end Rule

/-! ## What is written -/

namespace Instruction

variable {n : Nat} {i : Instruction}

/-- **The text of a readable instruction is derived as that instruction**, with blanks behind it. -/
theorem Readable.written (h : i.Readable n) (w : Blanks) :
    ∃ d : Derivation.Instruction, d.text = i.chars ++ w.chars ∧
      d.operand.text = i.operand.chars ++ w.chars ∧ d.operand.after = w ∧ d.Says i ∧
      d.operand.pieces.levels ≤ d.operand.form.levelsInside n ∧ d.operand.Fits := by
  obtain ⟨mnemonic, size, o⟩ := i
  obtain ⟨hname, ho⟩ := h
  obtain ⟨word, hword, rfl⟩ := Expression.IsName.exists_word hname
  obtain ⟨d, htext, hafter, hsays, hlevels, hfits⟩ := ho.written w
  -- an operand is not empty, so a space stands in front of it
  have hne : o.chars ≠ [] := by
    obtain ⟨c, u, hu, _⟩ := d.begins []
    intro hnil
    rw [htext, hnil, List.append_nil, List.nil_append] at hu
    rw [← List.append_nil w.chars, w.skipBlanks_append] at hu
    cases hu
  cases size with
  | none =>
    refine ⟨⟨.none, word, .space, none, d, fun _ _ _ => List.cons_ne_nil _ _⟩, ?_, htext, hafter,
      ⟨rfl, rfl, hsays⟩, hlevels, hfits⟩
    simp [Derivation.Instruction.text, suffixText, Instruction.chars, sizeChars, hne, htext, hword,
      Blanks.none, Blanks.space]
  | some size =>
    refine ⟨⟨.none, word, .none, some ⟨.none, size.letter, size, size.ofLetter?_letter, .space⟩, d,
      ?_⟩, ?_, htext, hafter, ⟨rfl, rfl, hsays⟩, hlevels, hfits⟩
    · intro c hc hcontinue
      cases hc
      exact absurd hcontinue (by decide)
    · simp [Derivation.Instruction.text, suffixText, Suffix.text, Instruction.chars, sizeChars, hne,
        htext, hword, Blanks.none, Blanks.space]

/-- **The text of a readable instruction is read as that instruction**, up to where a statement may
end. -/
theorem Readable.parse (hi : i.Readable n) (limit : Nat) {w : Blanks} {t : List Char}
    (h : Ends w t) :
    (instruction (nested limit n)).parse (i.chars ++ (w.chars ++ t)) = .ok (i, t) := by
  obtain ⟨d, htext, _, rfl, hsays, hlevels, hfits⟩ := hi.written w
  have hparse := d.parse hsays limit hlevels hfits h
  rwa [htext, List.append_assoc] at hparse

/-- Nothing is left over where nothing else is written. -/
theorem Readable.parse_chars (hi : i.Readable n) (limit : Nat) :
    (instruction (nested limit n)).parse i.chars = .ok (i, []) := by
  have hparse := hi.parse limit (ends_nil .none)
  simpa only [Blanks.none, List.append_nil] using hparse

end Instruction

end Asm65816
