import Asm65816.Proofs.Statement.Instruction
import Asm65816.Proofs.Reading

/-!
# The grammar of statements is exact

A text is read as a statement just if it derives an instruction. That an instruction is read where
one is derived is no matter of the order in which the forms are tried, but for one case: a group in
front of an operand always belongs to the form. The grammar says so itself.

No derivation takes more levels than its text has opening parentheses, and one. A limit that is
greater than their number is therefore never in the way.
-/

namespace Asm65816

open Rule Asm65816.Derivation

namespace Derivation

/-! ## What is read is derived -/

section

variable {limit n : Nat} {s t : List Char}

/-- A group is read in the form `(e)`, unless an operator stands behind it. -/
theorem parse_indirect_of_isGroup {e : Spaced} (h : e.IsGroup) (limit : Nat)
    (hlevels : e.levels ≤ n) (hfits : e.Fits) (hs : NoOperator (Text.skipBlanks s)) :
    ∃ x, (operandExpressions (nested limit n) .indirect).parse (e.text ++ s) = .ok x := by
  obtain ⟨before, _, after⟩ := e
  obtain ⟨inner, rfl⟩ := h
  have hread := parse_sequence_indirect limit .none after (Nat.le_of_succ_le hlevels) hfits s
  have htext : (Spaced.mk before (.term (.primary (.group inner))) after).text ++ s =
      before.chars ++ '(' :: (Blanks.none.chars ++ (inner.text ++ ')' :: (after.chars ++ s))) := by
    simp [Spaced.text, Sum.text, Term.text, Primary.text, Blanks.none]
  have hskip := skipsBlanks_operandExpressions (skipsBlanks_nested limit n) .indirect
  rw [htext, hskip.parse_append]
  exact ⟨((inner.tree, none), _), parse_operandExpressions_eq_ok_iff.mpr ⟨hread, fun _ => hs⟩⟩

/-- An operand that the form `(e)` refuses does not begin with a group as its expression. -/
theorem first_not_group (ht : NoOperator (Text.skipBlanks t)) (w : Blanks) :
    ∀ (form : OperandForm) (d : Pieces form.production), d.levels ≤ n → d.Fits →
    (OperandForm.indirect.Before form →
      (operandExpressions (nested limit n) .indirect).Refuses (w.chars ++ (d.text ++ t))) →
    ∀ e, d.first? = some e → ¬e.IsGroup
  | .move, .value e (.token c hc u others), hlevels, hfits, hrefuses, _, rfl => fun hgroup => by
    obtain ⟨f, hf, _⟩ := hrefuses (by decide)
    have hsign : c ∉ operatorSigns ∧ Text.isBlank c = false := by
      rw [List.mem_singleton.mp hc]
      decide
    have hno : NoOperator (Text.skipBlanks (c :: (u.chars ++ (others.text ++ t)))) := by
      rw [Text.skipBlanks_cons_of_not_blank (by simp [hsign.2])]
      exact noOperator_cons _ hsign.1
    obtain ⟨x, hx⟩ := parse_indirect_of_isGroup hgroup limit (Nat.max_le.mp hlevels).1 hfits.1 hno
    have hskip := skipsBlanks_operandExpressions (skipsBlanks_nested limit n) .indirect
    simp only [Pieces.text, List.cons_append, List.append_assoc] at hf
    rw [hskip.parse_append, hx] at hf
    cases hf
  | .address, .value e .nil, hlevels, hfits, hrefuses, _, rfl => fun hgroup => by
    obtain ⟨f, hf, _⟩ := hrefuses (by decide)
    obtain ⟨x, hx⟩ := parse_indirect_of_isGroup hgroup limit (Nat.max_le.mp hlevels).1 hfits.1 ht
    have hskip := skipsBlanks_operandExpressions (skipsBlanks_nested limit n) .indirect
    simp only [Pieces.text, List.append_nil] at hf
    rw [hskip.parse_append, hx] at hf
    cases hf
  | .indirectY, .token _ _ _ _, _, _, _, _, h | .indirect, .token _ _ _ _, _, _, _, _, h
  | .xIndirect, .token _ _ _ _, _, _, _, _, h | .immediate, .token _ _ _ _, _, _, _, _, h
  | .longIndirectY, .token _ _ _ _, _, _, _, _, h | .longIndirect, .token _ _ _ _, _, _, _, _, h
  | .stackIndirectY, .token _ _ _ _, _, _, _, _, h => nomatch h

/-- An operand that is not read as a block move has as many levels as its form leaves it. -/
theorem levels_le_levelsInside (w : Blanks) : ∀ (form : OperandForm) (d : Pieces form.production),
    d.levels ≤ n → d.Fits →
    (OperandForm.move.Before form →
      (operandExpressions (nested limit n) .move).Refuses (w.chars ++ (d.text ++ t))) →
    d.levels ≤ form.levelsInside n
  | .stackIndirectY, .token _ ho v (.value e (.token _ hc u (.token _ _ _ (.token _ _ _
      (.token _ _ _ (.token _ _ _ .nil)))))), hlevels, hfits, hmove => by
    obtain rfl := List.mem_singleton.mp ho
    obtain rfl := List.mem_singleton.mp hc
    obtain ⟨n, rfl⟩ : ∃ m, n = m + 1 := Nat.exists_eq_succ_of_ne_zero (by
      have := e.levels_pos
      have := (Nat.max_le.mp hlevels).1
      omega)
    have hmove := hmove (by decide)
    simp only [Pieces.text, List.cons_append, List.append_assoc] at hmove
    have hopen : ∀ x, Text.skipBlanks (w.chars ++ '(' :: x) = '(' :: x := fun x => by
      rw [w.skipBlanks_append, Text.skipBlanks_cons_of_not_blank (by decide)]
    exact Nat.max_le.mpr ⟨levels_le_of_move (hopen _) hfits.1 hmove, Nat.zero_le _⟩
  | .indirectY, _, hlevels, _, _ | .indirect, _, hlevels, _, _ | .xIndirect, _, hlevels, _, _
  | .move, _, hlevels, _, _ | .address, _, hlevels, _, _ | .immediate, _, hlevels, _, _
  | .longIndirectY, _, hlevels, _, _ | .longIndirect, _, hlevels, _, _ => hlevels

/-- **What is read as an operand is derived**, where no operator follows. -/
theorem exists_operand_of_parse {o : Asm65816.Operand}
    (h : (operand (nested limit n)).parse s = .ok (o, t)) (ht : NoOperator (Text.skipBlanks t)) :
    ∃ (w : Blanks) (d : Operand), s = w.chars ++ (d.text ++ t) ∧ d.Says o ∧
      d.pieces.levels ≤ d.form.levelsInside n ∧ d.Fits ∧ Unspaced t := by
  obtain ⟨form, hbefore, value, second, hparts, rfl⟩ := parse_operand_eq_ok_iff.mp h
  obtain ⟨hparts, _⟩ := parse_operandExpressions_eq_ok_iff.mp hparts
  obtain ⟨w, pieces, rfl, hvalues, hlevels, hfits, hunspaced⟩ :=
    (reads_nested limit n).sequence hparts
  have hgroup := first_not_group ht w form pieces hlevels hfits (hbefore .indirect)
  have hinside := levels_le_levelsInside w form pieces hlevels hfits (hbefore .move)
  refine ⟨w, ⟨form, pieces, hgroup⟩, rfl, ⟨rfl, hvalues.symm⟩, hinside, hfits,
    hunspaced (.inl ?_)⟩
  cases form <;> exact List.cons_ne_nil _ _

/-- What is read as a size is derived, and nothing is read where there is none. -/
theorem exists_suffix_of_parse {size : Option Size} (h : size?.parse s = .ok (size, t)) :
    (size = none ∧ t = s) ∨ ∃ (between : Blanks) (x : Suffix),
      s = between.chars ++ (x.text ++ t) ∧ size = some x.size ∧ Unspaced t := by
  rcases of_parse_backIfNone h with hnone | ⟨size, hsize, hround⟩
  · exact .inl hnone
  · obtain ⟨point?, u, hpoint, hround⟩ := parse_bind_eq_ok_iff.mp hround
    cases point? with
    | none => cases hround
    | some c =>
      obtain ⟨c, v, hs, hc, rfl⟩ := nextToken?_eq_some_iff.mp (nextToken?_of_parse hpoint)
      obtain ⟨letter, x, hv, hmeans, rfl⟩ := nextToken?_eq_some_iff.mp (nextToken?_of_parse hround)
      rw [Text.skipBlanks_skipBlanks] at hv
      rw [List.mem_singleton.mp (oneOf_eq_some_iff.mp hc).1] at hs
      refine .inr ⟨.leading s, ⟨.leading v, letter, size, hmeans, .leading x⟩, ?_, hsize,
        unspaced_skipBlanks x⟩
      rw [Suffix.text, List.cons_append, List.append_assoc, List.cons_append, Blanks.leading_append,
        ← hv, Blanks.leading_append, ← hs, Blanks.leading_append]

/-- **What is read as an instruction is derived**, where no operator follows. -/
theorem exists_instruction_of_parse {i : Asm65816.Instruction}
    (h : (instruction (nested limit n)).parse s = .ok (i, t))
    (ht : NoOperator (Text.skipBlanks t)) :
    ∃ d : Instruction, s = d.text ++ t ∧ d.Says i ∧
      d.operand.pieces.levels ≤ d.operand.form.levelsInside n ∧ d.operand.Fits ∧ Unspaced t := by
  rw [instruction, parse_bind_of_ok (parse_blanks s)] at h
  obtain ⟨name, v, hname, h⟩ := parse_bind_eq_ok_iff.mp h
  obtain ⟨size, x, hsize, h⟩ := parse_bind_eq_ok_iff.mp h
  obtain ⟨o, y, hoperand, h⟩ := parse_bind_eq_ok_iff.mp h
  rw [parse_bind_of_ok (parse_record _ _)] at h
  obtain ⟨rfl, rfl⟩ := eq_of_parse_pure h
  obtain ⟨word, hs, rfl, hlongest⟩ := exists_word_of_parse hname
  obtain ⟨w, d, hx, hsays, hlevels, hfits, hunspaced⟩ := exists_operand_of_parse hoperand ht
  have hbefore : s = (Blanks.leading s).chars ++ (word.chars ++ v) := by
    rw [← hs, Blanks.leading_append]
  -- what stands right behind the name does not go on with it
  have hlast : ∀ (between : Blanks) (z : List Char), v = between.chars ++ (z ++ y) →
      ∀ c ∈ z.head?, Text.isIdentifierContinue c = true → between.chars ≠ [] := by
    rintro between z rfl c hc hcontinue hnil
    obtain ⟨z, rfl⟩ := List.head?_eq_some_iff.mp hc
    rw [hlongest c (by simp [hnil])] at hcontinue
    cases hcontinue
  rcases exists_suffix_of_parse hsize with ⟨rfl, rfl⟩ | ⟨between, suffix, hv, rfl, hu⟩
  · refine ⟨⟨.leading s, word, w, none, d, hlast w _ hx⟩, ?_, ⟨rfl, rfl, hsays⟩, hlevels, hfits,
      hunspaced⟩
    simp only [Instruction.text, suffixText, Option.elim_none, List.nil_append, List.append_assoc]
    rw [← hx]
    exact hbefore
  · rw [hx] at hu hv
    rw [Blanks.eq_nil_of_unspaced hu, List.nil_append] at hv
    refine ⟨⟨.leading s, word, between, some suffix, d, hlast between _ ?_⟩, ?_, ⟨rfl, rfl, hsays⟩,
      hlevels, hfits, hunspaced⟩
    · rw [hv, suffixText, Option.elim_some, List.append_assoc]
    · simp only [Instruction.text, suffixText, Option.elim_some, List.append_assoc]
      rw [← hv]
      exact hbefore

end

/-! ## Levels and parentheses -/

mutual

/-- **An expression takes no more levels than it has opening parentheses, and one.** -/
theorem Spaced.levels_le : ∀ e : Spaced, e.levels ≤ e.text.count '(' + 1
  | .mk before sum after => by
    have := sum.levels_le
    rw [Spaced.levels, Spaced.text, List.count_append, List.count_append]
    omega

theorem Sum.levels_le : ∀ e : Sum, e.levels ≤ e.text.count '(' + 1
  | .term x => x.levels_le
  | .join left _ _ _ _ right => by
    have := left.levels_le
    have := right.levels_le
    simp only [Sum.levels, Sum.text, List.count_append]
    omega

theorem Term.levels_le : ∀ e : Term, e.levels ≤ e.text.count '(' + 1
  | .primary p => p.levels_le
  | .join left _ _ _ _ right => by
    have := left.levels_le
    have := right.levels_le
    simp only [Term.levels, Term.text, List.count_append]
    omega

theorem Primary.levels_le : ∀ e : Primary, e.levels ≤ e.text.count '(' + 1
  | .group inner => by
    have := inner.levels_le
    simp only [Primary.levels, Primary.text, List.count_append, List.count_cons_self,
      List.cons_append]
    omega
  | .decimal _ | .hexadecimal _ _ | .reference _ | .emptyCall _ _ _ => Nat.le_add_left 1 _
  | .call _ _ arguments => by
    have := arguments.levels_le
    simp only [Primary.levels, Primary.text, List.count_append, List.count_cons_self]
    omega

theorem Arguments.levels_le : ∀ e : Arguments, e.levels ≤ e.text.count '(' + 1
  | .one e => e.levels_le
  | .snoc earlier e => by
    have := earlier.levels_le
    have := e.levels_le
    simp only [Arguments.levels, Arguments.text, List.count_append, List.count_cons]
    omega

end

theorem Pieces.levels_le : ∀ {parts : List Part} (d : Pieces parts),
    d.levels ≤ d.text.count '(' + 1
  | _, .nil => Nat.zero_le 1
  | _, .token _ _ _ others => by
    have := others.levels_le
    simp only [Pieces.levels, Pieces.text, List.count_append, List.count_cons]
    omega
  | _, .value e others => by
    have := e.levels_le
    have := others.levels_le
    simp only [Pieces.levels, Pieces.text, List.count_append]
    omega

/-- More levels than there are opening parentheses are enough for an operand, in the form `(e,s),y`
too, where one parenthesis is not that of an expression. -/
theorem Pieces.levels_le_inside {n : Nat} : ∀ (form : OperandForm) (d : Pieces form.production),
    d.text.count '(' < n → d.levels ≤ form.levelsInside n
  | .stackIndirectY, .token _ hc after others, h => by
    obtain rfl := List.mem_singleton.mp hc
    have hle := others.levels_le
    simp only [Pieces.text, List.count_cons_self, List.count_append] at h
    simp only [Pieces.levels, OperandForm.levelsInside]
    omega
  | .indirectY, d, h | .indirect, d, h | .xIndirect, d, h | .move, d, h | .address, d, h
  | .immediate, d, h | .longIndirectY, d, h | .longIndirect, d, h => Nat.le_trans d.levels_le h

end Derivation

/-! ## Whole texts -/

/-- An instruction is read to the end of the text just if it is derived. -/
theorem parse_instruction_eq_ok_nil_iff (limit : Nat) {n : Nat} {s : List Char} {i : Instruction}
    (h : s.count '(' < n) :
    (instruction (nested limit n)).parse s = .ok (i, []) ↔ DerivesInstruction s i := by
  constructor
  · intro hparse
    obtain ⟨d, hs, hsays, _, hfits, _⟩ :=
      Derivation.exists_instruction_of_parse hparse noOperator_nil
    rw [List.append_nil] at hs
    exact ⟨d, hs.symm, hsays, hfits⟩
  · rintro ⟨d, rfl, hsays, hfits⟩
    have hcount : d.operand.text.count '(' < n := by
      simp only [Derivation.Instruction.text, List.count_append] at h
      omega
    have hinside := Pieces.levels_le_inside _ d.operand.pieces hcount
    have hparse := d.parse hsays limit hinside hfits (ends_nil _)
    rwa [List.append_nil] at hparse

theorem DerivesInstruction.unique {s : List Char} {i j : Instruction} (hi : DerivesInstruction s i)
    (hj : DerivesInstruction s j) : i = j := by
  have hlt : s.count '(' < s.count '(' + 1 := Nat.lt_succ_self _
  have hi := (parse_instruction_eq_ok_nil_iff 0 hlt).mpr hi
  have hj := (parse_instruction_eq_ok_nil_iff 0 hlt).mpr hj
  rw [hi] at hj
  cases hj
  rfl

theorem DerivesInstruction.exists_form {s : List Char} {i : Instruction}
    (h : DerivesInstruction s i) : ∃ form : OperandForm, i.operand.mode = form.mode := by
  obtain ⟨d, _, hsays, _⟩ := h
  exact ⟨d.operand.form, hsays.operand.mode⟩

/-- A text is a statement just if it is read as an instruction to its end. -/
theorem parseStatement_eq_ok_iff_parse {limit : NestingLimit} {text : String} {x : Statement} :
    parseStatement limit text = .ok x ↔
      ∃ i, x = .instruction i ∧ (instruction limit.expression).parse text.toList = .ok (i, []) := by
  unfold parseStatement
  rw [read_result_eq_ok_iff]
  constructor
  · rintro ⟨t, hparse⟩
    obtain ⟨u, hu, hskip, _⟩ := parse_whole_eq_ok_iff.mp hparse
    obtain ⟨i, rfl, hi⟩ := parse_statement_eq_ok_iff.mp hu
    obtain ⟨_, _, _, _, _, hunspaced⟩ :=
      Derivation.exists_instruction_of_parse hi (by rw [hskip]; exact noOperator_nil)
    rw [hunspaced.skipBlanks_eq] at hskip
    rw [hskip] at hi
    exact ⟨i, rfl, hi⟩
  · rintro ⟨i, rfl, hi⟩
    have hstatement := parse_statement_eq_ok_iff.mpr ⟨i, rfl, hi⟩
    exact ⟨[], parse_whole_eq_ok_iff.mpr ⟨[], hstatement, rfl, rfl⟩⟩

theorem parseStatement_eq_ok_iff {limit : NestingLimit} {text : String} {x : Statement}
    (h : text.toList.count '(' < limit.levels) :
    parseStatement limit text = .ok x ↔
      ∃ i, x = .instruction i ∧ DerivesInstruction text.toList i := by
  rw [parseStatement_eq_ok_iff_parse]
  exact exists_congr fun i => and_congr_right' (parse_instruction_eq_ok_nil_iff limit.levels h)

/-- **A text is read as a statement just if it derives an instruction**, where the limit on nesting
is not in the way. It derives no other instruction, and none whose mode has no written operand. -/
theorem parseStatement_exact (limit : NestingLimit) (text : String)
    (h : text.toList.count '(' < limit.levels) :
    (∀ x, parseStatement limit text = .ok x ↔
        ∃ i, x = .instruction i ∧ DerivesInstruction text.toList i) ∧
      (∀ i j, DerivesInstruction text.toList i → DerivesInstruction text.toList j → i = j) ∧
      ∀ i, DerivesInstruction text.toList i →
        i.operand.mode ≠ .implied ∧ i.operand.mode ≠ .accumulator := by
  refine ⟨fun _ => parseStatement_eq_ok_iff h, fun _ _ hi hj => hi.unique hj, fun i hi => ?_⟩
  obtain ⟨form, hform⟩ := hi.exists_form
  rw [hform]
  cases form <;> exact ⟨nofun, nofun⟩

/-- Blanks may stand between all tokens, and the parenthesis of the form counts for a level. -/
theorem parseStatement_exact_stackIndirectY :
    DerivesInstruction " lda . B ( (1) , S ) , y".toList
      { mnemonic := "lda"
        size := some .byte
        operand := { mode := .stackIndirectY, value := .number 1 .none, second := none } } := by
  obtain ⟨i, hi, h⟩ := ((parseStatement_exact { levels := 3 } " lda . B ( (1) , S ) , y"
    (by decide +kernel)).1 (.instruction
      { mnemonic := "lda"
        size := some .byte
        operand := { mode := .stackIndirectY, value := .number 1 .none, second := none } })).mp
    (eq_ok_of_toOption (by decide +kernel))
  cases hi
  exact h

end Asm65816
