import Asm65816.Proofs.Statement.Instruction

/-!
# Readings take all that they can

An expression is read as far as it goes. The blanks behind it belong to it, and an operator is left
over only if no operand stands behind it: an expression that began there would ask for another
character or for more text. Statements leave no blanks over either, so that a whole text is read
just if its beginning is read and nothing is left over.
-/

namespace Asm65816

open Rule

theorem Operator.exists_of_mem {c : Char} (h : c ∈ operatorSigns) :
    (∃ o, additive? c = some o) ∨ ∃ o, multiplicative? c = some o := by
  have hsigns : ∀ c ∈ operatorSigns,
      (additive? c).isSome = true ∨ (multiplicative? c).isSome = true :=
    forall_mem_of_all (by decide)
  exact (hsigns c h).imp Option.isSome_iff_exists.mp Option.isSome_iff_exists.mp

namespace Rule

/-! ## Behind an operator that is left over -/

section

variable {operator? : Char → Option Operator} {operand : Rule Expression} {e : Expression}
  {s t : List Char} {c : Char} {o : Operator}

/-- Where a chain leaves one of its operators over, its operand fails softly. -/
theorem exists_soft_behind_chain (h : (chain operator? operand).parse s = .ok (e, c :: t))
    (hc : operator? c = some o) (hb : Text.isBlank c = false) :
    ∃ f, operand.parse (Text.skipBlanks t) = .error f ∧ f.fault.isSoft = true := by
  have hnext : nextToken? operator? (c :: t) = some (o, Text.skipBlanks t) := by
    rw [nextToken?_cons hb, hc]
    rfl
  rcases (chain_ends h).2 with hnone | ⟨o', v, f, ho, hf, hsoft⟩
  · rw [hnext] at hnone
    cases hnone
  · rw [hnext] at ho
    cases ho
    exact ⟨f, hf, hsoft⟩

end

variable {limit n : Nat} {s t : List Char} {e : Expression}

theorem unspaced_of_parse_nested (h : (nested limit n).parse s = .ok (e, t)) : Unspaced t := by
  obtain ⟨_, _, _, _, _, ht⟩ := (Derivation.reads_nested limit n).derives h
  exact ht

/-- **No expression stands behind an operator that is left over.** -/
theorem exists_soft_behind_operator {c : Char}
    (h : (nested limit n).parse s = .ok (e, c :: t)) (hc : c ∈ operatorSigns) :
    ∃ f, (nested limit n).parse t = .error f ∧ f.fault.isSoft = true := by
  have hb := not_blank_of_operatorSign hc
  rw [← skipsBlanks_nested]
  cases n with
  | zero =>
    rw [parse_nested_zero] at h
    cases h
  | succ n =>
    rw [parse_nested_succ] at h ⊢
    rcases Operator.exists_of_mem hc with ⟨o, ho⟩ | ⟨o, ho⟩
    · -- the operator belongs to the sum, which has ended in front of it
      obtain ⟨f, hf, hsoft⟩ := exists_soft_behind_chain h ho hb
      exact ⟨f, parse_bind_of_error hf, hsoft⟩
    · -- it belongs to the last term of the sum
      obtain ⟨⟨u, x, hterm⟩, _⟩ := chain_ends h
      obtain ⟨f, hf, hsoft⟩ := exists_soft_behind_chain hterm ho hb
      exact ⟨f, parse_bind_of_error (parse_bind_of_error hf), hsoft⟩

/-! ## Behind a statement -/

theorem unspaced_of_parse_assignment {x : Statement}
    (h : (assignment (nested limit n)).parse s = .ok (x, t)) : Unspaced t := by
  obtain ⟨_, _, _, h⟩ := parse_bind_eq_ok_iff.mp h
  obtain ⟨_, _, _, h⟩ := parse_bind_eq_ok_iff.mp h
  obtain ⟨_, _, _, h⟩ := parse_bind_eq_ok_iff.mp h
  obtain ⟨_, _, hvalue, h⟩ := parse_bind_eq_ok_iff.mp h
  obtain ⟨_, rfl⟩ := eq_of_parse_pure h
  exact unspaced_of_parse_nested hvalue

theorem unspaced_of_parse_operand {o : Operand}
    (h : (operand (nested limit n)).parse s = .ok (o, t)) : Unspaced t := by
  obtain ⟨form, _, value, second, hparts, _⟩ := parse_operand_eq_ok_iff.mp h
  obtain ⟨hsequence, _⟩ := parse_operandExpressions_eq_ok_iff.mp hparts
  obtain ⟨_, _, _, _, _, _, ht⟩ := (Derivation.reads_nested limit n).sequence hsequence
  refine ht (.inl ?_)
  cases form <;> exact List.cons_ne_nil _ _

theorem unspaced_of_parse_instruction {i : Instruction}
    (h : (instruction (nested limit n)).parse s = .ok (i, t)) : Unspaced t := by
  obtain ⟨_, _, _, h⟩ := parse_bind_eq_ok_iff.mp h
  obtain ⟨_, _, _, h⟩ := parse_bind_eq_ok_iff.mp h
  obtain ⟨_, _, _, h⟩ := parse_bind_eq_ok_iff.mp h
  obtain ⟨_, _, hoperand, h⟩ := parse_bind_eq_ok_iff.mp h
  rw [parse_bind_of_ok (parse_record _ _)] at h
  obtain ⟨_, rfl⟩ := eq_of_parse_pure h
  exact unspaced_of_parse_operand hoperand

theorem unspaced_of_parse_statement {x : Statement}
    (h : (statement (nested limit n)).parse s = .ok (x, t)) : Unspaced t := by
  obtain ⟨_, _, hi⟩ := parse_statement_eq_ok_iff.mp h
  exact unspaced_of_parse_instruction hi

end Rule

/-! ## Whole texts -/

/-- What a text is read as if it must be read as a whole, by what its beginning is read as. -/
structure Reading.DecidesWhole {α : Type} (reading : Reading α) (text : String)
    (whole : Except Report α) : Prop where
  /-- The whole text is read just if nothing is left over. -/
  ok_iff : ∀ a, whole = .ok a ↔ reading.result = .ok a ∧ reading.rest = ""
  /-- What is left over is unexpected where it begins. -/
  trailing : ∀ a, reading.result = .ok a → reading.rest ≠ "" → ∃ c,
    reading.rest.toList.head? = some c ∧ whole = .error
      { diagnosis := .unexpected ("unexpected '" ++ c.toString ++ "'") none
        position := some (text.length - reading.rest.length)
        source := some text }
  /-- A failure is the same. -/
  error : ∀ report, reading.result = .error report → whole = .error report

/-- Behind what is read, another character than a blank is unexpected. -/
theorem Rule.parse_whole_trailing {α : Type} {r : Rule α} {s t : List Char} {a : α} {c : Char}
    (h : r.parse s = .ok (a, c :: t)) (hb : Text.isBlank c = false) :
    r.whole.parse s = .error ⟨.trailing c, c :: t⟩ := by
  have hend : endOfText.parse (c :: t) = .error ⟨.trailing c, c :: t⟩ := by
    rw [endOfText, parse_bind_of_ok (parse_blanks _), (unspaced_cons t hb).skipBlanks_eq,
      parse_bind_of_ok (parse_peek _), List.head?_cons, parse_fail]
  rw [whole, parse_bind_of_ok h, parse_bind_of_error hend]

/-- **A rule that leaves no blanks over decides what a whole text is read as.** -/
theorem Rule.decidesWhole {α : Type} {r : Rule α} {text : String}
    (h : ∀ a t, r.parse text.toList = .ok (a, t) → Unspaced t) :
    (r.read text).DecidesWhole text (r.whole.read text).result := by
  refine ⟨fun a => ?_, fun a ha hne => ?_, fun report hreport => ?_⟩
  · rw [read_result_eq_ok_iff, ← String.ofList_nil, read_eq_ok_iff]
    constructor
    · rintro ⟨_, hwhole⟩
      obtain ⟨u, hu, hskip, rfl⟩ := parse_whole_eq_ok_iff.mp hwhole
      rwa [(h a u hu).skipBlanks_eq.symm.trans hskip] at hu
    · intro hnil
      exact ⟨[], parse_whole_eq_ok_iff.mpr ⟨[], hnil, rfl, rfl⟩⟩
  · obtain ⟨t, ht⟩ := read_result_eq_ok_iff.mp ha
    have hrest := (read_eq_ok_iff.mpr ht).2
    rw [hrest] at hne ⊢
    cases t with
    | nil => exact absurd String.ofList_nil hne
    | cons c t =>
      have hwhole := parse_whole_trailing ht (h a _ ht c rfl)
      refine ⟨c, by rw [String.toList_ofList, List.head?_cons], ?_⟩
      rw [read_result_of_error hwhole, Failure.report, String.length_ofList]
      rfl
  · obtain ⟨f, hf, rfl⟩ := exists_failure_of_read hreport
    exact read_result_of_error (parse_bind_of_error hf)

/-- **A reading takes all that it can.** No expression stands behind an operator that is left over,
nor are blanks left over; so a whole text is read as its beginning is read, just if nothing is left
over. -/
theorem read_maximal (limit : NestingLimit) (text : String) :
    (∀ e, (readExpression limit text).result = .ok e →
      Unspaced (readExpression limit text).rest.toList ∧
        ∀ c t, (readExpression limit text).rest.toList = c :: t → c ∈ operatorSigns →
          ∃ report, (readExpression limit (String.ofList t)).result = .error report ∧
            report.diagnosis.IsSoft) ∧
    (∀ x, (readAssignment limit text).result = .ok x →
      Unspaced (readAssignment limit text).rest.toList) ∧
    (∀ i, (readInstruction limit text).result = .ok i →
      Unspaced (readInstruction limit text).rest.toList) ∧
    (∀ x, (readStatement limit text).result = .ok x →
      Unspaced (readStatement limit text).rest.toList) ∧
    (readExpression limit text).DecidesWhole text (parseExpression limit text) ∧
    (readStatement limit text).DecidesWhole text (parseStatement limit text) := by
  refine ⟨fun e he => ?_, fun x hx => ?_, fun i hi => ?_, fun x hx => ?_, ?_, ?_⟩
  · obtain ⟨t, ht, hrest⟩ := exists_parse_of_read he
    rw [readExpression, hrest]
    refine ⟨unspaced_of_parse_nested ht, ?_⟩
    rintro c t rfl hc
    obtain ⟨f, hf, hsoft⟩ := exists_soft_behind_operator ht hc
    rw [← String.toList_ofList (l := t)] at hf
    exact ⟨_, read_result_of_error hf, Fault.isSoft_iff.mp hsoft⟩
  · obtain ⟨t, ht, hrest⟩ := exists_parse_of_read hx
    rw [readAssignment, hrest]
    exact unspaced_of_parse_assignment ht
  · obtain ⟨t, ht, hrest⟩ := exists_parse_of_read hi
    rw [readInstruction, hrest]
    exact unspaced_of_parse_instruction ht
  · obtain ⟨t, ht, hrest⟩ := exists_parse_of_read hx
    rw [readStatement, hrest]
    exact unspaced_of_parse_statement ht
  · exact decidesWhole fun _ _ => unspaced_of_parse_nested
  · exact decidesWhole fun _ _ => unspaced_of_parse_statement

/-- The product ends in front of the operator of the sum, and no operand stands behind that. -/
theorem read_maximal_operator :
    (readExpression default "a*2 +/ 3").rest = "+/ 3" ∧
      (∃ report, (readExpression default (String.ofList "/ 3".toList)).result = .error report ∧
        report.diagnosis.IsSoft) ∧
      parseExpression default "a*2 +/ 3" = .error
        { diagnosis := .unexpected "unexpected '+'" none
          position := some 4
          source := some "a*2 +/ 3" } := by
  have hread : (readExpression default "a*2 +/ 3").result =
      .ok (.binary .mul (.reference (.named "a")) (.number 2 .none)) :=
    eq_ok_of_toOption (by decide +kernel)
  have hrest : (readExpression default "a*2 +/ 3").rest = "+/ 3" := by decide +kernel
  obtain ⟨hexpression, -, -, -, hwhole, -⟩ := read_maximal default "a*2 +/ 3"
  refine ⟨hrest, (hexpression _ hread).2 '+' "/ 3".toList ?_ (by decide), ?_⟩
  · rw [hrest]
    decide
  · obtain ⟨c, hc, htrailing⟩ := hwhole.trailing _ hread (by rw [hrest]; decide)
    rw [hrest] at hc htrailing
    cases hc
    exact htrailing

end Asm65816
