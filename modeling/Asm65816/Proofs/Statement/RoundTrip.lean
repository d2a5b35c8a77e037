import Asm65816.Proofs.Statement.Instruction
import Asm65816.Reading

/-!
# Reading, writing and reading again

What was read may be written and read again within the same limit, and comes out the same. Writing
leaves out blanks and needless parentheses, so it never needs more levels than the text had; and the
form of an operand stays the one in which it was read.
-/

namespace Asm65816

open Rule

namespace Rule

/-! ## Assignments -/

theorem gives_assignment (limit n : Nat) :
    (assignment (nested limit n)).Gives fun x =>
      ∃ name value, x = .assignment name value ∧ IsName name ∧ value.Readable n := by
  have hvalue : (nested limit n).Gives (·.Readable n) := fun _ _ _ => Expression.readable_of_parse
  exact gives_then fun _ => gives_identifier.bind fun name hname => gives_then fun _ =>
    hvalue.bind fun value hv => gives_pure ⟨name, value, rfl, hname, hv⟩

/-- **The text of an assignment is read as that assignment.** -/
theorem parse_assignment {n : Nat} {name : String} {value : Expression} (hname : IsName name)
    (hvalue : value.Readable n) (limit : Nat) {w : Blanks} {t : List Char} (hfollows : Follows w t)
    (ht : NoOperator t) :
    (assignment (nested limit n)).parse
        (name.toList ++ ' ' :: '=' :: ' ' :: (value.chars ++ (w.chars ++ t))) =
      .ok (.assignment name value, t) := by
  obtain ⟨word, hword, rfl⟩ := Expression.IsName.exists_word hname
  have hsign : (expect ['='] "'='").parse (' ' :: '=' :: ' ' :: (value.chars ++ (w.chars ++ t))) =
      .ok ('=', Text.skipBlanks (' ' :: (value.chars ++ (w.chars ++ t)))) := by
    rw [← skipsBlanks_expect, Text.skipBlanks_cons_of_blank (by decide),
      Text.skipBlanks_cons_of_not_blank (by decide)]
    exact parse_expect_sign (by decide)
  have hexpression := (skipsBlanks_nested limit n (' ' :: (value.chars ++ (w.chars ++ t)))).trans
    ((skipsBlanks_nested limit n).parse_append .space (value.chars ++ (w.chars ++ t)))
  rw [assignment, ← hword]
  refine (parse_blanks_identifier _ word (w := .space) fun _ _ _ => List.cons_ne_nil _ _).trans ?_
  refine (parse_bind_of_ok hsign).trans ?_
  refine (parse_bind_of_ok (hexpression.trans (hvalue.parse limit hfollows ht))).trans ?_
  rw [parse_pure]

end Rule

/-! ## Reading again -/

variable {limit : NestingLimit} {text : String}

theorem parseExpression_again {e : Expression} (h : parseExpression limit text = .ok e) :
    parseExpression limit e.render = .ok e := by
  rw [parseExpression_eq_ok_iff] at h ⊢
  rw [Expression.toList_render]
  exact (Expression.readable_of_derives h).derives

theorem Instruction.Readable.parseStatement {i : Instruction} (h : i.Readable limit.levels) :
    parseStatement limit (String.ofList i.chars) = .ok (.instruction i) := by
  refine read_result_eq_ok_iff.mpr ⟨[], parse_whole_eq_ok_iff.mpr ⟨[], ?_, rfl, rfl⟩⟩
  rw [String.toList_ofList]
  exact parse_statement_eq_ok_iff.mpr ⟨i, rfl, h.parse_chars limit.levels⟩

theorem parseStatement_again {x : Statement} (h : parseStatement limit text = .ok x) :
    ∃ written, x.render? = some written ∧ parseStatement limit written = .ok x := by
  obtain ⟨t, h⟩ := read_result_eq_ok_iff.mp h
  obtain ⟨u, h, _, _⟩ := parse_whole_eq_ok_iff.mp h
  obtain ⟨i, rfl, hi⟩ := parse_statement_eq_ok_iff.mp h
  exact ⟨_, rfl, (gives_instruction limit.levels limit.levels hi).parseStatement⟩

theorem readAssignment_again {x : Statement} (h : (readAssignment limit text).result = .ok x) :
    ∃ written, x.render? = some written ∧ (readAssignment limit written).result = .ok x ∧
      (readAssignment limit written).rest = "" := by
  obtain ⟨t, h⟩ := read_result_eq_ok_iff.mp h
  obtain ⟨name, value, rfl, hname, hvalue⟩ := gives_assignment limit.levels limit.levels h
  have hparse := parse_assignment hname hvalue limit.levels (follows_nil .none) noOperator_nil
  simp only [Blanks.none, List.append_nil] at hparse
  refine ⟨_, rfl, (read_eq_ok_iff (t := [])).mpr ?_⟩
  rw [String.toList_ofList, List.append_assoc]
  exact hparse

/-- **What was read is written so that it is read again**, within the same limit and as the same
tree. -/
theorem read_again (limit : NestingLimit) (text : String) :
    (∀ e, parseExpression limit text = .ok e → parseExpression limit e.render = .ok e) ∧
      (∀ x, parseStatement limit text = .ok x →
        ∃ written, x.render? = some written ∧ parseStatement limit written = .ok x) ∧
      ∀ x, (readAssignment limit text).result = .ok x →
        ∃ written, x.render? = some written ∧ (readAssignment limit written).result = .ok x ∧
          (readAssignment limit written).rest = "" :=
  ⟨fun _ => parseExpression_again, fun _ => parseStatement_again, fun _ => readAssignment_again⟩

/-- An operand that begins like a group keeps its form. -/
theorem read_again_stackIndirectY :
    ∃ written,
      (Statement.instruction
        { mnemonic := "lda"
          size := some .byte
          operand :=
            { mode := .stackIndirectY
              value := .binary .mul (.number 2 .none) (.reference (.named "x"))
              second := none } }).render? = some written ∧
      parseStatement { levels := 3 } written = .ok (.instruction
        { mnemonic := "lda"
          size := some .byte
          operand :=
            { mode := .stackIndirectY
              value := .binary .mul (.number 2 .none) (.reference (.named "x"))
              second := none } }) :=
  (read_again { levels := 3 } " lda . B ( (2)*x , S ) , Y").2.1 _
    (eq_ok_of_toOption (by decide +kernel))

end Asm65816
