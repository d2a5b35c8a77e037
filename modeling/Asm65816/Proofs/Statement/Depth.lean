import Asm65816.Proofs.Statement.Parentheses
import Asm65816.Proofs.Statement.RoundTrip

/-!
# The levels of an operand

The parentheses and brackets of a mode are no levels of its expression: an instruction is read from
its text if its expressions are. There is one exception. The form `(e,s),y` begins like a group, and
before its turn comes the text is tried as `e,e`. There the expression stands one level further
down, and if that is below the limit the text fails by its nesting.
-/

namespace Asm65816

open Rule Asm65816.Derivation

namespace Rule

/-- The form `(e,s),y` is not read where its expression takes all the levels that there are. -/
theorem parse_operand_stack_tooDeep {e : Expression} {m : Nat} (h : e.Readable (m + 1))
    (hdepth : m ≤ e.depth) (limit : Nat) :
    ∃ f, (operand (nested limit (m + 1))).parse ('(' :: e.chars ++ [',', 's', ')', ',', 'y']) =
      .error f ∧ f.fault = .tooDeep limit := by
  have hend : ',' ∈ endSigns := by decide
  have hfollows := follows_endSign .none ['s', ')', ',', 'y'] hend
  have hno := noOperator_endSign ['s', ')', ',', 'y'] hend
  have he := h.parse limit hfollows hno
  obtain ⟨f, hf, hfault⟩ := h.canonical.tooDeep_append h.valid limit hdepth hfollows hno
  exact ⟨f, ((parse_operand_of_stack he rfl).2 f hf).1, hfault⟩

end Rule

/-- An expression that is read from its own text is readable. -/
theorem Expression.readable_of_parseExpression {limit : NestingLimit} {e : Expression}
    (h : parseExpression limit e.render = .ok e) : e.Readable limit.levels :=
  readable_of_derives (parseExpression_eq_ok_iff.mp h)

/-- An instruction fails by its nesting if its operand does. -/
theorem parseStatement_of_operand_tooDeep {limit : NestingLimit} {i : Instruction} {n : Nat}
    (h : i.Readable n) {f : Failure}
    (hf : (operand limit.expression).parse i.operand.chars = .error f)
    (hfault : f.fault = .tooDeep limit.levels) :
    ∃ report, parseStatement limit (String.ofList i.chars) = .error report ∧
      report.diagnosis = .tooDeep limit.levels := by
  obtain ⟨d, htext, hoperand, -⟩ := h.written .none
  have hparse := d.parse_text limit.levels limit.levels []
  simp only [htext, hoperand, Blanks.none, List.append_nil] at hparse
  have hinstruction := hparse.trans (parse_bind_of_error hf)
  rw [← String.toList_ofList (l := i.chars)] at hinstruction
  refine ⟨_, read_result_of_error (parse_bind_of_error
    (parse_statement_eq_error_iff.mpr hinstruction)), ?_⟩
  rw [Failure.report, hfault]
  rfl

/-- **An instruction whose expressions are read is read from its text**, in every mode but one: the
form `(e,s),y` needs a level more than its expression, and fails by its nesting without it. -/
theorem parseStatement_render (limit : NestingLimit) (i : Instruction) (form : OperandForm)
    (hvalid : i.Valid) (hname : IsName i.mnemonic) (hmode : i.operand.mode = form.mode)
    (hvalue : parseExpression limit i.operand.value.render = .ok i.operand.value)
    (hsecond : ∀ e, i.operand.second = some e → parseExpression limit e.render = .ok e) :
    ∃ text, (Statement.instruction i).render? = some text ∧
      ((form = .stackIndirectY → i.operand.value.nest < limit.levels) →
        parseStatement limit text = .ok (.instruction i)) ∧
      (form = .stackIndirectY → limit.levels ≤ i.operand.value.nest → ∃ report,
        parseStatement limit text = .error report ∧
          report.diagnosis = .tooDeep limit.levels) := by
  obtain ⟨-, hvalidValue, -, hmove⟩ := hvalid
  have hread := Expression.readable_of_parseExpression hvalue
  have hnest := hread.canonical.nest_eq hvalidValue
  -- it would be read with one level more
  have hdeeper : i.Readable (limit.levels + 1) := by
    refine ⟨hname, Operand.readable_of_parts hmode hmove (hread.mono ?_) fun e he => ?_⟩
    · cases form <;> first | exact Nat.le_refl _ | exact Nat.le_succ _
    · exact (Expression.readable_of_parseExpression (hsecond e he)).mono (Nat.le_succ _)
  refine ⟨String.ofList i.chars, rfl, fun hroom => ?_, fun hstack hdepth => ?_⟩
  · have hvalue : i.operand.value.Readable (form.levelsInside limit.levels) := by
      by_cases hstack : form = .stackIndirectY
      · have := hroom hstack
        subst hstack
        exact ⟨hread.valid, hread.canonical, by rw [OperandForm.levelsInside]; omega⟩
      · cases form <;> first | exact hread | exact absurd rfl hstack
    have hi : i.Readable limit.levels := ⟨hname, Operand.readable_of_parts hmode hmove hvalue
      fun e he => Expression.readable_of_parseExpression (hsecond e he)⟩
    exact hi.parseStatement
  · subst hstack
    obtain ⟨m, hm⟩ := Nat.exists_eq_succ_of_ne_zero (Nat.pos_iff_ne_zero.mp limit.levels_pos)
    rw [hm] at hread
    obtain ⟨f, hf, hfault⟩ := parse_operand_stack_tooDeep hread (by omega) limit.levels
    have hchars : i.operand.chars =
        '(' :: i.operand.value.chars ++ [',', 's', ')', ',', 'y'] := by
      rw [Operand.chars, hmode]
      rfl
    have hrule : limit.expression = nested limit.levels (m + 1) :=
      congrArg (nested limit.levels) hm
    rw [← hchars, ← hrule] at hf
    exact parseStatement_of_operand_tooDeep hdeeper hf hfault

/-- The expression takes both levels, and is read in parentheses that belong to the mode. -/
theorem parseStatement_render_product :
    let value : Expression :=
      .binary .mul (.binary .add (.reference (.named "a")) (.number 1 .none)) (.number 2 .none)
    let i (mode : Mode) : Instruction :=
      { mnemonic := "lda", size := some .byte, operand := { mode, value, second := none } }
    parseStatement { levels := 2 } "lda.b ((a + 1) * 2,x)" = .ok (.instruction (i .xIndirect)) ∧
      ∃ report, parseStatement { levels := 2 } "lda.b ((a + 1) * 2,s),y" = .error report ∧
        report.diagnosis = .tooDeep 2 := by
  intro value i
  have hvalid : ∀ mode, mode ≠ .move → (i mode).Valid := fun mode hmode =>
    ⟨(by decide : "lda" ≠ ""), .binary (.binary (.reference (.named (by decide)))
      (.number (by decide))) (.number (by decide)), nofun, by simp [i, hmode]⟩
  have hname : IsName "lda" := ⟨⟨'l', ['d', 'a'], by decide, by simp; decide⟩, by decide⟩
  have hvalue : parseExpression { levels := 2 } value.render = .ok value :=
    eq_ok_of_toOption (by decide +kernel)
  obtain ⟨text, hrender, hread, -⟩ := parseStatement_render { levels := 2 } (i .xIndirect)
    .xIndirect (hvalid _ nofun) hname rfl hvalue nofun
  obtain ⟨text', hrender', -, hfail⟩ := parseStatement_render { levels := 2 } (i .stackIndirectY)
    .stackIndirectY (hvalid _ nofun) hname rfl hvalue nofun
  have htext : (Statement.instruction (i .xIndirect)).render? = some "lda.b ((a + 1) * 2,x)" := by
    decide +kernel
  have htext' : (Statement.instruction (i .stackIndirectY)).render? =
      some "lda.b ((a + 1) * 2,s),y" := by
    decide +kernel
  obtain rfl := Option.some_inj.mp (hrender.symm.trans htext)
  obtain rfl := Option.some_inj.mp (hrender'.symm.trans htext')
  exact ⟨hread nofun, hfail rfl (by decide +kernel)⟩

/-- The limit is not the same for all modes. -/
theorem not_parseStatement_render :
    ¬∀ (limit : NestingLimit) (i : Instruction), i.Valid → IsName i.mnemonic →
      (∃ form : OperandForm, i.operand.mode = form.mode) →
      parseExpression limit i.operand.value.render = .ok i.operand.value →
      (∀ e, i.operand.second = some e → parseExpression limit e.render = .ok e) →
      ∃ text, (Statement.instruction i).render? = some text ∧
        parseStatement limit text = .ok (.instruction i) := by
  intro h
  let i : Instruction :=
    { mnemonic := "LDA"
      size := none
      operand := { mode := .stackIndirectY, value := .number 1 .none, second := none } }
  obtain ⟨text, hrender, hread⟩ := h { levels := 1 } i
    ⟨by decide, .number (by decide), nofun, by decide⟩
    ⟨⟨'L', ['D', 'A'], by decide, by simp; decide⟩, by decide⟩ ⟨.stackIndirectY, rfl⟩
    (eq_ok_of_toOption (by decide +kernel)) nofun
  have htext : (Statement.instruction i).render? = some "LDA (1,s),y" := by decide +kernel
  obtain rfl := Option.some_inj.mp (hrender.symm.trans htext)
  have hfail : parseStatement { levels := 1 } "LDA (1,s),y" = .error
      { diagnosis := .tooDeep 1, position := some 5, source := some "LDA (1,s),y" } :=
    eq_error_of_error? (by decide +kernel)
  rw [hread] at hfail
  cases hfail

end Asm65816
