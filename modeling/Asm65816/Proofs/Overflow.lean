import Asm65816.Proofs.Statement.Instruction
import Asm65816.Proofs.Statement.Overflow

/-!
# Literals that are too great

A text that would be an expression but for the values of its literals is read if all of them fit,
and otherwise its first literal that does not is what is reported. The same holds of a statement,
with one exception: where the first address of a block move fits, the second one is left over.
-/

namespace Asm65816

open Rule Asm65816.Derivation

/-- **A literal that is too great is always reported**, the first one in the text if there are
several, at the digit that takes it over the greatest value. -/
theorem parseExpression_overflow (limit : NestingLimit) (text : String) (d : Spaced)
    (htext : d.text = text.toList) (hlevels : d.levels ≤ limit.levels) :
    ((∀ l ∈ d.literals [], l.overflows = false) → parseExpression limit text = .ok d.tree) ∧
    ((∃ l ∈ d.literals [], l.overflows = true) → ∃ l front rest,
      (d.literals []).find? Literal.overflows = some l ∧
        text.toList = front ++ rest ∧ l.OverflowsBefore rest ∧
        parseExpression limit text = .error
          { diagnosis := .overflow l.text
            position := some front.length
            source := some text }) := by
  constructor
  · intro hfit
    exact parseExpression_eq_ok_iff.mpr ⟨d, htext, rfl, hlevels, (d.fits_iff []).mpr hfit⟩
  · intro hsome
    obtain ⟨l, hl⟩ := Option.isSome_iff_exists.mp (List.find?_isSome.mpr hsome)
    obtain ⟨rest, hbefore, hparse⟩ := d.parse_of_overflow limit.levels (follows_nil d.after)
      noOperator_nil hl
    have hparse := hparse limit.levels hlevels
    rw [List.append_nil, htext] at hparse
    have hliteral : l.run.chars ++ l.behind <:+ text.toList := by
      have hin := (d.inOrder []).suffix (List.mem_of_find?_eq_some hl)
      rwa [List.append_nil, htext] at hin
    obtain ⟨front, hfront⟩ := hbefore.suffix.trans hliteral
    refine ⟨l, front, rest, hl, hfront.symm, hbefore, ?_⟩
    have hread : (limit.expression.whole.read text).result = _ :=
      read_result_of_error (parse_bind_of_error hparse)
    exact hread.trans (congrArg Except.error (report_of_append hfront.symm _))

/-- The literal stands on the right of an operator, in the second argument of a function. -/
theorem parseExpression_overflow_argument :
    ∃ (d : Spaced) (l : Literal), d.text = "f(1, 2+$1FFFFFFFFF)".toList ∧
      (d.literals []).find? Literal.overflows = some l ∧ l.text = "$1FFFFFFFFF" ∧
      l.OverflowsBefore "FF)".toList ∧
      parseExpression { levels := 2 } "f(1, 2+$1FFFFFFFFF)" = .error
        { diagnosis := .overflow l.text
          position := some 16
          source := some "f(1, 2+$1FFFFFFFFF)" } := by
  let first : Spaced := .decimal (.leading (c := '1') rfl [])
  let second : Spaced := .mk .space
    (.join (.term (.primary (.decimal (.leading (c := '2') rfl [])))) .none .add (.inl rfl) .none
      (.primary (.hexadecimal .none (.leading (c := '1') rfl "FFFFFFFFF".toList)))) .none
  let d : Spaced := .mk .none (.term (.primary
    (.call (.leading (c := 'f') rfl []) .none (.snoc (.one first) second)))) .none
  have htext : d.text = "f(1, 2+$1FFFFFFFFF)".toList := by decide
  have hsome : (d.literals []).any Literal.overflows = true := by decide
  obtain ⟨l, front, rest, hl, hfront, hbefore, hparse⟩ :=
    (parseExpression_overflow { levels := 2 } _ d htext (by decide)).2 (List.any_eq_true.mp hsome)
  -- the literal and the position are those of the actual report
  have hread : parseExpression { levels := 2 } "f(1, 2+$1FFFFFFFFF)" = .error
      { diagnosis := .overflow "$1FFFFFFFFF"
        position := some 16
        source := some "f(1, 2+$1FFFFFFFFF)" } := eq_error_of_error? (by decide +kernel)
  have hreport := hparse.symm.trans hread
  simp only [Except.error.injEq, Report.mk.injEq, Diagnosis.overflow.injEq,
    Option.some.injEq] at hreport
  obtain ⟨hliteral, hposition, -⟩ := hreport
  have hrest : "FF)".toList = rest := by
    have hdrop : (front ++ rest).drop front.length = rest := List.drop_left
    rw [← hdrop, ← hfront, hposition]
    decide
  exact ⟨d, l, htext, hl, hliteral, hrest ▸ hbefore, hposition ▸ hparse⟩

/-- **The first literal of a statement that is too great is what is reported**, if the expressions
leave a level. There is one exception: a second address of a block move is left over with its comma
where the first one fits. -/
theorem readStatement_overflow (limit : NestingLimit) (text : String) (d : Derivation.Instruction)
    (htext : d.text = text.toList) (hlevels : d.operand.pieces.levels < limit.levels) (l : Literal)
    (hl : (d.operand.pieces.literals []).find? Literal.overflows = some l) :
    (¬d.operand.FirstFits → ∃ front rest, text.toList = front ++ rest ∧ l.OverflowsBefore rest ∧
      (readStatement limit text).result = .error
        { diagnosis := .overflow l.text, position := some front.length, source := some text }) ∧
    (d.operand.FirstFits → ∃ e rest, d.operand.pieces.first? = some e ∧
      l.run.chars ++ l.behind <:+ rest ∧
      (readStatement limit text).result = .ok (.instruction
        { mnemonic := d.name.name
          size := d.suffix.map Suffix.size
          operand := { mode := .address, value := e.tree, second := none } }) ∧
      (readStatement limit text).rest = String.ofList (',' :: rest)) := by
  obtain ⟨m, hm⟩ := Nat.exists_eq_succ_of_ne_zero (Nat.pos_iff_ne_zero.mp limit.levels_pos)
  have hrule : limit.expression = nested limit.levels (m + 1) := congrArg (nested limit.levels) hm
  have hlevels : d.operand.pieces.levels ≤ m := by omega
  have hends := ends_nil d.operand.after
  have hinstruction := d.parse_text limit.levels (m + 1) []
  rw [List.append_nil, htext] at hinstruction
  constructor
  · intro hfirst
    obtain ⟨rest, hbefore, hoperand⟩ :=
      d.operand.parse_of_overflow limit.levels hlevels hends hl hfirst
    rw [parse_bind_of_error hoperand, ← hrule] at hinstruction
    have hliteral : l.run.chars ++ l.behind <:+ text.toList := by
      have hin := (d.operand.pieces.inOrder []).suffix (List.mem_of_find?_eq_some hl)
      have htail : d.operand.text <:+ d.text :=
        ⟨d.before.chars ++ (d.name.chars ++ (d.between.chars ++ suffixText d.suffix)), by
          simp only [Derivation.Instruction.text, List.append_assoc]⟩
      rw [List.append_nil] at hin
      exact htext ▸ hin.trans htail
    obtain ⟨front, hfront⟩ := hbefore.suffix.trans hliteral
    refine ⟨front, rest, hfront.symm, hbefore, ?_⟩
    have hread := read_result_of_error (parse_statement_eq_error_iff.mpr hinstruction)
    exact hread.trans (congrArg Except.error (report_of_append hfront.symm _))
  · intro hfirst
    obtain ⟨e, rest, he, hrest, hoperand⟩ := d.operand.parse_of_firstFits limit.levels
      (Nat.le_succ_of_le hlevels) hends hl hfirst
    rw [parse_bind_of_ok hoperand, parse_bind_of_ok (parse_record _ _), parse_pure,
      ← hrule] at hinstruction
    exact ⟨e, rest, he, hrest, read_eq_ok_iff.mpr (parse_statement_eq_ok_iff.mpr
      ⟨_, rfl, hinstruction⟩)⟩

/-- The literal stands where a group could begin, and as the operand of a mode all the same. -/
theorem readStatement_overflow_stackIndirectY :
    ∃ front rest, "LDA (4294967296,s),y".toList = front ++ rest ∧
      (readStatement { levels := 2 } "LDA (4294967296,s),y").result = .error
        { diagnosis := .overflow "4294967296"
          position := some front.length
          source := some "LDA (4294967296,s),y" } := by
  let run : DigitRun .decimal := .leading (c := '4') rfl "294967296".toList
  let d : Derivation.Instruction :=
    { before := .none
      name := .leading (c := 'L') (by decide) "DA".toList
      between := .space
      suffix := none
      operand :=
        { form := .stackIndirectY
          pieces := .token '(' (by decide) .none (.value (.decimal run)
            (.token ',' (by decide) .none (.token 's' (by decide) .none
              (.token ')' (by decide) .none (.token ',' (by decide) .none
                (.token 'y' (by decide) .none .nil))))))
          first_not_group := Pieces.not_isGroup_of_token }
      longest := fun _ _ _ => List.cons_ne_nil _ _ }
  have hl : (d.operand.pieces.literals []).find? Literal.overflows =
      some ⟨.decimal, run, ",s),y".toList⟩ := List.find?_cons_of_pos (by decide)
  obtain ⟨front, rest, htext, _, hread⟩ := (readStatement_overflow { levels := 2 }
    "LDA (4294967296,s),y" d (by decide) (by decide) _ hl).1 fun h => absurd h.1 (by decide)
  exact ⟨front, rest, htext, hread⟩

/-- The second address of a block move is left over, and nothing is reported. -/
theorem not_readStatement_overflow :
    ¬∀ (limit : NestingLimit) (text : String) (d : Derivation.Instruction), d.text = text.toList →
      d.operand.pieces.levels < limit.levels →
      (∃ l ∈ d.operand.pieces.literals [], l.overflows = true) →
      ∃ report literal, (readStatement limit text).result = .error report ∧
        report.diagnosis = .overflow literal := by
  intro h
  let first : DigitRun .decimal := .leading (c := '1') rfl []
  let second : DigitRun .decimal := .leading (c := '4') rfl "294967296".toList
  let d : Derivation.Instruction :=
    { before := .none
      name := .leading (c := 'M') (by decide) "VN".toList
      between := .space
      suffix := none
      operand :=
        { form := .move
          pieces := .value (.decimal first) (.token ',' (by decide) .none
            (.value (.decimal second) .nil))
          first_not_group := fun e he hgroup => by
            cases he
            obtain ⟨_, hinner⟩ := hgroup
            cases hinner }
      longest := fun _ _ _ => List.cons_ne_nil _ _ }
  obtain ⟨report, _, herror, _⟩ := h { levels := 2 } "MVN 1,4294967296" d (by decide) (by decide)
    (List.any_eq_true.mp (by decide))
  have hread : (readStatement { levels := 2 } "MVN 1,4294967296").result = .ok (.instruction
      { mnemonic := "MVN"
        size := none
        operand := { mode := .address, value := .number 1 .none, second := none } }) :=
    eq_ok_of_toOption (by decide +kernel)
  rw [hread] at herror
  cases herror

end Asm65816
