import Asm65816.Proofs.Diagnosis
import Asm65816.Proofs.Session
import Asm65816.Proofs.Statement.Pieces

/-!
# The hint that nobody sees

The form `(e)` refuses an operator behind it, and gives a hint with its failure. Nobody who reads a
text ever sees that failure. Where the form fails so, the form `(e),y` has been tried before it and
has missed its comma in the very same place, and of two failures in one place the first counts. Only
who asks for the form `(e)` itself gets the hint.
-/

namespace Asm65816

open Rule

/-! ## What is said without a hint -/

/-- A diagnosis that is not that of an operator behind `(e)`, and that gives no hint if the text is
not of the expected form. -/
structure Diagnosis.Plain (d : Diagnosis) : Prop where
  /-- There is no hint on what is required. -/
  hint_eq_none : d.IsSoft → d.hint = none
  /-- No operator is blamed. -/
  message_ne (c : Char) : d.message ≠ (Fault.operatorAfterIndirect c).message

/-- What begins with a character still does so if more is said. -/
theorem head?_toList_append {lead : String} {c : Char} (h : lead.toList.head? = some c)
    (s : String) : (lead ++ s).toList.head? = some c := by
  rw [String.toList_append, List.head?_append, h, Option.some_or]

/-- Messages about other faults begin with another letter than that about an operator. -/
theorem Fault.exists_head_message {fault : Fault} (h : ∀ c, fault ≠ .operatorAfterIndirect c) :
    ∃ c, fault.message.toList.head? = some c ∧ c ≠ 'o' := by
  cases fault with
  | operatorAfterIndirect c => exact absurd rfl (h c)
  | missing what found =>
    have hhead : ("expected " ++ what).toList.head? = some 'e' := head?_toList_append rfl what
    refine ⟨'e', ?_, by decide⟩
    cases found with
    | none => exact head?_toList_append hhead _
    | some d => exact head?_toList_append (head?_toList_append (head?_toList_append hhead _) _) _
  | trailing d => exact ⟨'u', head?_toList_append (head?_toList_append rfl _) _, by decide⟩
  | overflow literal => exact ⟨'n', head?_toList_append (head?_toList_append rfl _) _, by decide⟩
  | tooDeep limit => exact ⟨'e', head?_toList_append (head?_toList_append rfl _) _, by decide⟩

/-- **All faults but the operator behind `(e)` are plain.** -/
theorem Fault.plain {fault : Fault} (h : ∀ c, fault ≠ .operatorAfterIndirect c) :
    fault.diagnosis.Plain where
  hint_eq_none hsoft := by
    cases fault with
    | operatorAfterIndirect c => exact absurd rfl (h c)
    | missing what found => cases found <;> rfl
    | trailing d => rfl
    | overflow _ | tooDeep _ => cases Fault.isSoft_iff.mpr hsoft
  message_ne c heq := by
    obtain ⟨d, hhead, hd⟩ := exists_head_message h
    have hoperator : (operatorAfterIndirect c).message.toList.head? = some 'o' :=
      head?_toList_append (head?_toList_append rfl _) _
    rw [show fault.message = (operatorAfterIndirect c).message from heq, hoperator] at hhead
    exact hd (Option.some.inj hhead).symm

/-- An apt failure is about something else. -/
theorem Failure.Apt.plain {f : Failure} (h : f.Apt) : f.fault.diagnosis.Plain := by
  refine Fault.plain fun c hc => ?_
  cases h <;> cases hc

namespace Rule

variable {inner : Rule Expression} {s : List Char}

/-- Behind parentheses there is an operator, which the form `(e)` refuses. -/
theorem parse_indirect_of_group {value : Expression} {c : Char} {u : List Char}
    (h : (group inner).parse s = .ok (value, c :: u)) (hc : c ∈ operatorSigns) :
    (operandForm inner .indirect).parse s = .error ⟨.operatorAfterIndirect c, c :: u⟩ := by
  obtain ⟨_, t, hsign, h⟩ := parse_bind_eq_ok_iff.mp h
  obtain ⟨_, v, hinner, h⟩ := parse_bind_eq_ok_iff.mp h
  obtain ⟨_, w, hclosing, h⟩ := parse_bind_eq_ok_iff.mp h
  obtain ⟨rfl, rfl⟩ := eq_of_parse_pure h
  have hopen : (openParenthesis inner).parse s = .ok (_, v) :=
    parse_bind_eq_ok_iff.mpr ⟨_, t, hsign, hinner⟩
  -- what is said to be missing does not matter where it is there
  have hclose : closeParenthesis.parse v = .ok ((), c :: u) :=
    parse_bind_eq_ok_iff.mpr ⟨_, _, parse_expect_eq_ok_iff.mpr (parse_expect_eq_ok_iff.mp hclosing),
      rfl⟩
  refine parse_bind_of_error ?_
  rw [operandExpressions, parse_bind_of_ok hopen, parse_bind_of_ok hclose,
    parse_bind_of_error (parse_noOperator_of_mem hc)]

/-- The failures of the grammar are plain where they arise. -/
theorem elementary_plain : Elementary fun f => f.fault.diagnosis.Plain where
  missing _ _ _ := Fault.plain fun _ => nofun
  overflow _ _ _ _ _ _ _ := Fault.plain fun _ => nofun
  tooDeep _ _ _ := Fault.plain fun _ => nofun

/-- Where the form `(e)` blames an operator, the form `(e),y` has failed in the same place. -/
theorem parse_indirectY_of_operator (limit n : Nat) {f : Failure}
    (h : (operandForm (nested limit n) .indirect).parse s = .error f)
    (hblames : ¬f.fault.diagnosis.Plain) :
    ∃ g, (operandForm (nested limit n) .indirectY).parse s = .error g ∧ g.rest = f.rest ∧
      g.fault.diagnosis.Plain := by
  have hplain : (operandForm (nested limit n) .indirectY).Fails (·.fault.diagnosis.Plain) :=
    elementary_plain.operandForm (elementary_plain.nested limit n) (by decide)
  rcases parse_indirectY_of_indirect h with hsame | ⟨d, u, rfl, hcomma⟩
  · exact absurd (hplain hsame) hblames
  · exact ⟨_, hcomma, rfl, hplain hcomma⟩

end Rule

/-! ## Readings and calls -/

/-- What becomes of the hint on an operator behind the form `(e)`. -/
structure NestingLimit.HidesHint (limit : NestingLimit) : Prop where
  /-- No reading of any kind fails with it. -/
  reading {α : Type} (entry : Entry α) {text : String} {report : Report} :
    (entry.read limit text).result = .error report → report.diagnosis.Plain
  /-- No choice between the forms of an operand fails with it. -/
  operand (s : Session) {report : Report} :
    (s.call limit .operand).1 = .error report → report.diagnosis.Plain
  /-- The form `(e)` itself gives the hint wherever an operator stands behind parentheses. -/
  raised (s : Session) {value : Expression} {c : Char} {t : List Char} :
    (s.call limit .group).1 = .ok value → (s.call limit .group).2.rest = c :: t →
      c ∈ operatorSigns →
      (s.call limit (.operandForm .indirect)).1 = .error
        { diagnosis := .unexpected ("operator '" ++ c.toString ++ "' after indirect operand")
            (some "a parenthesized expression followed by an operator is an address")
          position := some (s.call limit .group).2.position
          source := some (String.ofList s.source) }
  /-- Whenever it does so, the form `(e),y`, which is tried before it, fails in the same place and
  for a plain reason. -/
  shadowed (s : Session) {report : Report} :
    (s.call limit (.operandForm .indirect)).1 = .error report → ¬report.diagnosis.Plain →
      ∃ earlier, (s.call limit (.operandForm .indirectY)).1 = .error earlier ∧
        earlier.position = report.position ∧ earlier.diagnosis.Plain

/-- **The hint on an operator behind the form `(e)` never comes out of the grammar.** -/
theorem NestingLimit.hidesHint (limit : NestingLimit) : limit.HidesHint where
  reading entry := by
    intro text report h
    obtain ⟨f, hf, rfl⟩ := exists_failure_of_read h
    exact (entry.fails_rule limit hf).1.plain
  operand s := by
    intro report h
    obtain ⟨f, hf, rfl⟩ := Session.exists_failure_of_step h
    exact elementary_plain.operand (elementary_plain.nested _ _) (parse_eq_error_iff.mpr hf)
  raised s := by
    intro value c t hvalue hrest hc
    have hgroup : (group limit.expression).parse s.rest = .ok (value, c :: t) :=
      hrest ▸ Session.parse_of_step hvalue
    have hposition : (s.call limit .group).2.position = s.source.length - (c :: t).length :=
      congrArg (s.source.length - ·.length) hrest
    refine (Session.step_of_error (parse_indirect_of_group hgroup hc)).trans ?_
    rw [Failure.report, String.length_ofList, hposition]
    rfl
  shadowed s := by
    intro report h hblames
    obtain ⟨f, hf, rfl⟩ := Session.exists_failure_of_step h
    obtain ⟨g, hg, hrest, hplain⟩ :=
      parse_indirectY_of_operator limit.levels limit.levels (parse_eq_error_iff.mpr hf) hblames
    refine ⟨_, Session.step_of_error hg, ?_, hplain⟩
    rw [Failure.report, hrest]
    rfl

/-- The form `(e)` gives the hint on a text of its own. Behind a statement the operator is left
over. -/
theorem NestingLimit.hidesHint_plus :
    ((Session.start "($19)+2").call default (.operandForm .indirect)).1 = .error
        { diagnosis := .unexpected "operator '+' after indirect operand"
            (some "a parenthesized expression followed by an operator is an address")
          position := some 5
          source := some "($19)+2" } ∧
      (∃ earlier, ((Session.start "($19)+2").call default (.operandForm .indirectY)).1 =
        .error earlier ∧ earlier.position = some 5 ∧ earlier.diagnosis.Plain) ∧
      (Entry.wholeStatement.read default "LDA ($19)+").result = .error
        { diagnosis := .unexpected "unexpected '+'" none
          position := some 9
          source := some "LDA ($19)+" } ∧
      (Diagnosis.unexpected "unexpected '+'" none).Plain := by
  have hgroup : ((Session.start "($19)+2").call default .group).1 = .ok (.number 0x19 .oneByte) :=
    eq_ok_of_toOption (by decide +kernel)
  have hrest : ((Session.start "($19)+2").call default .group).2.rest = ['+', '2'] := by
    decide +kernel
  have hraised := (hidesHint default).raised (Session.start "($19)+2") hgroup hrest (by decide)
  have hposition : ((Session.start "($19)+2").call default .group).2.position = 5 := by
    decide +kernel
  rw [hposition] at hraised
  have hread : (Entry.wholeStatement.read default "LDA ($19)+").result = .error
      { diagnosis := .unexpected "unexpected '+'" none
        position := some 9
        source := some "LDA ($19)+" } := eq_error_of_error? (by decide +kernel)
  refine ⟨hraised, ?_, hread, (hidesHint default).reading .wholeStatement hread⟩
  refine (hidesHint default).shadowed (Session.start "($19)+2") hraised fun hplain => ?_
  exact hplain.message_ne '+' rfl

end Asm65816
