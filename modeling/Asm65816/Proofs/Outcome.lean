import Asm65816.Proofs.Diagnosis
import Asm65816.Proofs.Rebuild
import Asm65816.Proofs.Session
import Asm65816.Proofs.Statement.Instruction

/-!
# What comes of a reading

A reading gives a tree, or a report that says why there is none: another character was required, the
text ends too early, a literal is too great, or expressions nest too deep. There is nothing else.
The trees need no check any more. Whatever part of the grammar is applied, and wherever, what it
gives may be part of a tree, so that the constructors that check their parts would build it just the
same.
-/

namespace Asm65816

open Rule

/-! ## What the rules give -/

namespace Rule

theorem gives_name : identifier.Gives (· ≠ "") := by
  intro s t name h
  obtain ⟨word, rfl⟩ := gives_identifier h
  exact word.name_ne_empty

theorem gives_digits (radix : Radix) (what : String) (lead : List Char) :
    (digits radix what lead).Gives fun x => x.1 ≠ [] ∧ x.2 ≤ maxNumber := by
  rintro s t ⟨chars, value⟩ h
  obtain ⟨run, _, rfl, _, hle, _⟩ := exists_run_of_parse_digits h
  exact ⟨run.ne_nil, hle⟩

theorem gives_decimal : decimal.Gives Expression.Valid :=
  gives_then fun _ => (gives_digits _ _ _).bind fun _ h => gives_pure (.number h.2)

theorem gives_hexadecimal : hexadecimal.Gives Expression.Valid :=
  gives_then fun _ => (gives_digits _ _ _).bind fun _ h => gives_pure (.number h.2)

section

variable {inner : Rule Expression} (h : inner.Gives Expression.Valid)

include h

theorem Gives.valid_chain (operator? : Char → Option Operator) :
    (Rule.chain operator? inner).Gives Expression.Valid := by
  refine h.chain.mono fun e he => ?_
  induction he with
  | operand he => exact he
  | binary _ hright ih => exact .binary ih hright

theorem Gives.valid_group : (group inner).Gives Expression.Valid :=
  gives_then fun _ => h.bind fun _ he => gives_then fun _ => gives_pure he

theorem Gives.valid_arguments : (arguments inner).Gives fun es => ∀ e ∈ es, e.Valid := by
  refine gives_then fun close => ?_
  cases close with
  | some _ => exact gives_pure (by simp)
  | none =>
    refine h.bind fun first hfirst => Gives.bind (P := fun es => ∀ e ∈ es, e.Valid) ?_ ?_
    · refine Gives.follow (fun _ earlier hearlier => h.bind fun e he => gives_pure ?_) ?_
      · intro es hes
        cases hes
        simpa using ⟨he, hearlier⟩
      · simpa using hfirst
    · intro reversed hreversed
      exact gives_then fun _ => gives_pure (by simpa using hreversed)

theorem Gives.valid_name : (name inner).Gives Expression.Valid := by
  refine gives_then fun _ => gives_name.bind fun identifier hname => gives_then fun opening => ?_
  cases opening with
  | some _ => exact h.valid_arguments.bind fun _ hes => gives_pure (.call hname hes)
  | none => exact gives_then fun _ => gives_pure (.reference (.named hname))

theorem Gives.valid_primary : (primary inner).Gives Expression.Valid := by
  refine gives_then fun _ => gives_then fun c? => ?_
  split
  · refine Gives.firstOf fun b hb => ?_
    obtain ⟨form, _, rfl⟩ := List.mem_map.mp hb
    cases form with
    | group => exact h.valid_group
    | decimal => exact gives_decimal
    | hexadecimal => exact gives_hexadecimal
    | name => exact h.valid_name
  · intro s t e he
    cases he

theorem Gives.valid_operandForm (form : OperandForm) :
    (operandForm inner form).Gives Operand.Valid := by
  by_cases hform : form = .move
  · subst hform
    refine (gives_move h).bind fun x hx => gives_pure ?_
    obtain ⟨hvalue, e, he, hsecond⟩ := hx
    refine ⟨hvalue, fun e' he' => ?_, by simp [OperandForm.mode, he]⟩
    dsimp only at he'
    rw [he] at he'
    cases he'
    exact hsecond
  · refine (gives_operandExpressions h hform).bind fun x hx => gives_pure ?_
    obtain ⟨hvalue, hsecond⟩ := hx
    refine ⟨hvalue, fun e he => ?_, ?_⟩
    · dsimp only at he
      rw [hsecond] at he
      cases he
    · simp only [hsecond, Option.isSome_none, Bool.false_eq_true, iff_false]
      exact fun hmode => hform (OperandForm.mode_injective hmode)

theorem Gives.valid_operand : (operand inner).Gives Operand.Valid := by
  refine Gives.firstOf fun b hb => ?_
  obtain ⟨form, _, rfl⟩ := List.mem_map.mp hb
  exact h.valid_operandForm form

theorem Gives.valid_instruction : (instruction inner).Gives Instruction.Valid :=
  gives_then fun _ => gives_name.bind fun _ hname => gives_then fun _ =>
    h.valid_operand.bind fun _ ho => gives_then fun _ => gives_pure ⟨hname, ho⟩

theorem Gives.valid_assignment : (assignment inner).Gives Statement.Valid :=
  gives_then fun _ => gives_name.bind fun _ hname => gives_then fun _ =>
    h.bind fun _ he => gives_pure (.assignment hname he)

theorem Gives.valid_statement : (statement inner).Gives Statement.Valid := by
  refine gives_then fun _ => Gives.firstOf fun b hb => ?_
  obtain rfl := List.mem_singleton.mp hb
  exact h.valid_instruction.bind fun _ hi => gives_pure (.instruction hi)

end

/-- **An expression that is read may be part of a tree.** -/
theorem gives_nested (limit n : Nat) : (nested limit n).Gives Expression.Valid := by
  induction n with
  | zero =>
    intro s t e h
    cases h
  | succ n ih => exact gives_then fun _ => (ih.valid_primary.valid_chain _).valid_chain _

end Rule

/-! ## What a call gives -/

/-- What is read, as a node. -/
def Entry.node {α : Type} : Entry α → α → Node
  | identifier, n => .name n
  | label, l => .label l
  | expression, e | wholeExpression, e => .expression e
  | instruction, i => .statement (.instruction i)
  | assignment, s | statement, s | wholeStatement, s => .statement s

theorem Entry.gives_valid {α : Type} (entry : Entry α) (limit : NestingLimit) :
    (entry.rule limit).Gives fun v => (entry.node v).Valid := by
  have hexpression : limit.expression.Gives Expression.Valid := gives_nested _ _
  cases entry with
  | identifier => exact gives_name
  | label => exact gives_name.bind fun _ hname => gives_pure (.named hname)
  | expression => exact hexpression
  | assignment => exact hexpression.valid_assignment
  | instruction => exact hexpression.valid_instruction.mono fun _ hi => .instruction hi
  | statement => exact hexpression.valid_statement
  | wholeExpression => exact hexpression.bind fun _ he => gives_then fun _ => gives_pure he
  | wholeStatement =>
    exact hexpression.valid_statement.bind fun _ hs => gives_then fun _ => gives_pure hs

namespace Method

/-- What a method gives may be part of a tree, or is of no account for one. -/
def Sound : {α : Type} → Method α → α → Prop
  | _, entry e, v => (e.node v).Valid
  | _, term, e | _, primary, e | _, group, e | _, decimal, e | _, hexadecimal, e | _, name, e =>
    e.Valid
  | _, digits _ _ _, x => x.1 ≠ [] ∧ x.2 ≤ maxNumber
  | _, arguments, es => ∀ e ∈ es, e.Valid
  | _, operand, o | _, operandForm _, o => o.Valid
  | _, chain _ m, e => Chained m.Sound e
  | _, choice _ _ method, v => ∃ i, (method i).Sound v
  | _, size, _ | _, blanks, _ | _, endOfText, _ | _, peek, _ | _, standsBefore _, _
  | _, takeWhile _, _ | _, token? _, _ | _, expect _ _, _ | _, missing _, _ => True

/-- **Every part of the grammar gives what may be part of a tree**, wherever it is applied. -/
theorem gives_sound (limit : NestingLimit) {α : Type} (m : Method α) :
    (m.rule limit).Gives m.Sound := by
  have hexpression : limit.expression.Gives Expression.Valid := gives_nested _ _
  induction m with
  | entry e => exact e.gives_valid limit
  | term => exact hexpression.valid_primary.valid_chain _
  | primary => exact hexpression.valid_primary
  | group => exact hexpression.valid_group
  | decimal => exact gives_decimal
  | hexadecimal => exact gives_hexadecimal
  | digits radix what lead => exact gives_digits radix what lead
  | name => exact hexpression.valid_name
  | arguments => exact hexpression.valid_arguments
  | operand => exact hexpression.valid_operand
  | operandForm form => exact hexpression.valid_operandForm form
  | chain operator? m ih => exact ih.chain
  | choice count form method ih =>
    refine Gives.firstOf fun b hb => ?_
    obtain ⟨i, _, rfl⟩ := List.mem_map.mp hb
    exact (ih i).mono fun _ h => ⟨i, h⟩
  | size | blanks | endOfText | peek | standsBefore | takeWhile | token? | expect | missing =>
    exact fun _ _ _ _ => trivial

end Method

/-! ## What comes of it -/

/-- A diagnosis that says more than that the text is not of the expected form. -/
def Diagnosis.IsSpecific (d : Diagnosis) : Prop :=
  (∃ message hint, d = .unexpected message hint) ∨ (∃ message hint, d = .incomplete message hint) ∨
    (∃ literal, d = .overflow literal) ∨ ∃ levels, d = .tooDeep levels

theorem Fault.isSpecific (fault : Fault) : fault.diagnosis.IsSpecific := by
  cases fault with
  | missing what found =>
    cases found with
    | none => exact .inr (.inl ⟨_, _, rfl⟩)
    | some c => exact .inl ⟨_, _, rfl⟩
  | trailing c | operatorAfterIndirect c => exact .inl ⟨_, _, rfl⟩
  | overflow literal => exact .inr (.inr (.inl ⟨literal, rfl⟩))
  | tooDeep levels => exact .inr (.inr (.inr ⟨levels, rfl⟩))

/-- A call gives what passes the checks, or says why it gives nothing. -/
theorem Session.call_outcome {α : Type} (limit : NestingLimit) (s : Session) (m : Method α) :
    (∃ v, (s.call limit m).1 = .ok v ∧ m.Sound v) ∨
      ∃ report, (s.call limit m).1 = .error report ∧ report.diagnosis.IsSpecific := by
  rw [call, step]
  dsimp only
  cases hr : ((m.rule limit).run s.rest).result with
  | ok v => exact .inl ⟨v, rfl, m.gives_sound limit (parse_eq_ok_iff.mpr ⟨hr, rfl⟩)⟩
  | error f => exact .inr ⟨_, rfl, f.fault.isSpecific⟩

/-- **A reading gives a tree that the constructors would build, or says why there is none.** On the
way any part of the grammar may be applied at any place of a text, and the same holds of it. -/
theorem Entry.read_outcome {α : Type} (entry : Entry α) (limit : NestingLimit) (text : String) :
    ((∃ v, (entry.read limit text).result = .ok v ∧ (entry.node v).Valid ∧
        (entry.node v).rebuild = .ok (entry.node v)) ∨
      ∃ report, (entry.read limit text).result = .error report ∧ report.diagnosis.IsSpecific) ∧
    ∀ {β : Type} (s : Session) (m : Method β),
      (∃ v, (s.call limit m).1 = .ok v ∧ m.Sound v) ∨
        ∃ report, (s.call limit m).1 = .error report ∧ report.diagnosis.IsSpecific := by
  refine ⟨?_, fun s m => s.call_outcome limit m⟩
  cases hr : (entry.read limit text).result with
  | ok v =>
    obtain ⟨t, ht⟩ := read_result_eq_ok_iff.mp hr
    have hvalid := entry.gives_valid limit ht
    exact .inl ⟨v, rfl, hvalid, (entry.node v).builds_rebuild.eq_ok_iff.mpr hvalid⟩
  | error report =>
    obtain ⟨f, _, rfl⟩ := exists_failure_of_read hr
    exact .inr ⟨_, rfl, f.fault.isSpecific⟩

end Asm65816
