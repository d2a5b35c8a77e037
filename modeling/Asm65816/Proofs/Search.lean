import Asm65816.Proofs.Grammar.Composition
import Asm65816.Proofs.Reading
import Asm65816.Proofs.Rule.Standing

/-!
# The record of the search for a mode

The mode of an instruction is found by trying the forms of an operand, and the trace tells how that
went: the forms that were tried in vain, in the order in which they are tried, and the mode in the
end. While a form is tried, expressions are read and the forms of a primary are tried in turn, to
any depth. What they leave in the trace stands between the steps of the search, but is none of them.
-/

namespace Asm65816

open Rule

/-- Whether a step is one of the search for the form of an operand. -/
def Event.ofOperand : Event → Bool
  | rejected (.operand _) _ | addressed _ _ => true
  | rejected (.primary _) _ | rejected (.statement _) _ => false

/-- The steps of the search for the form of an operand that were recorded. -/
def Reading.search {α : Type} (r : Reading α) : List Event := r.trace.filter Event.ofOperand

namespace Rule

/-! ## What expressions record -/

/-- A step of another choice does not belong to the search. -/
theorem ofOperand_rejected {form : Form} (h : ∀ g, form ≠ .operand g) (fault : Fault) :
    (Event.rejected form fault).ofOperand = false := by
  cases form with
  | operand g => exact absurd rfl (h g)
  | primary _ | statement _ => rfl

/-- **Only the choice between the forms of an operand, and its mode, belong to the search.** -/
theorem compositional_ofOperand : Compositional fun r => r.Records (·.ofOperand = false) where
  total _ h := h.records _
  bind h hnext := h.bind hnext
  attempt h := h.attempt
  follow h a := Records.follow h a
  firstOf h := Records.firstOf (fun b hb => (h b hb).1) fun b hb => ofOperand_rejected (h b hb).2
  expect chars what := (silent_expect chars what).records _
  identifier hnext := (silent_blanks.records _).bind fun _ =>
    (silent_identifier.records _).bind hnext
  decimal := silent_decimal.records _
  hexadecimal := silent_hexadecimal.records _
  beginning h := by
    refine (silent_blanks.records _).bind fun _ => (silent_peek.records _).bind fun c? => ?_
    split
    · exact h
    · exact (silent_fail _).records _
  tooDeep _ := (silent_blanks.records _).bind fun _ => (silent_fail _).records _

/-- What is tried inside of a form does not belong to the search. -/
theorem records_operandForm (limit n : Nat) (form : OperandForm) :
    (operandForm (nested limit n) form).Records (·.ofOperand = false) :=
  compositional_ofOperand.operandForm (compositional_ofOperand.nested limit n) fun _ =>
    silent_noOperator.records _

theorem filter_ofOperand_eq_nil {trace : List Event} (h : ∀ e ∈ trace, e.ofOperand = false) :
    trace.filter Event.ofOperand = [] :=
  List.filter_eq_nil_iff.mpr fun e he => Bool.eq_false_iff.mp (h e he)

/-! ## The forms that are rejected -/

variable {inner : Rule Expression} {s t : List Char}

/-- The steps by which certain forms of an operand are rejected, in order. Each tells why its form
does not fit, and no form nests too deep. -/
def Rejections (inner : Rule Expression) (s : List Char) : List OperandForm → List Event → Prop :=
  List.Forall₂ fun form event =>
    ∃ f, (operandBranch inner form).RejectsWith s f ∧ event = .rejected (.operand form) f.fault

theorem rejections_of_passedOver
    (hinner : ∀ form, (operandForm inner form).Records (·.ofOperand = false))
    {forms : List OperandForm} {trace : List Event}
    (h : PassedOver s (forms.map (operandBranch inner)) trace) :
    Rejections inner s forms (trace.filter Event.ofOperand) := by
  induction forms generalizing trace with
  | nil =>
    cases h
    exact .nil
  | cons form others ih =>
    cases h with
    | cons hf hothers =>
      have htried : ((operandForm inner form).run s).trace.filter Event.ofOperand = [] :=
        filter_ofOperand_eq_nil (hinner form s)
      rw [List.filter_append, operandBranch, htried, List.nil_append,
        List.filter_cons_of_pos rfl]
      exact .cons ⟨_, hf, rfl⟩ (ih hothers)

/-- A form of an operand as a branch splits the list of the forms. -/
theorem exists_split_of_map {forms : List OperandForm} {b : Branch Operand}
    {earlier later : List (Branch Operand)}
    (h : forms.map (operandBranch inner) = earlier ++ b :: later) :
    ∃ before form behind, forms = before ++ form :: behind ∧ b = operandBranch inner form ∧
      earlier = before.map (operandBranch inner) ∧ later = behind.map (operandBranch inner) := by
  obtain ⟨before, others, rfl, rfl, hothers⟩ := List.map_eq_append_iff.mp h
  obtain ⟨form, behind, rfl, rfl, rfl⟩ := List.map_eq_cons_iff.mp hothers
  exact ⟨before, form, behind, rfl, rfl, rfl, rfl⟩

/-- The operand is in the form by which it was read. -/
theorem mode_of_parse_operandForm {form : OperandForm} {o : Operand}
    (h : (operandForm inner form).parse s = .ok (o, t)) : o.mode = form.mode := by
  obtain ⟨⟨value, second⟩, u, _, hpure⟩ := parse_bind_eq_ok_iff.mp h
  rw [← (eq_of_parse_pure hpure).1]

/-- What the search for the form of an operand comes to, and the steps by which forms are rejected
in it. -/
inductive Search (inner : Rule Expression) (s : List Char) :
    Except Failure Operand → List Event → Prop where
  /-- A form is found, and those in front of it are rejected. -/
  | found {o : Operand} {t : List Char} {form : OperandForm} {earlier later : List OperandForm}
      {rejections : List Event}
      (split : OperandForm.all = earlier ++ form :: later)
      (read : (operandForm inner form).parse s = .ok (o, t))
      (mode : o.mode = form.mode)
      (rejected : Rejections inner s earlier rejections) :
      Search inner s (.ok o) rejections
  /-- All forms are rejected. The failure is that of the first one that gets furthest. -/
  | exhausted {f : Failure} {form : OperandForm} {earlier later : List OperandForm}
      {rejections : List Event}
      (rejected : Rejections inner s OperandForm.all rejections)
      (passed : f.fault.isTooDeep = false)
      (split : OperandForm.all = earlier ++ form :: later)
      (failure : (operandForm inner form).parse s = .error f)
      (further : ∀ g ∈ earlier, ∃ f', (operandForm inner g).parse s = .error f' ∧
        f.rest.length < f'.rest.length)
      (furthest : ∀ g ∈ later, ∃ f', (operandForm inner g).parse s = .error f' ∧
        f.rest.length ≤ f'.rest.length) :
      Search inner s (.error f) rejections
  /-- A form nests too deep. It is not rejected itself, and no other form is tried behind it. -/
  | tooDeep {f : Failure} {form : OperandForm} {earlier later : List OperandForm}
      {rejections : List Event}
      (split : OperandForm.all = earlier ++ form :: later)
      (failure : (operandForm inner form).parse s = .error f)
      (deep : f.fault.isTooDeep = true)
      (rejected : Rejections inner s earlier rejections) :
      Search inner s (.error f) rejections

/-- **The record of an operand is that of the search for its form.** -/
theorem search_operand (hinner : ∀ form, (operandForm inner form).Records (·.ofOperand = false))
    (s : List Char) : Search inner s ((operand inner).run s).result
      (((operand inner).run s).trace.filter Event.ofOperand) := by
  have hchosen : Chosen s (OperandForm.all.map (operandBranch inner)) ((operand inner).run s) :=
    chosen_firstOf _ _ s
  have hforemost : ∀ f, ((operand inner).run s).result = .error f →
      Foremost s f (OperandForm.all.map (operandBranch inner)) :=
    fun f hf => foremost_of_parse_firstOf (parse_eq_error_iff.mpr hf)
  generalize (operand inner).run s = o at hchosen hforemost ⊢
  cases hchosen with
  | exhausted hpassed hd =>
    obtain ⟨earlier, b, later, hsplit, hb, hearlier, hlater⟩ := (hforemost _ rfl).exists_split hd
    obtain ⟨before, form, behind, hforms, rfl, rfl, rfl⟩ := exists_split_of_map hsplit
    refine .exhausted (rejections_of_passedOver hinner hpassed) hd hforms hb (fun g hg => ?_)
      fun g hg => ?_
    · obtain ⟨f', hf', hlt⟩ := hearlier _ (List.mem_map_of_mem hg)
      exact ⟨f', hf'.1, hlt⟩
    · obtain ⟨f', hf', hle⟩ := hlater _ (List.mem_map_of_mem hg)
      exact ⟨f', hf'.1, hle⟩
  | @stopped b earlier later trace hsplit hearlier hb =>
    obtain ⟨before, form, behind, hforms, rfl, rfl, rfl⟩ := exists_split_of_map hsplit
    have hrejections := rejections_of_passedOver hinner hearlier
    -- what was tried inside of the last form does not count
    have htried : ((operandBranch inner form).rule.run s).trace.filter Event.ofOperand = [] :=
      filter_ofOperand_eq_nil (hinner form s)
    rw [Outcome.after, List.filter_append, htried, List.append_nil]
    dsimp only
    rcases (operandBranch inner form).parse_cases s with ⟨⟨o, t⟩, hread⟩ | ⟨f, hf, hd⟩ | hrejects
    · rw [(parse_eq_ok_iff.mp hread).1]
      exact .found hforms hread (mode_of_parse_operandForm hread) hrejections
    · rw [parse_eq_error_iff.mp hf]
      exact .tooDeep hforms hf hd hrejections
    · exact absurd hrejects hb

/-! ## Instructions -/

/-- What stands in front of the operand of an instruction: a mnemonic, and perhaps a size. -/
def operation : Rule (String × Option Size) := do
  blanks
  let mnemonic ← identifier
  let size ← size?
  return (mnemonic, size)

theorem silent_operation : operation.Silent :=
  silent_blanks.bind fun _ => silent_identifier.bind fun _ => silent_size?.bind fun _ =>
    silent_pure _

theorem instruction_eq_operation (inner : Rule Expression) :
    instruction inner = operation >>= fun x => operand inner >>= fun o =>
      record (.addressed x.1 o.mode) >>= fun _ =>
        pure { mnemonic := x.1, size := x.2, operand := o } := by
  simp only [instruction, operation, bind_assoc, pure_bind]

/-- Without a mnemonic no form is tried. -/
theorem run_instruction_of_error {f : Failure} (h : operation.parse s = .error f)
    (inner : Rule Expression) :
    ((instruction inner).run s).result = .error f ∧ ((instruction inner).run s).trace = [] := by
  rw [instruction_eq_operation, run_bind, Outcome.andThen, parse_eq_error_iff.mp h]
  exact ⟨rfl, silent_operation.trace s⟩

/-- Behind the mnemonic and the size there is the operand, and then its mode is recorded. -/
theorem run_instruction_of_ok {mnemonic : String} {size : Option Size}
    (h : operation.parse s = .ok ((mnemonic, size), t)) :
    (instruction inner).run s = ((operand inner).run t).andThen fun o u =>
      { result := .ok { mnemonic, size, operand := o }
        rest := u
        trace := [.addressed mnemonic o.mode] } := by
  obtain ⟨hresult, hrest⟩ := parse_eq_ok_iff.mp h
  rw [instruction_eq_operation, run_bind, Outcome.andThen, hresult, hrest, silent_operation.trace s]
  rfl

end Rule

/-! ## Readings -/

section

variable {α : Type}

/-- What comes of reading an instruction, and the search for its mode that is recorded. What is read
may be something in which the instruction is wrapped. -/
inductive Reading.Searched (inner : Rule Expression) (text : String) (wrap : Instruction → α)
    (r : Reading α) : Prop where
  /-- There is no mnemonic, and so no operand is looked for. -/
  | unbegun {f : Failure}
      (front : operation.parse text.toList = .error f)
      (result : r.result = .error (f.report text))
      (search : r.search = [])
  /-- The operand is found. The last that is recorded is its mode. -/
  | found {mnemonic : String} {size : Option Size} {t : List Char} {operand : Operand}
      {rejections : List Event}
      (front : operation.parse text.toList = .ok ((mnemonic, size), t))
      (operandSearch : Search inner t (.ok operand) rejections)
      (result : r.result = .ok (wrap { mnemonic, size, operand }))
      (search : r.search = rejections ++ [.addressed mnemonic operand.mode])
      (last : r.trace.getLast? = some (.addressed mnemonic operand.mode))
  /-- The operand is not found, and no mode is recorded. -/
  | failed {front : String × Option Size} {t : List Char} {f : Failure} {rejections : List Event}
      (front : operation.parse text.toList = .ok (front, t))
      (operandSearch : Search inner t (.error f) rejections)
      (result : r.result = .error (f.report text))
      (search : r.search = rejections)

/-- What is recorded behind an instruction that fails does not belong to the search. -/
theorem searched_of_run {inner : Rule Expression} {text : String} {wrap : Instruction → α}
    {r : Reading α} {ending : List Event}
    (hinner : ∀ form, (operandForm inner form).Records (·.ofOperand = false))
    (hresult : r.result =
      (((instruction inner).run text.toList).result.map wrap).mapError (·.report text))
    (htrace : r.trace = ((instruction inner).run text.toList).trace ++ ending)
    (hending : ending.filter Event.ofOperand = [])
    (hok : ∀ i, ((instruction inner).run text.toList).result = .ok i → ending = []) :
    r.Searched inner text wrap := by
  have hsearch : r.search =
      ((instruction inner).run text.toList).trace.filter Event.ofOperand := by
    rw [Reading.search, htrace, List.filter_append, hending, List.append_nil]
  cases hfront : operation.parse text.toList with
  | error f =>
    obtain ⟨hrun, hsilent⟩ := run_instruction_of_error hfront inner
    rw [hrun] at hresult
    rw [hsilent] at hsearch
    exact .unbegun hfront hresult hsearch
  | ok x =>
    obtain ⟨⟨mnemonic, size⟩, t⟩ := x
    have hoperand := search_operand hinner t
    rw [run_instruction_of_ok hfront] at hresult htrace hsearch hok
    generalize (operand inner).run t = o at hresult htrace hsearch hok hoperand
    obtain ⟨result, rest, trace⟩ := o
    cases result with
    | error f => exact .failed hfront hoperand hresult hsearch
    | ok o =>
      rw [hok _ rfl, List.append_nil] at htrace
      refine .found hfront hoperand hresult ?_ ?_
      · rw [hsearch, Outcome.andThen_ok, Outcome.after, List.filter_append]
        rfl
      · rw [htrace, Outcome.andThen_ok, Outcome.after, List.getLast?_concat]

/-- A statement is an instruction. It is recorded itself only if it is rejected. -/
theorem run_statement (inner : Rule Expression) (s : List Char) :
    ∃ ending, ((statement inner).run s).result =
        ((instruction inner).run s).result.map .instruction ∧
      ((statement inner).run s).trace = ((instruction inner).run s).trace ++ ending ∧
      ending.filter Event.ofOperand = [] ∧
      ∀ i, ((instruction inner).run s).result = .ok i → ending = [] := by
  have hskip : (instruction inner).run (Text.skipBlanks s) = (instruction inner).run s := by
    rw [instruction, run_blanks_then, run_blanks_then, Text.skipBlanks_skipBlanks]
  have hbranch : ((statementBranch inner .instruction).rule.run (Text.skipBlanks s)).result =
        ((instruction inner).run s).result.map .instruction ∧
      ((statementBranch inner .instruction).rule.run (Text.skipBlanks s)).trace =
        ((instruction inner).run s).trace := by
    rw [statementBranch, statementForm, run_bind, hskip]
    generalize (instruction inner).run s = o
    obtain ⟨result, rest, trace⟩ := o
    cases result with
    | ok i => exact ⟨rfl, List.append_nil trace⟩
    | error f => exact ⟨rfl, rfl⟩
  rw [statement, run_blanks_then]
  -- there is only one form to try
  show ∃ ending, ((statementBranch inner .instruction).tryOn (Text.skipBlanks s) _).result = _ ∧
    ((statementBranch inner .instruction).tryOn (Text.skipBlanks s) _).trace = _ ∧ _
  by_cases hrejects : (statementBranch inner .instruction).Rejects (Text.skipBlanks s)
  · obtain ⟨f, hf⟩ := hrejects
    have hresult := hbranch.1.symm.trans (parse_eq_error_iff.mp hf.1)
    refine ⟨[.rejected (.statement .instruction) f.fault], ?_⟩
    rw [Branch.tryOn_of_rejectsWith hf, hbranch.2, hresult]
    refine ⟨rfl, rfl, rfl, fun i hi => ?_⟩
    rw [hi] at hresult
    cases hresult
  · rw [Branch.tryOn_of_not_rejects hrejects]
    exact ⟨[], hbranch.1, by rw [hbranch.2, List.append_nil], rfl, fun _ _ => rfl⟩

/-- **The trace tells how the mode of an instruction was found.** Nothing else in it belongs to the
search, however deep the choices are nested that were made on the way. -/
theorem modeSearch_recorded (limit : NestingLimit) (text : String) :
    (readInstruction limit text).Searched limit.expression text id ∧
      (readStatement limit text).Searched limit.expression text .instruction := by
  have hinner := records_operandForm limit.levels limit.levels
  constructor
  · have htrace : (readInstruction limit text).trace =
        ((instruction limit.expression).run text.toList).trace ++ [] := (List.append_nil _).symm
    refine searched_of_run hinner ?_ htrace rfl fun _ _ => rfl
    rw [Except.map_id]
    rfl
  · obtain ⟨ending, hresult, htrace, hending, hok⟩ := run_statement limit.expression text.toList
    refine searched_of_run hinner ?_ htrace hending hok
    rw [← hresult]
    rfl

example : (readStatement default "LDA (a*2)").search =
    [.rejected (.operand .indirectY) (.missing "','" none), .addressed "LDA" .indirect] := by
  decide +kernel

end

end Asm65816
