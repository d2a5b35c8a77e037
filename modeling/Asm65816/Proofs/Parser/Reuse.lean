import Asm65816.Proofs.Parser.Grammar

/-!
# A used parser is as good as a new one

A parser may be asked for any reading and for any part of the grammar, in any order, and goes on
after a failure. Whatever was asked before, only the place that was reached matters: the next call
does what it would do on a new parser over the rest of the text. Places count from the beginning of
the whole text and are greater by the number of characters in front.

What a method simulates is a rule, and a rule sees the rest of the text alone. So a parser goes
through the sessions of its rules, whatever its number of expressions does in between.
-/

namespace Asm65816

/-- A call of a method. -/
structure Call where
  /-- The type of what comes of it. -/
  result : Type
  /-- The method. -/
  method : Method result

namespace Parser

variable {α : Type} {limit : NestingLimit} {p : Parser}

/-- Calls a method. -/
def call (p : Parser) (m : Method α) : Option (Except Report α × Parser) :=
  (p.run m.program).map fun y => (y.1.mapError Raised.report, y.2)

/-- The parser after calls of methods, whatever comes of them. -/
def after (p : Parser) (calls : List Call) : Option Parser :=
  calls.foldlM (fun p c => (p.call c.method).map Prod.snd) p

/-! ## Sessions -/

/-- The session at the place of a parser. -/
def session (p : Parser) : Session where
  source := p.text
  rest := p.rest
  rest_suffix := p.rest_suffix

/-- The number of characters before the place is the place. -/
theorem At.position_session {depth : Nat} (hp : p.At limit depth) :
    p.session.position = p.position :=
  congrArg Parser.position hp.before_rest

theorem at_new (text : String) (limit : NestingLimit) : (new text limit).At limit 0 :=
  ⟨rfl, rfl, Nat.zero_le _⟩

theorem rest_new (text : String) (limit : NestingLimit) : (new text limit).rest = text.toList := rfl

theorem session_new (text : String) (limit : NestingLimit) :
    (new text limit).session = Session.start text := rfl

/-- What is reported of a failure of a method is what is reported of the failure of its rule. -/
theorem mapError_report (p : Parser) (result : Except Failure α) :
    (result.mapError p.raised).mapError Raised.report =
      result.mapError (·.report (String.ofList p.text)) := by
  cases result with
  | ok a => rfl
  | error f => exact congrArg Except.error (p.report_raised f)

/-- **A call gives what it gives in a session**, and goes on from there. -/
theorem call_eq (hp : p.At limit 0) (m : Method α) :
    p.call m = some ((p.session.call limit m).1, p.afterwards ((m.rule limit).run p.rest)) := by
  rw [call, m.simulates p hp, Option.map_some, ending]
  dsimp only
  rw [p.mapError_report]
  rfl

/-- What can be read from the front of a text is what a new parser reads. -/
theorem call_new_entry (e : Entry α) (text : String) (limit : NestingLimit) :
    ∃ p, (new text limit).call (.entry e) = some ((e.read limit text).result, p) ∧
      String.ofList p.rest = (e.read limit text).rest ∧ p.log = (e.read limit text).trace := by
  refine ⟨(new text limit).afterwards ((e.rule limit).run (new text limit).rest),
    (call_eq (at_new text limit) (.entry e)).trans ?_, ?_, rfl⟩
  · rw [session_new, Session.call, Session.step, Session.start, String.ofList_toList]
    rfl
  · rw [rest_afterwards ((e.rule limit).within _)]
    rfl

/-! ## Calls in a row -/

/-- Calls change nothing but the place, which goes forward in the text, and what is recorded. -/
theorem exists_after (hp : p.At limit 0) (calls : List Call) :
    ∃ q, p.after calls = some q ∧ q = { p with position := q.position, log := q.log } ∧
      q.At limit 0 ∧ p.position ≤ q.position := by
  induction calls generalizing p with
  | nil => exact ⟨p, rfl, rfl, hp, Nat.le_refl _⟩
  | cons c calls ih =>
    have hforward : p.position ≤ (p.afterwards ((c.method.rule limit).run p.rest)).position :=
      hp.position_session ▸ p.session.position_le_step (c.method.rule limit)
    obtain ⟨q, hafter, hq, hat, hle⟩ := ih (hp.afterwards ((c.method.rule limit).run p.rest))
    refine ⟨q, ?_, hq, hat, Nat.le_trans hforward hle⟩
    rw [after, List.foldlM_cons, call_eq hp c.method]
    exact hafter

/-- A call does what it does on a new parser over the rest of the text. -/
theorem call_eq_call_new (hp : p.At limit 0) (m : Method α) :
    ∃ result fresh, (new (String.ofList p.rest) limit).call m = some (result, fresh) ∧
      p.call m = some (result.mapError (·.behind (String.ofList p.text) p.position),
        { p with position := p.position + fresh.position, log := p.log ++ fresh.log }) ∧
      p.position + fresh.position ≤ p.text.length := by
  obtain ⟨hresult, hposition, _⟩ := p.session.step_eq_start (m.rule limit)
  have hlength := (p.session.step (m.rule limit)).2.position_le_length
  rw [hp.position_session] at hresult hposition
  rw [hposition] at hlength
  have hafterwards : p.afterwards ((m.rule limit).run p.rest) =
      { p with
        position := (p.session.step (m.rule limit)).2.position
        log := p.log ++ ((m.rule limit).run p.rest).trace } := rfl
  have htrace : ((m.rule limit).run p.rest).trace =
      ((m.rule limit).run (new (String.ofList p.rest) limit).rest).trace := by
    rw [rest_new, String.toList_ofList]
  refine ⟨_, _, call_eq (at_new (String.ofList p.rest) limit) m, ?_, hlength⟩
  rw [call_eq hp m, Session.call, hresult, hafterwards, hposition, htrace]
  rfl

/-- **After any calls a parser does what a new one does on the rest of the text.** What comes of the
next call is the same, and its places are greater by the place where it began. No call goes back,
nor behind the end. -/
theorem call_after_calls (text : String) (limit : NestingLimit) (calls : List Call)
    (m : Method α) :
    ∃ p, (new text limit).after calls = some p ∧
      p = { new text limit with position := p.position, log := p.log } ∧
      ∃ result fresh next,
        (new (String.ofList (text.toList.drop p.position)) limit).call m = some (result, fresh) ∧
        p.call m = some (result.mapError (·.behind text p.position), next) ∧
        next = { p with position := p.position + fresh.position, log := p.log ++ fresh.log } ∧
        p.position ≤ next.position ∧ next.position ≤ text.length := by
  obtain ⟨p, hafter, hp, hat, _⟩ := exists_after (at_new text limit) calls
  obtain ⟨result, fresh, hfresh, hcall, hlength⟩ := call_eq_call_new hat m
  have htext : p.text = text.toList := congrArg Parser.text hp
  rw [rest, htext] at hfresh
  have hsource : String.ofList p.text = text := by rw [htext, String.ofList_toList]
  rw [hsource] at hcall
  rw [htext, String.length_toList] at hlength
  exact ⟨p, hafter, hp, result, fresh, _, hfresh, hcall, rfl, Nat.le_add_right _ _, hlength⟩

end Parser

end Asm65816
