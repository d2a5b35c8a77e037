import Asm65816.Proofs.Entry
import Asm65816.Proofs.Rule.Parse
import Asm65816.Session

/-!
# Sessions begin anew with every call

A session may be asked for any reading and for any part of the grammar, in any order, and goes on
after a failure. A rule knows only the rest of the text, so it does what it would do at the
beginning of a session on that rest. Positions count from the beginning of the whole text and are
greater by the number of characters before the place.
-/

namespace Asm65816

/-! ## Calls -/

/-- What a session may be asked for, with the type of what comes of it. -/
inductive Method : Type → Type 1 where
  /-- A reading. -/
  | entry {α : Type} (entry : Entry α) : Method α
  /-- Primaries joined by `*` and `/`. -/
  | term : Method Expression
  /-- An expression without an operator outside of parentheses. -/
  | primary : Method Expression
  /-- An expression in parentheses. -/
  | group : Method Expression
  /-- A decimal literal. -/
  | decimal : Method Expression
  /-- A hexadecimal literal. -/
  | hexadecimal : Method Expression
  /-- A run of digits and its value. -/
  | digits (radix : Radix) (what : String) (lead : List Char) : Method (List Char × Nat)
  /-- A name, which an opening parenthesis makes a function. -/
  | name : Method Expression
  /-- The arguments of a function. -/
  | arguments : Method (List Expression)
  /-- The size behind a mnemonic. -/
  | size : Method (Option Size)
  /-- An operand in any form. -/
  | operand : Method Operand
  /-- An operand in a certain form. -/
  | operandForm (form : OperandForm) : Method Operand
  /-- Blanks. -/
  | blanks : Method Unit
  /-- Blanks up to the end of the text. -/
  | endOfText : Method Unit
  /-- The next character, which is not read. -/
  | peek : Method (Option Char)
  /-- Whether one of the characters comes next. -/
  | standsBefore (chars : List Char) : Method Bool
  /-- A run of characters with a property. -/
  | takeWhile (p : Char → Bool) : Method (List Char)
  /-- One of the characters as a token, if it is there. -/
  | token? (chars : List Char) : Method (Option Char)
  /-- One of the characters as a token, which must be there. -/
  | expect (chars : List Char) (what : String) : Method Char
  /-- The failure of something that is missing. -/
  | missing (what : String) : Method Unit
  /-- Operands joined by operators. -/
  | chain (operator? : Char → Option Operator) (operand : Method Expression) : Method Expression
  /-- A choice between forms, of which there is one at least. -/
  | choice {α : Type} (count : Nat) (form : Fin (count + 1) → Form)
      (method : Fin (count + 1) → Method α) : Method α

/-- The rule that a method applies. -/
def Method.rule (limit : NestingLimit) : {α : Type} → Method α → Rule α
  | _, entry e => e.rule limit
  | _, term => Rule.term limit.expression
  | _, primary => Rule.primary limit.expression
  | _, group => Rule.group limit.expression
  | _, decimal => Rule.decimal
  | _, hexadecimal => Rule.hexadecimal
  | _, digits radix what lead => Rule.digits radix what lead
  | _, name => Rule.name limit.expression
  | _, arguments => Rule.arguments limit.expression
  | _, size => Rule.size?
  | _, operand => Rule.operand limit.expression
  | _, operandForm form => Rule.operandForm limit.expression form
  | _, blanks => Rule.blanks
  | _, endOfText => Rule.endOfText
  | _, peek => Rule.peek
  | _, standsBefore chars => Rule.standsBefore chars
  | _, takeWhile p => Rule.takeWhile p
  | _, token? chars => Rule.token? (oneOf chars)
  | _, expect chars what => Rule.expect chars what
  | _, missing what => Rule.missing what
  | _, chain operator? m => Rule.chain operator? (m.rule limit)
  | _, choice count form method =>
    Rule.firstOf ((List.finRange (count + 1)).map fun i =>
      { form := form i, rule := (method i).rule limit }) (by simp [List.finRange_succ])

/-- The report of a failure on the rest of a text, as it is seen in the whole text. -/
def Report.behind (source : String) (before : Nat) (r : Report) : Report where
  diagnosis := r.diagnosis
  position := r.position.map (before + ·)
  source := some source

namespace Session

variable {α : Type} (limit : NestingLimit)

/-- Calls a method. -/
def call (s : Session) (m : Method α) : Except Report α × Session := s.step (m.rule limit)

/-! ## The place -/

theorem position_le_length (s : Session) : s.position ≤ s.source.length := Nat.sub_le _ _

/-- No rule goes back. -/
theorem position_le_step (s : Session) (r : Rule α) : s.position ≤ (s.step r).2.position :=
  Nat.sub_le_sub_left (r.within s.rest).rest_suffix.length_le s.source.length

/-! ## What comes of a step -/

/-- A step comes out as its rule does. -/
theorem step_of_run {s : Session} {r : Rule α} {o : Outcome α} (h : r.run s.rest = o) :
    (s.step r).1 = o.result.mapError (·.report (String.ofList s.source)) ∧
      (s.step r).2.rest = o.rest := by
  subst h
  exact ⟨rfl, rfl⟩

/-- A step gives what its rule gives, and leaves the session before what the rule leaves over. -/
theorem parse_of_step {s : Session} {r : Rule α} {a : α} (h : (s.step r).1 = .ok a) :
    r.parse s.rest = .ok (a, (s.step r).2.rest) := by
  refine Rule.parse_eq_ok_iff.mpr ⟨?_, rfl⟩
  rw [step] at h
  dsimp only at h
  cases hr : (r.run s.rest).result with
  | ok b =>
    rw [hr] at h
    cases h
    rfl
  | error f =>
    rw [hr] at h
    cases h

/-- A step fails if its rule does. -/
theorem step_of_error {s : Session} {r : Rule α} {f : Failure} (h : r.parse s.rest = .error f) :
    (s.step r).1 = .error (f.report (String.ofList s.source)) := by
  rw [step, Rule.parse_eq_error_iff.mp h]
  rfl

/-- What is reported of a step is a failure of its rule. -/
theorem exists_failure_of_step {s : Session} {r : Rule α} {report : Report}
    (h : (s.step r).1 = .error report) :
    ∃ f, (r.run s.rest).result = .error f ∧ report = f.report (String.ofList s.source) := by
  cases hr : (r.run s.rest).result with
  | ok a =>
    rw [step, hr] at h
    cases h
  | error f =>
    rw [step_of_error (Rule.parse_eq_error_iff.mpr hr)] at h
    cases h
    exact ⟨f, rfl, rfl⟩

/-! ## The next step -/

/-- A place that is counted in the rest of a text stands further behind in the whole text. -/
theorem position_of_suffix (s : Session) {t : List Char} (h : t <:+ s.rest) :
    s.source.length - t.length = s.position + (s.rest.length - t.length) := by
  have h₁ := h.length_le
  have h₂ := s.rest_suffix.length_le
  rw [position]
  omega

/-- A failure on the rest of a text is reported with its place in the whole text. -/
theorem report_of_suffix (s : Session) {f : Failure} (h : f.rest <:+ s.rest) :
    f.report (String.ofList s.source) =
      (f.report (String.ofList s.rest)).behind (String.ofList s.source) s.position := by
  simp only [Failure.report, Report.behind, String.length_ofList, Option.map_some,
    s.position_of_suffix h]

/-- **A rule is applied as at the beginning of a session on the rest of the text.** -/
theorem step_eq_start (s : Session) (r : Rule α) :
    (s.step r).1 =
        ((start (String.ofList s.rest)).step r).1.mapError
          (·.behind (String.ofList s.source) s.position) ∧
      (s.step r).2.position = s.position + ((start (String.ofList s.rest)).step r).2.position ∧
      (s.step r).2.rest = ((start (String.ofList s.rest)).step r).2.rest := by
  dsimp only [step, start, position]
  rw [String.toList_ofList]
  refine ⟨?_, s.position_of_suffix (r.within s.rest).rest_suffix, rfl⟩
  cases hr : (r.run s.rest).result with
  | ok a => rfl
  | error f =>
    exact congrArg Except.error (s.report_of_suffix ((r.within s.rest).failure_suffix f hr))

end Session

end Asm65816
