import Asm65816.Proofs.Rule.Parse
import Asm65816.Reading

/-!
# What is read of a text

A reading gives the value that the rule gives. It differs from it only in showing a failure as a
report, and in taking strings instead of lists of characters.
-/

namespace Asm65816

theorem eq_ok_of_toOption {ε α : Type} {x : Except ε α} {a : α} (h : x.toOption = some a) :
    x = .ok a := by
  cases x with
  | ok b => exact congrArg Except.ok (Option.some.inj h)
  | error _ => cases h

/-- Why there is no result, if there is none. -/
def error? {ε α : Type} : Except ε α → Option ε
  | .ok _ => none
  | .error e => some e

theorem eq_error_of_error? {ε α : Type} {x : Except ε α} {e : ε} (h : error? x = some e) :
    x = .error e := by
  cases x with
  | ok _ => cases h
  | error d => exact congrArg Except.error (Option.some.inj h)

/-- The report of a failure behind the front of a text. -/
theorem report_of_append {text : String} {front rest : List Char} (h : text.toList = front ++ rest)
    (fault : Fault) :
    (⟨fault, rest⟩ : Failure).report text =
      { diagnosis := fault.diagnosis, position := some front.length, source := some text } := by
  have hlength : text.length = front.length + rest.length := by
    rw [← String.length_toList, h, List.length_append]
  rw [Failure.report, hlength, Nat.add_sub_cancel]

/-- Another character is required, or more text. -/
def Diagnosis.IsSoft (d : Diagnosis) : Prop :=
  (∃ message hint, d = .unexpected message hint) ∨ ∃ message hint, d = .incomplete message hint

/-- A fault is soft just if it is reported so. -/
theorem Fault.isSoft_iff {fault : Fault} : fault.isSoft = true ↔ fault.diagnosis.IsSoft := by
  cases fault with
  | missing what found =>
    cases found with
    | none => exact iff_of_true rfl (.inr ⟨_, _, rfl⟩)
    | some c => exact iff_of_true rfl (.inl ⟨_, _, rfl⟩)
  | trailing c | operatorAfterIndirect c => exact iff_of_true rfl (.inl ⟨_, _, rfl⟩)
  | overflow literal | tooDeep levels =>
    refine iff_of_false Bool.false_ne_true ?_
    rintro (⟨_, _, h⟩ | ⟨_, _, h⟩) <;> cases h

/-- Expressions nest deeper than a limit. -/
def Diagnosis.IsTooDeep (d : Diagnosis) : Prop := ∃ levels, d = .tooDeep levels

/-- Expressions nest too deep just if that is what is reported. -/
theorem Fault.isTooDeep_iff {fault : Fault} :
    fault.isTooDeep = true ↔ fault.diagnosis.IsTooDeep := by
  cases fault with
  | tooDeep levels => exact iff_of_true rfl ⟨_, rfl⟩
  | missing what found =>
    refine iff_of_false Bool.false_ne_true ?_
    cases found <;> exact nofun
  | trailing | operatorAfterIndirect | overflow => exact iff_of_false Bool.false_ne_true nofun

namespace Rule

variable {α : Type} {r : Rule α}

/-- A reading succeeds just if the rule does, and leaves the same over. -/
theorem read_eq_ok_iff {text : String} {t : List Char} {a : α} :
    (r.read text).result = .ok a ∧ (r.read text).rest = String.ofList t ↔
      r.parse text.toList = .ok (a, t) := by
  rw [parse_eq_ok_iff, read]
  dsimp only
  rw [String.ofList_inj]
  cases (r.run text.toList).result with
  | ok b =>
    constructor <;>
    · intro h
      cases h.1
      exact ⟨rfl, h.2⟩
  | error f =>
    -- a failure stays one
    constructor <;>
    · intro h
      cases h.1

theorem read_result_eq_ok_iff {text : String} {a : α} :
    (r.read text).result = .ok a ↔ ∃ t, r.parse text.toList = .ok (a, t) := by
  constructor
  · intro h
    exact ⟨(r.run text.toList).rest, read_eq_ok_iff.mp ⟨h, rfl⟩⟩
  · rintro ⟨t, h⟩
    exact (read_eq_ok_iff.mpr h).1

/-- What is left over by a reading is left over by its rule. -/
theorem exists_parse_of_read {text : String} {a : α} (h : (r.read text).result = .ok a) :
    ∃ t, r.parse text.toList = .ok (a, t) ∧ (r.read text).rest.toList = t := by
  obtain ⟨t, ht⟩ := read_result_eq_ok_iff.mp h
  exact ⟨t, ht, by rw [(read_eq_ok_iff.mpr ht).2, String.toList_ofList]⟩

theorem read_result_of_error {text : String} {f : Failure}
    (h : r.parse text.toList = .error f) : (r.read text).result = .error (f.report text) := by
  rw [read]
  dsimp only
  rw [parse_eq_error_iff.mp h]
  rfl

/-- What is reported is a failure of the rule. -/
theorem exists_failure_of_read {text : String} {report : Report}
    (h : (r.read text).result = .error report) :
    ∃ f, r.parse text.toList = .error f ∧ report = f.report text := by
  cases hr : r.parse text.toList with
  | ok x =>
    rw [(read_result_eq_ok_iff).mpr ⟨x.2, hr⟩] at h
    cases h
  | error f =>
    rw [read_result_of_error hr] at h
    cases h
    exact ⟨f, rfl, rfl⟩

theorem parse_endOfText_eq_ok_iff {s t : List Char} :
    endOfText.parse s = .ok ((), t) ↔ Text.skipBlanks s = [] ∧ t = [] := by
  rw [endOfText, parse_bind_of_ok (parse_blanks s), parse_bind_of_ok (parse_peek _)]
  cases hs : Text.skipBlanks s with
  | nil =>
    rw [List.head?_nil, parse_pure]
    simp [eq_comm]
  | cons c u =>
    rw [List.head?_cons, parse_fail]
    simp

/-- A whole text is read just if nothing but blanks is left over. -/
theorem parse_whole_eq_ok_iff {s t : List Char} {a : α} :
    r.whole.parse s = .ok (a, t) ↔
      ∃ u, r.parse s = .ok (a, u) ∧ Text.skipBlanks u = [] ∧ t = [] := by
  rw [whole, parse_bind_eq_ok_iff]
  constructor
  · rintro ⟨b, u, hr, h⟩
    obtain ⟨_, v, hend, h⟩ := parse_bind_eq_ok_iff.mp h
    obtain ⟨rfl, rfl⟩ := eq_of_parse_pure h
    exact ⟨u, hr, parse_endOfText_eq_ok_iff.mp hend⟩
  · rintro ⟨u, hr, hu, rfl⟩
    refine ⟨a, u, hr, ?_⟩
    rw [parse_bind_of_ok (parse_endOfText_eq_ok_iff.mpr ⟨hu, rfl⟩), parse_pure]

end Rule

end Asm65816
