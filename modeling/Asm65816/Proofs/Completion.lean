import Asm65816.Proofs.Diagnosis
import Asm65816.Proofs.Statement.Completion

/-!
# A text that ends too early can be completed

A report that a text ends too early tells an editor to wait for more. It is made only where that can
help: there is always some text to be written behind the one that is there, so that the whole of it
is read.
-/

namespace Asm65816

open Rule

variable {α β : Type}

namespace Rule

/-- Every text that ends too early for a rule goes on to one that the rule reads to its end. -/
def Completable (r : Rule α) : Prop :=
  ∀ ⦃s⦄, r.EndsEarly s → ∃ more a, r.parse (s ++ more) = .ok (a, [])

theorem Completable.map {r : Rule α} (h : r.Completable) (g : α → β) :
    (r >>= fun a => pure (g a)).Completable := by
  intro s hs
  obtain ⟨more, a, ha⟩ := h (endsEarly_bind_pure_iff.mp hs)
  exact ⟨more, g a, (parse_bind_of_ok ha).trans (parse_pure _ _)⟩

theorem not_endsEarly_endOfText (s : List Char) : ¬endOfText.EndsEarly s := by
  rintro ⟨what, h⟩
  rw [endOfText, parse_bind_of_ok (parse_blanks s), parse_bind_of_ok (parse_peek _)] at h
  cases hs : Text.skipBlanks s with
  | nil =>
    rw [hs] at h
    cases h
  | cons c u =>
    rw [hs] at h
    cases h

/-- A text that must be read to its end ends too early only if what it is read as does. -/
theorem Completable.whole {r : Rule α} (h : r.Completable) : r.whole.Completable := by
  intro s hs
  have hr : r.EndsEarly s := by
    rcases endsEarly_bind_iff.mp hs with hr | ⟨a, t, _, hend⟩
    · exact hr
    · exact absurd (endsEarly_bind_pure_iff.mp hend) (not_endsEarly_endOfText t)
  obtain ⟨more, a, ha⟩ := h hr
  exact ⟨more, a, parse_whole_eq_ok_iff.mpr ⟨[], ha, rfl, rfl⟩⟩

theorem completable_identifier : identifier.Completable := by
  intro s hs
  rw [hs.of_identifier]
  exact ⟨['a'], _, parse_identifier_of_start (by decide)⟩

variable {limit n : Nat}

theorem completable_nested : (nested limit n).Completable := by
  intro s hs
  obtain ⟨more, e, he⟩ := exists_completion_nested hs
  exact ⟨more, e, (parse_nested_eq_ok_nil_iff limit).mpr he⟩

theorem completable_statement (hn : 0 < n) : (statement (nested limit n)).Completable := by
  rintro s ⟨what, hs⟩
  rw [statement, parse_bind_of_ok (parse_blanks s)] at hs
  -- there is only one form of a statement
  obtain ⟨b, hb, hf⟩ := (foremost_of_parse_firstOf hs).exists_mem
  obtain rfl := List.mem_singleton.mp hb
  have hskip : (instruction (nested limit n)).SkipsBlanks := skipsBlanks_blanks.bind _
  have hinstruction : (instruction (nested limit n)).EndsEarly (Text.skipBlanks s) :=
    ⟨what, parse_bind_pure_eq_error_iff.mp hf⟩
  obtain ⟨more, i, hi⟩ := exists_completion_instruction hn (hskip.endsEarly_iff.mp hinstruction)
  exact ⟨more, .instruction i, parse_statement_eq_ok_iff.mpr ⟨i, rfl, hi⟩⟩

end Rule

namespace Entry

/-- **A reading of any kind can be completed.** -/
theorem completable_rule (entry : Entry α) (limit : NestingLimit) :
    (entry.rule limit).Completable := by
  have hexpression : limit.expression.Completable := completable_nested
  have hstatement : (Rule.statement limit.expression).Completable :=
    completable_statement limit.levels_pos
  cases entry with
  | identifier => exact completable_identifier
  | label => exact completable_identifier.map _
  | expression => exact hexpression
  | assignment => exact fun _ => exists_completion_assignment limit.levels_pos
  | instruction => exact fun _ => exists_completion_instruction limit.levels_pos
  | statement => exact hstatement
  | wholeExpression => exact hexpression.whole
  | wholeStatement => exact hstatement.whole

end Entry

/-- What is reported as a text that ends too early is missing at the end of the text. -/
theorem Failure.Apt.eq_of_incomplete {f : Failure} (h : f.Apt) {message : String}
    {hint : Option String} (hd : f.fault.diagnosis = .incomplete message hint) :
    ∃ what, f = ⟨.missing what none, []⟩ := by
  cases h with
  | missing what s =>
    cases s with
    | nil => exact ⟨what, rfl⟩
    | cons c s => cases hd
  | trailing c s => cases hd
  | overflow radix lead early c late rest hdigits => cases hd
  | tooDeep limit s => cases hd

/-- **A text that is reported to end too early can be completed**, whatever it is read as: with some
more text behind it, it is read and nothing is left over. -/
theorem Entry.exists_completion (entry : Entry α) (limit : NestingLimit) (text : String)
    (report : Report) (message : String) (hint : Option String)
    (h : (entry.read limit text).result = .error report)
    (hd : report.diagnosis = .incomplete message hint) :
    ∃ more a, (entry.read limit (text ++ more)).result = .ok a ∧
      (entry.read limit (text ++ more)).rest = "" := by
  obtain ⟨f, hf, rfl⟩ := exists_failure_of_read h
  obtain ⟨hapt, _⟩ := entry.fails_rule limit hf
  obtain ⟨what, rfl⟩ := hapt.eq_of_incomplete hd
  obtain ⟨more, a, ha⟩ := entry.completable_rule limit ⟨what, hf⟩
  refine ⟨String.ofList more, a, read_eq_ok_iff.mpr ?_⟩
  rw [String.toList_append, String.toList_ofList]
  exact ha

/-- The argument is missing, and then both parentheses. -/
theorem Entry.exists_completion_call :
    (Entry.statement.read default "LDA (table($19, ").result =
        .error ⟨.incomplete "expected expression, got end of input" none, some 16,
          some "LDA (table($19, "⟩ ∧
      ∃ more x, (Entry.statement.read default ("LDA (table($19, " ++ more)).result = .ok x ∧
        (Entry.statement.read default ("LDA (table($19, " ++ more)).rest = "" := by
  have hread : (Entry.statement.read default "LDA (table($19, ").result =
      .error ⟨.incomplete "expected expression, got end of input" none, some 16,
        some "LDA (table($19, "⟩ := eq_error_of_error? (by decide +kernel)
  exact ⟨hread, Entry.exists_completion .statement default _ _ _ _ hread rfl⟩

end Asm65816
