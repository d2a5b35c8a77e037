import Asm65816.Proofs.Entry
import Asm65816.Proofs.Reading
import Asm65816.Proofs.Rule.Agreement

/-!
# What the limit on nesting decides

The limit decides whether a text nests too deep, and nothing else. A reading that does not fail for
that reason stays as it is when the limit is raised: neither a form that is chosen, nor what is left
over, nor the failure that is reported depends on how much room there is.
-/

namespace Asm65816

variable {α : Type}

/-- Rules that agree make the same of a text, unless the first finds nesting too deep. -/
theorem Rule.Agrees.read {r r' : Rule α} (h : r.Agrees r') {text : String}
    (hs : ∀ report, (r.read text).result = .error report →
      ∀ levels, report.diagnosis ≠ .tooDeep levels) :
    r'.read text = r.read text := by
  have ho : ¬(r.run text.toList).IsTooDeep := by
    rintro ⟨⟨fault, rest⟩, hf, hd⟩
    cases fault with
    | tooDeep limit =>
      exact hs _ (read_result_of_error (parse_eq_error_iff.mpr hf)) limit rfl
    | _ => cases hd
  rw [Rule.read, Rule.read, h text.toList ho]

namespace Entry

theorem agrees_rule (entry : Entry α) {limit limit' : NestingLimit}
    (h : limit.levels ≤ limit'.levels) : (entry.rule limit).Agrees (entry.rule limit') := by
  have hexpression : limit.expression.Agrees limit'.expression :=
    Rule.agrees_nested h limit.levels limit'.levels
  rw [rule_eq_ruleWith, rule_eq_ruleWith]
  exact Rule.congruence_agrees.entry hexpression entry

/-- **A greater limit changes no reading but one that nests too deep.** -/
theorem read_of_levels_le (entry : Entry α) {limit limit' : NestingLimit}
    (h : limit.levels ≤ limit'.levels) {text : String}
    (hs : ∀ report, (entry.read limit text).result = .error report →
      ∀ levels, report.diagnosis ≠ .tooDeep levels) :
    entry.read limit' text = entry.read limit text :=
  (entry.agrees_rule h).read hs

/-- Four forms are tried in vain, and the second level is the last one that is needed. -/
theorem read_of_levels_le_group :
    instruction.read { levels := 5 } "lda (a)*2" = instruction.read { levels := 2 } "lda (a)*2" :=
  read_of_levels_le instruction (by decide) fun report h => by
    have hread : (instruction.read { levels := 2 } "lda (a)*2").result.toOption.isSome = true := by
      decide +kernel
    rw [h] at hread
    cases hread

end Entry

end Asm65816
