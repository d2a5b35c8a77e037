import Asm65816.Proofs.Grammar.Exactness
import Asm65816.Proofs.Grammar.Subexpression

/-!
# Nesting that is too deep

A text that would be an expression but for its nesting is read if no expression in it lies below the
limit. Otherwise the first one just below the limit is what is reported, whatever stands around it:
no form and no shorter chain takes its place.
-/

namespace Asm65816

open Asm65816.Derivation

/-- **Nesting that is too deep is always reported**, at the first expression in the text that lies
one level below the limit. -/
theorem parseExpression_tooDeep (limit : NestingLimit) (text : String) (d : Spaced)
    (htext : d.text = text.toList) (hfits : d.Fits) :
    ((∀ x ∈ d.subexpressions 1 [], x.level ≤ limit.levels) →
      parseExpression limit text = .ok d.tree) ∧
    ((∃ x ∈ d.subexpressions 1 [], limit.levels < x.level) → ∃ x front,
      x ∈ d.subexpressions 1 [] ∧ x.level = limit.levels + 1 ∧
        (∀ y ∈ d.subexpressions 1 [], y.level = limit.levels + 1 → y.start <:+ x.start) ∧
        text.toList = front ++ x.start ∧
        parseExpression limit text = .error
          { diagnosis := .tooDeep limit.levels
            position := some front.length
            source := some text }) := by
  constructor
  · intro hall
    have hlevels := (d.levels_le_iff 1 []).mp hall
    exact parseExpression_eq_ok_iff.mpr ⟨d, htext, rfl, by omega, hfits⟩
  · rintro ⟨deep, hdeep, hlt⟩
    have hlevels : limit.levels < d.levels := by
      by_contra hle
      have hall := (d.levels_le_iff 1 [] (m := limit.levels)).mpr (by omega)
      exact absurd (hall deep hdeep) (Nat.not_le_of_lt hlt)
    obtain ⟨x, hx⟩ := d.exists_find?_of_lt_levels [] hlevels hfits
    have hparse := d.parse_of_tooDeep limit.levels hfits (follows_nil d.after) noOperator_nil hx
    have horder := d.subexpressions_inOrder 1 []
    rw [List.append_nil, htext] at hparse horder
    have hmem := List.mem_of_find?_eq_some hx
    obtain ⟨front, hfront⟩ := horder.suffix hmem
    have hlevel : x.level = limit.levels + 1 := by simpa using List.find?_some hx
    refine ⟨x, front, hmem, hlevel, fun y hy hlevel => ?_, hfront.symm, ?_⟩
    · exact horder.suffix_of_find? hx hy (by simpa using hlevel)
    · have hread : (limit.expression.whole.read text).result = _ :=
        Rule.read_result_of_error (Rule.parse_bind_of_error hparse)
      exact hread.trans (congrArg Except.error (report_of_append hfront.symm _))

/-- The parentheses count though they change nothing, and those behind the first name do not. -/
theorem parseExpression_tooDeep_redundant :
    ∃ (d : Spaced) (x : Subexpression), d.text = "g( )*f(((x)), ((y)))".toList ∧
      x ∈ d.subexpressions 1 [] ∧ x.level = 4 ∧ x.start = "x)), ((y)))".toList ∧
      parseExpression { levels := 3 } "g( )*f(((x)), ((y)))" = .error
        { diagnosis := .tooDeep 3
          position := some 9
          source := some "g( )*f(((x)), ((y)))" } := by
  let group (before : Blanks) (e : Spaced) : Spaced :=
    .mk before (.term (.primary (.group e))) .none
  let name (c : Char) (h : Text.isIdentifierStart c = true) : Spaced :=
    .mk .none (.term (.primary (.reference (.leading h [])))) .none
  let d : Spaced := .mk .none (.term (.join
    (.primary (.emptyCall (.leading (c := 'g') rfl []) .none .space)) .none .mul (.inl rfl) .none
    (.call (.leading (c := 'f') rfl []) .none
      (.snoc (.one (group .none (group .none (name 'x' rfl))))
        (group .space (group .none (name 'y' rfl))))))) .none
  have htext : d.text = "g( )*f(((x)), ((y)))".toList := by decide
  obtain ⟨x, front, hx, hlevel, _, hfront, hparse⟩ :=
    (parseExpression_tooDeep { levels := 3 } _ d htext ⟨trivial, trivial, trivial⟩).2 (by decide)
  -- the position is that of the actual report
  have hread : parseExpression { levels := 3 } "g( )*f(((x)), ((y)))" = .error
      { diagnosis := .tooDeep 3
        position := some 9
        source := some "g( )*f(((x)), ((y)))" } := eq_error_of_error? (by decide +kernel)
  have hreport := hparse.symm.trans hread
  simp only [Except.error.injEq, Report.mk.injEq, Option.some.injEq] at hreport
  have hstart : "x)), ((y)))".toList = x.start := by
    have hdrop : (front ++ x.start).drop front.length = x.start := List.drop_left
    rw [← hdrop, ← hfront, hreport.2.1]
    decide
  exact ⟨d, x, htext, hx, hlevel, hstart.symm, hread⟩

end Asm65816
