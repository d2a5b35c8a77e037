import Asm65816.Proofs.Grammar.Extension
import Asm65816.Proofs.Grammar.Placement
import Asm65816.Proofs.Rule.Standing

/-!
# Where the rules of the grammar stand after a failure

Nesting too deep is never given back, so that wherever it arises, all the rules around it stand
there. After any other failure a choice goes back, and with it every rule that begins with one: a
primary and a statement go back behind the blanks in front, and an operand goes back even over
these.

An expression may fail in its first operand, from which it goes back, or in a later one. Then it
stands before that operand, and the failure is in it.
-/

namespace Asm65816.Rule

variable {α β : Type}

/-! ## Nesting too deep -/

/-- Where expressions nest too deep, the rule stands. -/
def HaltsInPlace (r : Rule α) : Prop := r.Stands fun f t => f.fault.isTooDeep = true → t = f.rest

/-- A rule halts in its place if its failures are other ones. -/
theorem Fails.haltsInPlace {r : Rule α} (h : r.Fails fun f => f.fault.isTooDeep = false) :
    r.HaltsInPlace :=
  h.stands fun _ _ hf hd => absurd (hf.symm.trans hd) Bool.false_ne_true

theorem Total.haltsInPlace {r : Rule α} (h : r.Total) : r.HaltsInPlace :=
  (h.fails _).haltsInPlace

theorem haltsInPlace_fail (fault : Option Char → Fault) : (fail fault : Rule α).HaltsInPlace := by
  intro s f hf _
  cases hf
  rfl

theorem haltsInPlace_expect (chars : List Char) (what : String) :
    (expect chars what).HaltsInPlace := by
  refine (total_token? _).haltsInPlace.bind fun c? => ?_
  cases c? with
  | some c => exact (total_pure c).haltsInPlace
  | none => exact total_blanks.haltsInPlace.bind fun _ => haltsInPlace_fail _

theorem haltsInPlace_identifier : identifier.HaltsInPlace := by
  refine Fails.haltsInPlace fun s f hf => ?_
  rw [eq_of_parse_identifier hf]
  rfl

theorem haltsInPlace_digits (radix : Radix) (what : String) (lead : List Char) :
    (digits radix what lead).HaltsInPlace := by
  refine Fails.haltsInPlace fun s f hf => ?_
  rcases begins_or radix.isDigit s with ⟨c, u, rfl, hdigit⟩ | hnot
  · rw [parse_digits_cons hdigit] at hf
    split at hf
    · cases hf
    · cases hf
      rfl
  · rw [parse_digits_of_not_digit hnot] at hf
    cases hf
    rfl

theorem haltsInPlace_noOperator : noOperator.HaltsInPlace := by
  refine total_peek.haltsInPlace.bind fun c? => ?_
  cases c? with
  | none => exact (total_pure _).haltsInPlace
  | some c =>
    dsimp only
    split
    · exact haltsInPlace_fail _
    · exact (total_pure _).haltsInPlace

theorem haltsInPlace_endOfText : endOfText.HaltsInPlace := by
  refine total_blanks.haltsInPlace.bind fun _ => total_peek.haltsInPlace.bind fun c? => ?_
  cases c? with
  | some c => exact haltsInPlace_fail _
  | none => exact (total_pure ()).haltsInPlace

theorem HaltsInPlace.whole {r : Rule α} (h : r.HaltsInPlace) : r.whole.HaltsInPlace :=
  h.bind fun a => haltsInPlace_endOfText.bind fun _ => (total_pure a).haltsInPlace

/-- A choice halts in its place if every form does. -/
theorem HaltsInPlace.firstOf {branches : List (Branch α)} {hne : branches ≠ []}
    (h : ∀ b ∈ branches, b.rule.HaltsInPlace) : (firstOf branches hne).HaltsInPlace := by
  intro s f hf hd
  cases haltedChoice hf with
  | back hpassed _ => exact absurd (hpassed.symm.trans hd) Bool.false_ne_true
  | inside hb hform _ hplace => exact hplace.trans (h _ hb hform hd)

/-- **Wherever in the grammar expressions nest too deep, the rule stands there.** -/
theorem compositional_haltsInPlace : Compositional HaltsInPlace where
  total h _ := h.haltsInPlace
  bind h hnext := h.bind hnext
  attempt h := h.attempt
  follow h a := Stands.follow h a
  firstOf h := HaltsInPlace.firstOf fun b hb => (h b hb).1
  expect := haltsInPlace_expect
  identifier hnext := total_blanks.haltsInPlace.bind fun _ => haltsInPlace_identifier.bind hnext
  decimal := total_blanks.haltsInPlace.bind fun _ => (haltsInPlace_digits _ _ _).bind fun _ =>
    (total_pure _).haltsInPlace
  hexadecimal := (haltsInPlace_expect _ _).bind fun _ => (haltsInPlace_digits _ _ _).bind fun _ =>
    (total_pure _).haltsInPlace
  beginning h := by
    refine total_blanks.haltsInPlace.bind fun _ => total_peek.haltsInPlace.bind fun c? => ?_
    split
    · exact h
    · exact haltsInPlace_fail _
  tooDeep _ := total_blanks.haltsInPlace.bind fun _ => haltsInPlace_fail _

theorem HaltsInPlace.operandForm {inner : Rule Expression} (h : inner.HaltsInPlace)
    (form : OperandForm) : (operandForm inner form).HaltsInPlace :=
  compositional_haltsInPlace.operandForm h fun _ => haltsInPlace_noOperator

theorem HaltsInPlace.operand {inner : Rule Expression} (h : inner.HaltsInPlace) :
    (operand inner).HaltsInPlace := by
  refine HaltsInPlace.firstOf fun b hb => ?_
  obtain ⟨form, _, rfl⟩ := List.mem_map.mp hb
  exact h.operandForm form

/-! ## Going back -/

/-- A rule that, after certain failures, goes back to its beginning, but not over the blanks. -/
def GoesBack (r : Rule α) (P : Fault → Prop) : Prop :=
  ∀ ⦃s f⦄, (r.run s).result = .error f → P f.fault → (r.run s).rest = Text.skipBlanks s

section

variable {inner : Rule Expression}

theorem goesBack_primary : (primary inner).GoesBack (·.isTooDeep = false) := by
  intro s f hf hd
  rw [primary, run_blanks_then, run_peek_then] at hf ⊢
  split at hf
  · rename_i hbegins
    simp only [hbegins, if_true] at hf ⊢
    exact rest_firstOf hf hd
  · rename_i hbegins
    simp only [hbegins]
    rfl

theorem goesBack_statement : (statement inner).GoesBack (·.isTooDeep = false) :=
  fun _ _ hf hd => rest_firstOf hf hd

/-- An operand goes back over the blanks, too. -/
theorem rest_operand {s : List Char} {f : Failure} (hf : ((operand inner).run s).result = .error f)
    (hd : f.fault.isTooDeep = false) : ((operand inner).run s).rest = s :=
  rest_firstOf hf hd

/-- A chain that fails softly has no first operand. -/
theorem GoesBack.chain {operator? : Char → Option Operator} {operand : Rule Expression}
    (h : operand.GoesBack (·.isSoft = true)) :
    (chain operator? operand).GoesBack (·.isSoft = true) := by
  intro s f hf hsoft
  have hoperand := parse_of_chain_soft (parse_eq_error_iff.mpr hf) hsoft
  have hfirst := parse_eq_error_iff.mp hoperand
  rw [chain_eq, (run_bind_of_error hfirst _).2]
  exact h hfirst hsoft

theorem goesBack_term : (term inner).GoesBack (·.isSoft = true) :=
  GoesBack.chain fun _ _ hf hsoft => goesBack_primary hf (Fault.isTooDeep_of_isSoft hsoft)

theorem goesBack_nested (limit n : Nat) : (nested limit n).GoesBack (·.isSoft = true) := by
  intro s f hf hsoft
  cases n with
  | zero =>
    cases hf
    cases hsoft
  | succ n =>
    have hsum : ((sum (nested limit n)).run (Text.skipBlanks s)).rest = _ :=
      goesBack_term.chain hf hsoft
    exact hsum.trans (Text.skipBlanks_skipBlanks s)

/-! ## Before the failure -/

/-- A primary never stands behind its failure. -/
theorem stands_primary (h : inner.HaltsInPlace) :
    (primary inner).Stands fun f t => f.rest <:+ t := by
  intro s f hf
  cases hd : f.fault.isTooDeep with
  | true => exact compositional_haltsInPlace.primary h hf hd ▸ List.suffix_refl _
  | false =>
    rw [goesBack_primary hf hd]
    exact (within_blanks_then _ s).failure_suffix f hf

theorem stands_nested (limit n : Nat) : (nested limit n).Stands fun f t => f.rest <:+ t := by
  intro s f hf
  cases n with
  | zero =>
    cases hf
    exact List.suffix_refl _
  | succ n => exact (stands_primary (compositional_haltsInPlace.nested limit n)).chain.chain hf

/-- The blanks in front are read whatever comes of it. -/
theorem rest_nested_suffix (limit n : Nat) (s : List Char) :
    ((nested limit n).run s).rest <:+ Text.skipBlanks s := by
  cases n with
  | zero => exact List.suffix_refl _
  | succ n => exact (within_blanks_then _ s).rest_suffix

end

end Asm65816.Rule
