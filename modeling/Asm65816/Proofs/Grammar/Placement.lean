import Asm65816.Proofs.Grammar.Composition
import Asm65816.Proofs.Grammar.Primary

/-!
# Where failures arise

There are few places in the grammar where a failure arises: a sign or the beginning of something is
missing behind the blanks, a literal is too great, expressions nest too deep. Everything else hands
failures on as they are. So a property that the failures have where they arise is a property of
every failure of every rule.

An operator behind an operand in parentheses is a reason of its own to refuse the form `(e)`. It
never comes out of the choice between the forms: the form `(e),y` has missed its comma in the same
place before.

The character that a fault names, for one, is always the character that stands at the place of the
failure.
-/

namespace Asm65816

namespace Rule

variable {α β : Type} {P : Failure → Prop}

/-- A property of all failures where they arise. -/
structure Elementary (P : Failure → Prop) : Prop where
  /-- Something is missing behind the blanks. -/
  missing (what : String) {s : List Char} : Unspaced s → P ⟨.missing what s.head?, s⟩
  /-- The digits of a literal take its value over the bound, from a certain one on. -/
  overflow (radix : Radix) (lead early : List Char) (c : Char) (late rest : List Char) :
    (∀ d ∈ early ++ c :: late, radix.isDigit d = true) →
      P ⟨.overflow (String.ofList (lead ++ (early ++ c :: late))), c :: late ++ rest⟩
  /-- An expression begins below the last level. -/
  tooDeep (limit : Nat) {s : List Char} : Unspaced s → P ⟨.tooDeep limit, s⟩

section Elementary

variable (hP : Elementary P)

include hP

theorem Elementary.expect (chars : List Char) (what : String) : (expect chars what).Fails P := by
  intro s f hf
  cases h : nextToken? (oneOf chars) s with
  | some x =>
    rw [parse_expect_of_some h] at hf
    cases hf
  | none =>
    rw [parse_expect_of_none h] at hf
    cases hf
    exact hP.missing what (unspaced_skipBlanks s)

/-- A name is missed behind the blanks. -/
theorem Elementary.identifier {next : String → Rule β} (hnext : ∀ name, (next name).Fails P) :
    (blanks >>= fun _ => identifier >>= next).Fails P := by
  intro s f hf
  rw [parse_bind_of_ok (parse_blanks s)] at hf
  rcases parse_bind_eq_error_iff.mp hf with hname | ⟨name, t, _, hn⟩
  · rw [eq_of_parse_identifier hname]
    exact hP.missing "identifier" (unspaced_skipBlanks s)
  · exact hnext name hn

/-- Digits are missed, or are too many. -/
theorem Elementary.digits {radix : Radix} {what : String} {lead s : List Char} {f : Failure}
    (hs : Unspaced s) (h : (digits radix what lead).parse s = .error f) : P f := by
  rcases begins_or radix.isDigit s with ⟨c, u, rfl, hdigit⟩ | hnot
  · rw [parse_digits_cons hdigit] at h
    split at h
    · cases h
    · rename_i late hlate
      cases h
      obtain ⟨early, hrun⟩ := Radix.readFrom_suffix hlate
      obtain ⟨d, late, rfl⟩ := List.exists_cons_of_ne_nil (Radix.ne_nil_of_readFrom hlate)
      rw [← hrun]
      refine hP.overflow radix lead early d late _ ?_
      intro e he
      rw [hrun] at he
      exact (DigitRun.leading hdigit u).all_digits e he
  · rw [parse_digits_of_not_digit hnot] at h
    cases h
    exact hP.missing what hs

theorem Elementary.decimal : decimal.Fails P := by
  intro s f hf
  rw [Rule.decimal, parse_bind_of_ok (parse_blanks s)] at hf
  exact hP.digits (unspaced_skipBlanks s) (parse_bind_pure_eq_error_iff.mp hf)

theorem Elementary.hexadecimal : hexadecimal.Fails P := by
  intro s f hf
  rcases parse_bind_eq_error_iff.mp hf with hsign | ⟨c, t, hsign, hdigits⟩
  · exact hP.expect _ _ hsign
  · obtain ⟨u, _, _, rfl⟩ := parse_expect_eq_ok_iff.mp hsign
    exact hP.digits (unspaced_skipBlanks u) (parse_bind_pure_eq_error_iff.mp hdigits)

/-- **A property of the failures where they arise is one of every failure in the grammar.** -/
theorem Elementary.compositional : Compositional fun r => r.Fails P where
  total h _ := h.fails P
  bind h hnext := h.bind hnext
  attempt h := h.attempt
  follow h a := Fails.follow h a
  firstOf h := Fails.firstOf fun b hb => (h b hb).1
  expect := hP.expect
  identifier hnext := hP.identifier hnext
  decimal := hP.decimal
  hexadecimal := hP.hexadecimal
  beginning h := by
    intro s f hf
    rw [parse_bind_of_ok (parse_blanks s), parse_bind_of_ok (parse_peek _)] at hf
    split at hf
    · exact h hf
    · cases hf
      exact hP.missing _ (unspaced_skipBlanks s)
  tooDeep limit := by
    intro s f hf
    rw [Rule.nested, parse_bind_of_ok (parse_blanks s)] at hf
    cases hf
    exact hP.tooDeep limit (unspaced_skipBlanks s)

theorem Elementary.nested (limit n : Nat) : (nested limit n).Fails P :=
  hP.compositional.nested limit n

variable {inner : Rule Expression} (h : inner.Fails P)

include h

theorem Elementary.primary : (primary inner).Fails P := hP.compositional.primary h

/-! ## Operands -/

theorem Elementary.operandForm {form : OperandForm} (hform : form ≠ .indirect) :
    (operandForm inner form).Fails P :=
  hP.compositional.operandForm h fun hindirect => absurd hindirect hform

omit hP h in
/-- Where the form `(e)` fails, the form `(e),y` fails too: for the same reason, or because the
operator stands in the place of the comma. -/
theorem parse_indirectY_of_indirect {s : List Char} {f : Failure}
    (hf : (Rule.operandForm inner .indirect).parse s = .error f) :
    (Rule.operandForm inner .indirectY).parse s = .error f ∨
      ∃ c u, f = ⟨.operatorAfterIndirect c, c :: u⟩ ∧
        (Rule.operandForm inner .indirectY).parse s = .error ⟨.missing "','" (some c), c :: u⟩ := by
  simp only [Rule.operandForm, parse_bind_pure_eq_error_iff, operandExpressions] at hf ⊢
  rcases parse_bind_eq_error_iff.mp hf with hopen | ⟨value, t, hopen, hf⟩
  · exact .inl (parse_bind_of_error hopen)
  rw [parse_bind_of_ok hopen]
  rcases parse_bind_eq_error_iff.mp hf with hclose | ⟨_, u, hclose, hf⟩
  · exact .inl (parse_bind_of_error hclose)
  rw [parse_bind_of_ok hclose]
  have hoperator := parse_bind_pure_eq_error_iff.mp hf
  rw [noOperator, parse_bind_of_ok (parse_peek u)] at hoperator
  cases u with
  | nil => cases hoperator
  | cons c u =>
    dsimp only [List.head?_cons] at hoperator
    split at hoperator
    · rename_i hc
      cases hoperator
      have hskip : Text.skipBlanks (c :: u) = c :: u := by
        obtain ⟨d, v, hd, hpure⟩ := parse_bind_eq_ok_iff.mp hclose
        obtain ⟨w, _, _, rfl⟩ := parse_expect_eq_ok_iff.mp hd
        rw [← (eq_of_parse_pure hpure).2, Text.skipBlanks_skipBlanks]
      -- no operator is the comma that the other form requires
      have hcomma : ∀ d ∈ (Text.skipBlanks (c :: u)).head?, d ∉ [','] := by
        rw [hskip]
        intro d hd hmem
        cases hd
        rw [List.mem_singleton.mp hmem] at hc
        exact absurd hc (by decide)
      have hmissing : (expect [','] "','").parse (c :: u) = _ := parse_expect_of_not_mem hcomma
      rw [hskip] at hmissing
      exact .inr ⟨c, u, rfl, parse_bind_of_error (parse_bind_of_error hmissing)⟩
    · cases hoperator

/-- An operand fails in one of its forms, and never because of an operator behind the form `(e)`. -/
theorem Elementary.operand : (operand inner).Fails P := by
  intro s f hf
  cases foremost_of_parse_firstOf hf with
  | here hfirst => exact hP.operandForm h (by decide) hfirst
  | later hg hlt hothers =>
    cases hothers with
    | here hindirect =>
      -- the form in front of it has failed in the same place
      rcases parse_indirectY_of_indirect hindirect with hsame | ⟨c, u, rfl, hcomma⟩
      · exact hP.operandForm h (by decide) hsame
      · have heq := hg.1.symm.trans hcomma
        cases heq
        exact absurd (hlt rfl) (Nat.lt_irrefl _)
    | later _ _ hothers =>
      obtain ⟨b, hb, hfail⟩ := hothers.exists_mem
      have hb : b ∈ (OperandForm.all.drop 2).map (operandBranch inner) := hb
      obtain ⟨form, hform, rfl⟩ := List.mem_map.mp hb
      refine hP.operandForm h ?_ hfail
      rintro rfl
      exact absurd hform (by decide)

theorem Elementary.instruction : (instruction inner).Fails P :=
  hP.compositional.instruction (hP.operand h) fun _ _ => (total_record _).fails P

theorem Elementary.assignment : (assignment inner).Fails P := hP.compositional.assignment h

theorem Elementary.statement : (statement inner).Fails P :=
  hP.compositional.statement (hP.operand h) fun _ _ => (total_record _).fails P

end Elementary

end Rule

/-! ## The character that a fault names -/

/-- The character that a fault names, if it names any, is the first one of the text. -/
def Fault.Names : Fault → List Char → Prop
  | missing _ found, s => found = s.head?
  | trailing c, s | operatorAfterIndirect c, s => s.head? = some c
  | overflow _, _ | tooDeep _, _ => True

/-- What is soft and stands at the end of the text is that something is missing there. -/
theorem Fault.Names.eq_missing {fault : Fault} (h : fault.Names []) (hs : fault.isSoft = true) :
    ∃ what, fault = .missing what none := by
  cases fault with
  | missing what found => exact ⟨what, congrArg _ h⟩
  | trailing c | operatorAfterIndirect c => cases h
  | overflow literal | tooDeep limit => cases hs

theorem Rule.elementary_names : Elementary fun f => f.fault.Names f.rest where
  missing := fun _ _ _ => rfl
  overflow := fun _ _ _ _ _ _ _ => trivial
  tooDeep := fun _ _ _ => trivial

namespace Rule

variable {α : Type}

/-- Every failure of a rule names the character where it stands. -/
def Placed (r : Rule α) : Prop := ∀ ⦃s f⦄, r.parse s = .error f → f.fault.Names f.rest

theorem placed_nested (limit n : Nat) : (nested limit n).Placed := elementary_names.nested limit n

theorem placed_statement {inner : Rule Expression} (h : inner.Placed) : (statement inner).Placed :=
  elementary_names.statement h

end Rule

end Asm65816
