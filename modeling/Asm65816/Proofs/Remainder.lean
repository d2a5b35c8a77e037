import Asm65816.Proofs.Statement.Exactness

/-!
# What is left over

A text that is an expression or a statement as a whole is still read as the same one when other text
stands behind it, and just that text is left over. The text behind must only not begin in a way that
could go on with the last token or with the construct: where it begins differently it is not looked
at any further, so it may hold anything.
-/

namespace Asm65816

open Rule

/-- A text that does not go on with an expression in front of it: neither with its last token, nor
with an operator, nor with the arguments of a function. -/
structure Detached (s : List Char) : Prop where
  /-- It does not begin with a blank. -/
  unspaced : Unspaced s
  /-- It does not begin with an operator. -/
  noOperator : NoOperator s
  /-- It does not begin with arguments. -/
  not_open : ∀ c ∈ s.head?, c ≠ '('
  /-- It does not begin with a character of a name or a number. -/
  not_continue : ∀ c ∈ s.head?, Text.isIdentifierContinue c = false

namespace Detached

variable {s : List Char}

theorem follows (h : Detached s) (w : Blanks) : Follows w s where
  unspaced := h.unspaced
  not_open := h.not_open
  apart := fun c hc hcontinue => by
    rw [h.not_continue c hc] at hcontinue
    cases hcontinue

theorem ends (h : Detached s) (hcomma : ∀ c ∈ s.head?, c ≠ ',') (w : Blanks) : Ends w s where
  toFollows := h.follows w
  noOperator := h.noOperator
  noComma := hcomma

end Detached

variable {limit n : Nat} {s t : List Char}

/-- An expression that is the whole of a text is read in front of another text too. -/
theorem parse_nested_append {e : Expression} (h : (nested limit n).parse s = .ok (e, []))
    (ht : Detached t) : (nested limit n).parse (s ++ t) = .ok (e, t) := by
  obtain ⟨d, rfl, rfl, hlevels, hfits⟩ := (parse_nested_eq_ok_nil_iff limit).mp h
  exact d.parse_nested limit hlevels hfits (ht.follows d.after) ht.noOperator

/-- An instruction that is the whole of a text is read in front of another text too. -/
theorem parse_instruction_append {i : Instruction}
    (h : (instruction (nested limit n)).parse s = .ok (i, [])) (ht : Detached t)
    (hcomma : ∀ c ∈ t.head?, c ≠ ',') :
    (instruction (nested limit n)).parse (s ++ t) = .ok (i, t) := by
  obtain ⟨d, rfl, hsays, hlevels, hfits, _⟩ :=
    Derivation.exists_instruction_of_parse h noOperator_nil
  rw [List.append_nil]
  exact d.parse hsays limit hlevels hfits (ht.ends hcomma d.operand.after)

/-- **Text behind does not change what is read**, and is left over as it is, unless it goes on with
the last token or the construct. Behind a statement it may not begin with a comma either. -/
theorem read_append_of_detached (limit : NestingLimit) (text more : String)
    (h : Detached more.toList) :
    (∀ e, parseExpression limit text = .ok e →
      (readExpression limit (text ++ more)).result = .ok e ∧
        (readExpression limit (text ++ more)).rest = more) ∧
    ((∀ c ∈ more.toList.head?, c ≠ ',') → ∀ x, parseStatement limit text = .ok x →
      (readStatement limit (text ++ more)).result = .ok x ∧
        (readStatement limit (text ++ more)).rest = more) := by
  constructor
  · intro e he
    have hparse := (parse_nested_eq_ok_nil_iff limit.levels).mpr (parseExpression_eq_ok_iff.mp he)
    have hmore := parse_nested_append hparse h
    rw [← String.toList_append] at hmore
    have hread := read_eq_ok_iff.mpr hmore
    rwa [String.ofList_toList] at hread
  · intro hcomma x hx
    obtain ⟨i, rfl, hparse⟩ := parseStatement_eq_ok_iff_parse.mp hx
    have hmore := parse_instruction_append hparse h hcomma
    rw [← String.toList_append] at hmore
    have hread := read_eq_ok_iff.mpr (parse_statement_eq_ok_iff.mpr ⟨i, rfl, hmore⟩)
    rwa [String.ofList_toList] at hread

/-- A comment is left over, whatever it holds. -/
theorem read_append_of_detached_comment :
    ((readExpression default ("a + 1 " ++ "; (((")).result =
        .ok (.binary .add (.reference (.named "a")) (.number 1 .none)) ∧
      (readExpression default ("a + 1 " ++ "; (((")).rest = "; (((") ∧
    (readStatement { levels := 2 } ("LDA (1,s),y" ++ "]99999999999")).result = .ok (.instruction
        { mnemonic := "LDA"
          size := none
          operand := { mode := .stackIndirectY, value := .number 1 .none, second := none } }) ∧
      (readStatement { levels := 2 } ("LDA (1,s),y" ++ "]99999999999")).rest = "]99999999999" := by
  have hsigns : ∀ (c : Char) (s : List Char), c = ';' ∨ c = ']' → Detached (c :: s) := by
    rintro c s (rfl | rfl) <;>
      exact ⟨unspaced_cons s (by decide), noOperator_cons s (by decide), by simp, by simp; decide⟩
  constructor
  · exact (read_append_of_detached default "a + 1 " "; (((" (hsigns _ _ (.inl rfl))).1 _
      (eq_ok_of_toOption (by decide +kernel))
  · exact (read_append_of_detached { levels := 2 } "LDA (1,s),y" "]99999999999"
      (hsigns _ _ (.inr rfl))).2 (by rintro c ⟨⟩; decide) _ (eq_ok_of_toOption (by decide +kernel))

end Asm65816
