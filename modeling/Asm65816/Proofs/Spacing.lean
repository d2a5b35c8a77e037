import Asm65816.Proofs.Grammar.Respaced
import Asm65816.Proofs.Reading
import Asm65816.Proofs.Statement.Instruction

/-!
# Blanks do not matter

Between any two tokens there may be blanks or none, unless two names or numbers would run together
without them. A text is read as the same expression, or the same statement, either way.

What a text fails with may be another failure, but only among those of the forms of an operand.
-/

namespace Asm65816

open Rule

variable {w : Blanks} {α β : Type}

/-! ## Names and literals -/

theorem Respaced.alike_identifier {s s' : List Char} (h : Respaced w s s') :
    Alike w Eq (identifier.parse s) (identifier.parse s') := by
  rcases begins_or Text.isIdentifierStart s with ⟨c, t, rfl, hstart⟩ | hnot
  · have hword : c = '!' ∨ Text.isIdentifierContinue c = true := by
      by_cases hbang : c = '!'
      · exact .inl hbang
      · exact .inr (Text.isIdentifierContinue_of_isIdentifierStart hstart hbang)
    obtain ⟨t', rfl, hrun, ht⟩ := h.exists_run (fun _ hd => hd) hword
    rw [parse_identifier_of_start hstart, parse_identifier_of_start hstart, hrun]
    exact .ok ht
  · rw [parse_identifier_of_not_start hnot,
      parse_identifier_of_not_start (by rwa [← h.head?_eq]), h.head?_eq]
    exact .error rfl

theorem Respaced.alike_digits {s s' : List Char} (h : Respaced w s s') (radix : Radix)
    (what : String) (lead : List Char) :
    Alike w Eq ((Rule.digits radix what lead).parse s)
      ((Rule.digits radix what lead).parse s') := by
  rcases begins_or radix.isDigit s with ⟨c, t, rfl, hdigit⟩ | hnot
  · obtain ⟨t', rfl, hrun, ht⟩ := h.exists_run
      (fun _ hd => Text.isIdentifierContinue_of_isDigit hd)
      (.inr (Text.isIdentifierContinue_of_isDigit hdigit))
    rw [parse_digits_cons hdigit, parse_digits_cons hdigit, hrun]
    cases radix.read maxNumber (c :: t'.takeWhile radix.isDigit) with
    | ok value => exact .ok ht.skipBlanks
    | error late => exact .error rfl
  · rw [parse_digits_of_not_digit hnot, parse_digits_of_not_digit (by rwa [← h.head?_eq]),
      h.head?_eq]
    exact .error rfl

namespace Rule

theorem blind_identifier {next : String → Rule β} {same : Fault → Fault → Prop}
    (hsame : ∀ f, same f f) (h : ∀ name, (next name).Blind w same) :
    (blanks >>= fun _ => identifier >>= next).Blind w same :=
  blind_blanks_then fun hs => alike_bind (hs.alike_identifier.mono fun f _ hf => hf ▸ hsame f) h

theorem blind_decimal : decimal.Blind w Eq :=
  blind_blanks_then fun hs => alike_bind (hs.alike_digits _ _ _) fun _ => blind_pure _

theorem blind_hexadecimal : hexadecimal.Blind w Eq :=
  blind_expect_then fun _ _ _ hs => alike_bind (hs.alike_digits _ _ _) fun _ => blind_pure _

/-! ## Expressions -/

section

variable {inner : Rule Expression} (h : inner.Blind w Eq)

include h

theorem Blind.chain (operator? : Char → Option Operator) :
    (chain operator? inner).Blind w Eq := by
  refine h.bind fun first => blind_follow (fun o a s s' hs => ?_) first
  rcases (h.attempt hs).cases with ⟨b, u, u', hb, hb', hu⟩ | ⟨u, u', hu, hu'⟩ |
    ⟨f, f', hf, hf', hfault⟩
  · rw [parse_bind_of_ok hb, parse_bind_of_ok hb']
    exact .next hu
  · rw [parse_bind_of_ok hu, parse_bind_of_ok hu']
    exact .giveBack
  · rw [parse_bind_of_error hf, parse_bind_of_error hf']
    exact .error hfault

theorem Blind.group : (group inner).Blind w Eq :=
  (blind_expect _ _).bind fun _ => h.bind fun _ => (blind_expect _ _).bind fun _ => blind_pure _

theorem Blind.arguments : (arguments inner).Blind w Eq := by
  refine (blind_token? _).bind fun close => ?_
  cases close with
  | some _ => exact blind_pure _
  | none =>
    refine h.bind fun first => Blind.bind ?_ fun _ => (blind_expect _ _).bind fun _ => blind_pure _
    exact blind_follow (fun _ _ _ _ hs => (h.bind (fun _ => blind_pure _) hs).round) [first]

theorem Blind.name : (name inner).Blind w Eq := by
  refine blind_identifier (fun _ => rfl) fun _ => (blind_token? _).bind fun opening => ?_
  cases opening with
  | some _ => exact (Blind.arguments h).bind fun _ => blind_pure _
  | none => exact blind_blanks.bind fun _ => blind_pure _

theorem Blind.primary : (primary inner).Blind w Eq := by
  refine (skipsBlanks_primary inner).blind fun {s s'} hs hs' hgap => ?_
  -- the first character settles the form in both texts
  cases primaryStart s with
  | opening =>
    obtain ⟨t', rfl, _⟩ := hgap.exists_cons
    rw [parse_primary_open, parse_primary_open]
    exact Blind.group h hgap.behind
  | digit hdigit =>
    obtain ⟨t', rfl, _⟩ := hgap.exists_cons
    rw [parse_primary_digit hdigit, parse_primary_digit hdigit]
    exact blind_decimal hgap.behind
  | dollar =>
    obtain ⟨t', rfl, _⟩ := hgap.exists_cons
    rw [parse_primary_dollar, parse_primary_dollar]
    exact blind_hexadecimal hgap.behind
  | start hstart =>
    obtain ⟨t', rfl, _⟩ := hgap.exists_cons
    rw [parse_primary_start hstart, parse_primary_start hstart]
    exact Blind.name h hgap.behind
  | nothing hnot =>
    rw [parse_primary_of_not_begins hs hnot,
      parse_primary_of_not_begins hs' (by rwa [← hgap.head?_eq]), hgap.head?_eq]
    exact .error rfl

end

/-- **Blanks between the tokens of an expression do not matter.** -/
theorem blind_nested (limit n : Nat) : (nested limit n).Blind w Eq := by
  induction n with
  | zero => exact blind_blanks_then fun _ => .error rfl
  | succ n ih => exact blind_blanks.bind fun _ => ((ih.primary).chain _).chain _

/-! ## Statements -/

theorem blind_commaY : commaY.Blind w Eq :=
  (blind_expect _ _).bind fun _ => (blind_expect _ _).bind fun _ => blind_pure _

theorem blind_closeParenthesis : closeParenthesis.Blind w Eq :=
  (blind_expect _ _).bind fun _ => blind_pure _

/-- The operator that is looked for would stand right behind the blanks. -/
theorem blind_closeParenthesis_noOperator (a : α) :
    (closeParenthesis >>= fun _ => noOperator >>= fun _ => pure a).Blind w Eq := by
  rw [closeParenthesis, bind_assoc]
  refine blind_expect_then fun _ t t' ht => ?_
  rw [pure_bind]
  refine alike_bind ?_ fun _ => blind_pure _
  rw [noOperator, parse_bind_of_ok (parse_peek t), parse_bind_of_ok (parse_peek t'), ht.head?_eq]
  cases t'.head? with
  | none => exact .ok ht.behind
  | some c =>
    dsimp only
    split
    · exact .error rfl
    · exact .ok ht.behind

theorem blind_size? : size?.Blind w Eq := by
  refine Blind.backIfNone ((blind_token? _).bind fun point => ?_)
  cases point with
  | some _ => exact blind_token? _
  | none => exact blind_pure _

section

variable {inner : Rule Expression} (h : inner.Blind w Eq)

include h

theorem Blind.openParenthesis : (openParenthesis inner).Blind w Eq :=
  (blind_expect _ _).bind fun _ => h

theorem Blind.brackets : (brackets inner).Blind w Eq :=
  (blind_expect _ _).bind fun _ => h.bind fun _ => (blind_expect _ _).bind fun _ => blind_pure _

theorem Blind.operandForm (form : OperandForm) : (operandForm inner form).Blind w Eq := by
  refine Blind.bind ?_ fun _ => blind_pure _
  cases form with
  | indirectY =>
    exact h.openParenthesis.bind fun _ => blind_closeParenthesis.bind fun _ =>
      blind_commaY.bind fun _ => blind_pure _
  | indirect => exact h.openParenthesis.bind fun _ => blind_closeParenthesis_noOperator _
  | xIndirect =>
    exact h.openParenthesis.bind fun _ => (blind_expect _ _).bind fun _ =>
      (blind_expect _ _).bind fun _ => blind_closeParenthesis.bind fun _ => blind_pure _
  | move => exact h.bind fun _ => (blind_expect _ _).bind fun _ => h.bind fun _ => blind_pure _
  | address => exact h.bind fun _ => blind_pure _
  | immediate => exact (blind_expect _ _).bind fun _ => h.bind fun _ => blind_pure _
  | longIndirectY => exact h.brackets.bind fun _ => blind_commaY.bind fun _ => blind_pure _
  | longIndirect => exact h.brackets.bind fun _ => blind_pure _
  | stackIndirectY =>
    exact h.openParenthesis.bind fun _ => (blind_expect _ _).bind fun _ =>
      (blind_expect _ _).bind fun _ => blind_closeParenthesis.bind fun _ =>
        blind_commaY.bind fun _ => blind_pure _

theorem Blind.operand : (operand inner).Blind w fun _ _ => True := by
  refine Blind.firstOf fun b hb => ?_
  obtain ⟨form, _, rfl⟩ := List.mem_map.mp hb
  exact h.operandForm form

/-- **Blanks between the tokens of an instruction do not matter.** -/
theorem Blind.instruction : (instruction inner).Blind w fun _ _ => True := by
  refine blind_identifier (fun _ => trivial) fun _ => ?_
  refine (blind_size?.mono fun _ _ _ => trivial).bind fun _ => h.operand.bind fun _ => ?_
  exact (blind_record _).bind fun _ => blind_pure _

theorem Blind.statement : (statement inner).Blind w fun _ _ => True := by
  -- a statement fails where the instruction does
  have herror : ∀ {s f}, (Rule.instruction inner).parse s = .error f →
      ∃ g, (Rule.statement inner).parse s = .error g := by
    intro s f hf
    cases hs : (Rule.statement inner).parse s with
    | error g => exact ⟨g, rfl⟩
    | ok x =>
      obtain ⟨i, _, hi⟩ := parse_statement_eq_ok_iff.mp hs
      rw [hf] at hi
      cases hi
  intro s s' hs
  rcases (h.instruction hs).cases with ⟨i, u, u', hi, hi', hu⟩ | ⟨f, f', hf, hf', _⟩
  · rw [parse_statement_eq_ok_iff.mpr ⟨i, rfl, hi⟩, parse_statement_eq_ok_iff.mpr ⟨i, rfl, hi'⟩]
    exact .ok hu
  · obtain ⟨g, hg⟩ := herror hf
    obtain ⟨g', hg'⟩ := herror hf'
    rw [hg, hg']
    exact .error trivial

end

/-! ## Whole texts -/

/-- Nothing but blanks is left over of the one text just if it is so of the other. -/
theorem Blind.parse_whole_iff {same : Fault → Fault → Prop} {r : Rule α} (h : r.Blind w same)
    {s s' t : List Char} (hs : RespacedBehind w s s') {a : α} :
    r.whole.parse s = .ok (a, t) ↔ r.whole.parse s' = .ok (a, t) := by
  rw [parse_whole_eq_ok_iff, parse_whole_eq_ok_iff]
  rcases (h hs).cases with ⟨b, u, u', hb, hb', hu⟩ | ⟨f, f', hf, hf', _⟩
  · rw [hb, hb']
    have hnil : Text.skipBlanks u = [] ↔ Text.skipBlanks u' = [] := Respaced.eq_nil_iff hu
    constructor
    · rintro ⟨v, hv, hskip, rfl⟩
      cases hv
      exact ⟨u', rfl, hnil.mp hskip, rfl⟩
    · rintro ⟨v, hv, hskip, rfl⟩
      cases hv
      exact ⟨u, rfl, hnil.mpr hskip, rfl⟩
  · simp [hf, hf']

end Rule

/-- **Blanks between tokens do not matter.** Where no name and no number goes on from one side to
the other, blanks may be put into a text or taken out, and it is read as the same expression and the
same statement. -/
theorem parse_insert_blanks (limit : NestingLimit) (u v w : String)
    (hw : ∀ c ∈ w.toList, Text.isBlank c = true) (h : Apart u.toList v.toList) :
    (∀ e, parseExpression limit (u ++ v) = .ok e ↔ parseExpression limit (u ++ w ++ v) = .ok e) ∧
      ∀ x, parseStatement limit (u ++ v) = .ok x ↔ parseStatement limit (u ++ w ++ v) = .ok x := by
  have hgap : RespacedBehind ⟨w.toList, hw⟩ (u ++ v).toList (u ++ w ++ v).toList := by
    simp only [String.toList_append, List.append_assoc]
    exact respacedBehind_gap (w := ⟨w.toList, hw⟩) fun _ => h
  have hnested := blind_nested (w := ⟨w.toList, hw⟩) limit.levels limit.levels
  constructor
  · intro e
    unfold parseExpression
    rw [read_result_eq_ok_iff, read_result_eq_ok_iff]
    exact exists_congr fun t => hnested.parse_whole_iff hgap
  · intro x
    unfold parseStatement
    rw [read_result_eq_ok_iff, read_result_eq_ok_iff]
    exact exists_congr fun t => hnested.statement.parse_whole_iff hgap

/-- A line break may stand between the point of a size and its letter. -/
theorem parse_insert_blanks_behindPoint :
    Apart "LDA.".toList "w ($19),y".toList ∧
      parseStatement default ("LDA." ++ "\r\n\t" ++ "w ($19),y") = .ok (.instruction
        { mnemonic := "LDA"
          size := some .word
          operand := { mode := .indirectY, value := .number 0x19 .oneByte, second := none } }) := by
  have hapart : Apart "LDA.".toList "w ($19),y".toList := by
    rintro ⟨⟨c, hc, hcontinue⟩, _⟩
    cases hc
    exact absurd hcontinue (by decide)
  exact ⟨hapart, ((parse_insert_blanks default _ _ _ (forall_mem_of_all (by decide)) hapart).2
    _).mp (eq_ok_of_toOption (by decide +kernel))⟩

end Asm65816
