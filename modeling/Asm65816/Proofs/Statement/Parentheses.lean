import Asm65816.Proofs.Statement.Extension

/-!
# Operands that begin with a parenthesis

Six of the nine forms of an operand can begin with a parenthesis. It belongs to the mode or it
opens a group, one level further down, and what stands behind the expression inside decides which.
The tokens there tell the forms in parentheses apart. Where an operator stands behind the closing
parenthesis, the operand is the longer expression that begins with the group.
-/

namespace Asm65816

/-! ## Tokens in a row -/

/-- What is left over behind tokens that stand in a row, one of each list. -/
def afterTokens : List (List Char) → List Char → Option (List Char)
  | [], s => some s
  | chars :: others, s => (nextToken? (oneOf chars) s).bind fun (_, t) => afterTokens others t

theorem afterTokens_cons_eq_some_iff {chars : List Char} {others : List (List Char)}
    {s t : List Char} :
    afterTokens (chars :: others) s = some t ↔
      ∃ c u, nextToken? (oneOf chars) s = some (c, u) ∧ afterTokens others u = some t := by
  simp [afterTokens, Option.bind_eq_some_iff]

theorem afterTokens_singleton_eq_some_iff {chars : List Char} {s t : List Char} :
    afterTokens [chars] s = some t ↔ ∃ c, nextToken? (oneOf chars) s = some (c, t) := by
  rw [afterTokens_cons_eq_some_iff]
  exact ⟨fun ⟨c, _, hnext, ht⟩ => ⟨c, Option.some.inj ht ▸ hnext⟩, fun ⟨c, h⟩ => ⟨c, t, h, rfl⟩⟩

theorem afterTokens_singleton_eq_none_iff {chars : List Char} {s : List Char} :
    afterTokens [chars] s = none ↔ nextToken? (oneOf chars) s = none := by
  cases h : nextToken? (oneOf chars) s <;> simp [afterTokens, h]

/-- A row is not there if its first token is not. -/
theorem afterTokens_cons_eq_none {chars : List Char} {others : List (List Char)} {s : List Char}
    (h : afterTokens [chars] s = none) : afterTokens (chars :: others) s = none := by
  rw [afterTokens, afterTokens_singleton_eq_none_iff.mp h]
  rfl

/-- Another token stands in the place of the first one. -/
theorem afterTokens_eq_none_of_other {chars chars' : List Char} {others others' : List (List Char)}
    {s t : List Char} (h : afterTokens (chars :: others) s = some t)
    (hother : ∀ c ∈ chars, c ∉ chars') : afterTokens (chars' :: others') s = none := by
  obtain ⟨c, u, hnext, _⟩ := afterTokens_cons_eq_some_iff.mp h
  obtain ⟨d, v, hs, hd, _⟩ := nextToken?_eq_some_iff.mp hnext
  refine afterTokens_cons_eq_none (afterTokens_singleton_eq_none_iff.mpr ?_)
  rw [nextToken?_eq_none_iff, hs]
  intro e he
  cases he
  exact oneOf_eq_none_iff.mpr (hother d (oneOf_eq_some_iff.mp hd).1)

/-- A failure because something is missing in a text. -/
def Failure.MissingIn (f : Failure) (s : List Char) : Prop :=
  ∃ what rest, rest <:+ s ∧ f = ⟨.missing what rest.head?, rest⟩

theorem Failure.MissingIn.isTooDeep {f : Failure} {s : List Char} (h : f.MissingIn s) :
    f.fault.isTooDeep = false := by
  obtain ⟨what, rest, _, rfl⟩ := h
  rfl

/-- The characters of a token. -/
def Part.chars : Part → List Char
  | token chars _ => chars
  | value => []

/-- The tokens that stand behind the expression of a form with a sign in front. -/
def OperandForm.closing (form : OperandForm) : List (List Char) :=
  (form.production.drop 2).map Part.chars

namespace Rule

variable {inner : Rule Expression} {form : OperandForm} {c : Char} {s t : List Char} {f : Failure}

section Row

variable {parts : List Part} (hparts : ∀ part ∈ parts, part ≠ .value)

include hparts

theorem parse_sequence_of_tokens (h : afterTokens (parts.map Part.chars) s = some t) :
    (sequence inner parts).parse s = .ok ([], t) := by
  induction parts generalizing s with
  | nil =>
    cases h
    rfl
  | cons part parts ih =>
    cases part with
    | value => exact absurd rfl (hparts .value List.mem_cons_self)
    | token chars what =>
      obtain ⟨c, u, hnext, h⟩ := afterTokens_cons_eq_some_iff.mp h
      have hnext : nextToken? (oneOf chars) s = some (c, u) := hnext
      rw [sequence, parse_bind_of_ok (parse_expect_of_some hnext)]
      exact ih (fun part hpart => hparts part (List.mem_cons_of_mem _ hpart)) h

/-- A row of tokens fails at the first one that is missing. -/
theorem parse_sequence_of_no_tokens (h : afterTokens (parts.map Part.chars) s = none) :
    ∃ f, (sequence inner parts).parse s = .error f ∧ f.MissingIn s := by
  induction parts generalizing s with
  | nil => cases h
  | cons part parts ih =>
    cases part with
    | value => exact absurd rfl (hparts .value List.mem_cons_self)
    | token chars what =>
      cases hnext : nextToken? (oneOf chars) s with
      | none =>
        exact ⟨_, parse_bind_of_error (parse_expect_of_none hnext),
          what, Text.skipBlanks s, Text.skipBlanks_suffix s, rfl⟩
      | some x =>
        have hothers : afterTokens (parts.map Part.chars) x.2 = none := by
          simpa [afterTokens, Part.chars, hnext] using h
        obtain ⟨f, hf, what, rest, hrest, hmissing⟩ :=
          ih (fun part hpart => hparts part (List.mem_cons_of_mem _ hpart)) hothers
        refine ⟨f, ?_, what, rest, hrest.trans (nextToken?_suffix hnext).1, hmissing⟩
        rw [sequence, parse_bind_of_ok (parse_expect_of_some hnext), hf]

end Row

/-! ## The forms in parentheses -/

/-- A form with a sign in front holds one expression. -/
theorem operandForm_eq (inner : Rule Expression) (hsign : form.sign? = some c) :
    operandForm inner form =
      expect [c] ("'" ++ c.toString ++ "'") >>= fun _ => inner >>= fun value =>
        sequence inner (form.production.drop 2) >>= fun _ => notBehind form >>= fun _ =>
          pure { mode := form.mode, value, second := none } := by
  cases form <;> cases hsign <;>
    simp [operandForm, operandExpressions, openParenthesis, closeParenthesis, commaY, brackets,
      sequence, OperandForm.production, notBehind]

section Opening

variable {y r : List Char} {e : Expression} (hskip : inner.SkipsBlanks)
  (he : inner.parse y = .ok (e, r)) (hsign : form.sign? = some '(')

include hskip he hsign

theorem parse_operandForm_open :
    (operandForm inner form).parse ('(' :: y) =
      (sequence inner (form.production.drop 2) >>= fun _ => notBehind form >>= fun _ =>
        pure { mode := form.mode, value := e, second := none }).parse r := by
  rw [operandForm_eq inner hsign, parse_bind_of_ok (parse_expect_sign (by decide)),
    parse_bind_of_ok ((hskip y).trans he)]

/-- Behind its expression, a form in parentheses has nothing but tokens. -/
theorem parse_open_of_closing (ht : afterTokens form.closing r = some t)
    (hbehind : form = .indirect → NoOperator t) :
    (operandForm inner form).parse ('(' :: y) =
      .ok ({ mode := form.mode, value := e, second := none }, t) := by
  have hparts : ∀ part ∈ form.production.drop 2, part ≠ .value := by
    cases form <;> cases hsign <;> simp [OperandForm.production]
  rw [parse_operandForm_open hskip he hsign, parse_bind_of_ok (parse_sequence_of_tokens hparts ht),
    parse_bind_of_ok (parse_notBehind_eq_ok_iff.mpr ⟨rfl, hbehind⟩), parse_pure]

theorem parse_open_of_not_closing (ht : afterTokens form.closing r = none) :
    ∃ f, (operandForm inner form).parse ('(' :: y) = .error f ∧ f.MissingIn r := by
  have hparts : ∀ part ∈ form.production.drop 2, part ≠ .value := by
    cases form <;> cases hsign <;> simp [OperandForm.production]
  obtain ⟨f, hf, hmissing⟩ := parse_sequence_of_no_tokens hparts ht
  refine ⟨f, ?_, hmissing⟩
  rw [parse_operandForm_open hskip he hsign, parse_bind_of_error hf]

theorem refuses_open (ht : afterTokens form.closing r = none) :
    (operandForm inner form).Refuses ('(' :: y) := by
  obtain ⟨f, hf, hmissing⟩ := parse_open_of_not_closing hskip he hsign ht
  exact ⟨f, hf, hmissing.isTooDeep⟩

/-- Before an operator no form in parentheses gets any further. -/
theorem parse_open_of_operator (ht : afterTokens [[')']] r = some t) (hno : ¬NoOperator t) :
    ∃ f, (operandForm inner form).parse ('(' :: y) = .error f ∧ f.fault.isTooDeep = false ∧
      t.length ≤ f.rest.length := by
  obtain ⟨d, ht⟩ := afterTokens_singleton_eq_some_iff.mp ht
  obtain ⟨c, u, rfl, hc⟩ : ∃ c u, t = c :: u ∧ c ∈ operatorSigns := by
    cases t with
    | nil => exact absurd noOperator_nil hno
    | cons c u => exact ⟨c, u, rfl, by_contra fun hc => hno (noOperator_cons u hc)⟩
  have hclose : (expect [')'] "')'").parse r = .ok (d, c :: u) := parse_expect_of_some ht
  obtain ⟨v, hr, hd, hv⟩ := parse_expect_eq_ok_iff.mp hclose
  rw [parse_operandForm_open hskip he hsign]
  cases form with
  | indirectY =>
    have hcomma : (expect [','] "','").parse (c :: u) = _ := parse_expect_of_not_mem (by
      rw [(unspaced_cons u (not_blank_of_operatorSign hc)).skipBlanks_eq]
      intro d hd hmem
      cases hd
      rw [List.mem_singleton.mp hmem] at hc
      exact absurd hc (by decide))
    rw [(unspaced_cons u (not_blank_of_operatorSign hc)).skipBlanks_eq] at hcomma
    exact ⟨_, parse_bind_of_error ((parse_bind_of_ok hclose).trans (parse_bind_of_error hcomma)),
      rfl, Nat.le_refl _⟩
  | indirect =>
    have hsequence : (sequence inner [.token [')'] "')'"]).parse r = .ok ([], c :: u) :=
      parse_bind_of_ok hclose
    exact ⟨_, (parse_bind_of_ok hsequence).trans (parse_bind_of_error (parse_noOperator_of_mem hc)),
      rfl, Nat.le_refl _⟩
  | xIndirect | stackIndirectY =>
    -- the parenthesis stands in the place of the comma
    have hcomma : (expect [','] "','").parse r = _ := parse_expect_of_not_mem (by
      rw [hr]
      intro d' hd' hmem
      cases hd'
      rw [List.mem_singleton.mp hmem] at hd
      exact absurd hd (by decide))
    refine ⟨_, parse_bind_of_error (parse_bind_of_error hcomma), rfl, ?_⟩
    have hle := (Text.skipBlanks_suffix v).length_le
    rw [hv, hr, List.length_cons]
    omega
  | move | address | immediate | longIndirectY | longIndirect => cases hsign

end Opening

/-! ## The form that is taken -/

/-- What becomes of an expression that no form in parentheses takes: with a comma and another
expression behind it, it is a block move, and otherwise an address. Only a second expression that
nests too deep is a failure. -/
def moveOrAddress (inner : Rule Expression) (value : Expression) (s : List Char) :
    Except Failure (Operand × List Char) :=
  match afterTokens [[',']] s with
  | none => .ok ({ mode := .address, value, second := none }, s)
  | some t =>
    match inner.parse t with
    | .ok (second, u) => .ok ({ mode := .move, value, second := some second }, u)
    | .error f =>
      if f.fault.isTooDeep then .error f else .ok ({ mode := .address, value, second := none }, s)

/-- Behind a comma without an expression that can be read, there is no second address. -/
theorem moveOrAddress_of_refuses (value : Expression) (h : afterTokens [[',']] s = some t)
    (ht : inner.Refuses t) :
    moveOrAddress inner value s = .ok ({ mode := .address, value, second := none }, s) := by
  obtain ⟨f, hf, hd⟩ := ht
  simp [moveOrAddress, h, hf, hd]

section Value

variable (hbefore : ∀ g : OperandForm, g.Before .move → (operandForm inner g).Refuses s)

include hbefore

theorem parse_operand_of_tooDeep (h : inner.parse s = .error f) (hd : f.fault.isTooDeep = true) :
    (operand inner).parse s = .error f := by
  have hmove : (operandForm inner .move).parse s = .error f :=
    parse_operandForm_of_value_error rfl h
  rw [parse_operand_of_form hbefore (not_refuses_of_tooDeep hmove hd), hmove]

/-- **An expression that no form in parentheses takes is a block move or an address.** -/
theorem parse_operand_of_value {v : Expression} (hv : inner.parse s = .ok (v, t)) :
    (operand inner).parse s = moveOrAddress inner v t := by
  have hmove : (operandForm inner .move).parse s = (expect [','] "','" >>= fun _ =>
      inner >>= fun second =>
        pure { mode := .move, value := v, second := some second }).parse t := by
    simp only [operandForm, operandExpressions, bind_assoc, pure_bind, parse_bind_of_ok hv]
    rfl
  have haddress : (operandForm inner .address).parse s =
      .ok ({ mode := .address, value := v, second := none }, t) :=
    (parse_bind_of_ok (parse_bind_of_ok hv)).trans rfl
  -- where it is no block move, the form in front of the address is refused as well
  have hrefused : (operandForm inner .move).Refuses s → (operand inner).parse s =
      .ok ({ mode := .address, value := v, second := none }, t) := by
    intro hrefuses
    refine (parse_operand_of_form (fun g hg => ?_) (not_refuses_of_ok haddress)).trans haddress
    by_cases hg' : g = .move
    · exact hg' ▸ hrefuses
    · exact hbefore g (by cases g <;> first | decide | contradiction)
  unfold moveOrAddress
  cases hcomma : afterTokens [[',']] t with
  | none =>
    refine hrefused ⟨_, hmove.trans (parse_bind_of_error (parse_expect_of_none ?_)), rfl⟩
    exact afterTokens_singleton_eq_none_iff.mp hcomma
  | some u =>
    obtain ⟨c, hnext⟩ := afterTokens_singleton_eq_some_iff.mp hcomma
    rw [parse_bind_of_ok (parse_expect_of_some hnext)] at hmove
    dsimp only
    cases hsecond : inner.parse u with
    | ok x =>
      rw [parse_bind_of_ok hsecond, parse_pure] at hmove
      exact (parse_operand_of_form hbefore (not_refuses_of_ok hmove)).trans hmove
    | error f =>
      rw [parse_bind_of_error hsecond] at hmove
      dsimp only
      split
      · rename_i hd
        exact (parse_operand_of_form hbefore (not_refuses_of_tooDeep hmove hd)).trans hmove
      · rename_i hd
        exact hrefused ⟨f, hmove, Bool.eq_false_iff.mpr hd⟩

end Value

section Decision

variable {limit m : Nat} {y r : List Char} {e : Expression}
  (he : (nested limit (m + 1)).parse y = .ok (e, r))

include he

/-- What stands behind a parenthesis is read in a group to the same effect, unless it nests too
deep there. -/
theorem parse_one_less_or : (nested limit m).parse y = .ok (e, r) ∨
    ∃ f, (nested limit m).parse y = .error f ∧ f.fault.isTooDeep = true := by
  by_cases hdeep : ∃ f, (nested limit m).parse y = .error f ∧ f.fault.isTooDeep = true
  · exact .inr hdeep
  · refine .inl ?_
    rw [← parse_nested_succ_of_not_tooDeep fun f hf => ?_]
    · exact he
    · exact Bool.eq_false_iff.mpr fun hd => hdeep ⟨f, hf, hd⟩

variable (form) in
/-- The first form in parentheses that has its tokens is taken. -/
theorem parse_operand_of_closing (hsign : form.sign? = some '(')
    (ht : afterTokens form.closing r = some t) (hbehind : form = .indirect → NoOperator t)
    (hbefore : ∀ g, g.Before form → (operandForm (nested limit (m + 1)) g).Refuses ('(' :: y)) :
    (operand (nested limit (m + 1))).parse ('(' :: y) =
      .ok ({ mode := form.mode, value := e, second := none }, t) := by
  have hok := parse_open_of_closing (skipsBlanks_nested limit (m + 1)) he hsign ht hbehind
  rw [parse_operand_of_form hbefore (not_refuses_of_ok hok), hok]

/-- The forms that are tried before a block move are refused where their tokens are missing. -/
theorem refuses_before_move
    (hclosing : ∀ g : OperandForm, g.Before .move → afterTokens g.closing r = none)
    (g : OperandForm) (hg : g.Before .move) :
    (operandForm (nested limit (m + 1)) g).Refuses ('(' :: y) := by
  refine refuses_open (skipsBlanks_nested limit (m + 1)) he ?_ (hclosing g hg)
  rcases OperandForm.before_move_iff.mp hg with rfl | rfl | rfl <;> rfl

/-- Behind an operator the operand is the expression that it begins with, or fails as this does. -/
theorem parse_operand_of_operator (ht : afterTokens [[')']] r = some t) (hno : ¬NoOperator t) :
    (∀ v u, (nested limit (m + 1)).parse ('(' :: y) = .ok (v, u) →
      (operand (nested limit (m + 1))).parse ('(' :: y) =
        moveOrAddress (nested limit (m + 1)) v u) ∧
    ∀ f, (nested limit (m + 1)).parse ('(' :: y) = .error f →
      (operand (nested limit (m + 1))).parse ('(' :: y) = .error f ∧ f.fault.isSoft = false := by
  have hopen : ∀ g : OperandForm, g.sign? = some '(' →
      ∃ f, (operandForm (nested limit (m + 1)) g).parse ('(' :: y) = .error f ∧
        f.fault.isTooDeep = false ∧ t.length ≤ f.rest.length := fun g hsign =>
    parse_open_of_operator (skipsBlanks_nested limit (m + 1)) he hsign ht hno
  have hbefore : ∀ g : OperandForm, g.Before .move →
      (operandForm (nested limit (m + 1)) g).Refuses ('(' :: y) := by
    intro g hg
    obtain ⟨f, hf, hd, _⟩ := hopen g (by
      rcases OperandForm.before_move_iff.mp hg with rfl | rfl | rfl <;> rfl)
    exact ⟨f, hf, hd⟩
  refine ⟨fun v u hv => parse_operand_of_value hbefore hv, fun f hf => ?_⟩
  cases hd : f.fault.isTooDeep with
  | true =>
    refine ⟨parse_operand_of_tooDeep hbefore hf hd, ?_⟩
    rw [Bool.eq_false_iff]
    intro hsoft
    rw [Fault.isTooDeep_of_isSoft hsoft] at hd
    cases hd
  | false =>
    obtain ⟨d, hnext⟩ := afterTokens_singleton_eq_some_iff.mp ht
    rcases parse_one_less_or he with hm | ⟨g, hg, hgd⟩
    · -- the group is read, so the expression fails behind the operator
      have hprimary := parse_primary_of_close hm (parse_expect_of_some hnext)
      have hlt := nested_failure_lt_of_primary hprimary hf
      have hsoft : f.fault.isSoft = false := by
        rw [Bool.eq_false_iff]
        intro hsoft
        have hfirst := parse_primary_of_nested hf hsoft
        rw [hprimary] at hfirst
        cases hfirst
      have htle : t.length ≤ ('(' :: y).length := by
        have h₁ := (parse_suffix he).length_le
        have h₂ := (nextToken?_suffix hnext).1.length_le
        rw [List.length_cons]
        omega
      refine ⟨parse_operand_of_furthest .address hd
        (parse_operandForm_of_value_error rfl hf) fun g => ?_, hsoft⟩
      cases hsign : g.sign? with
      | none => exact ⟨f, parse_operandForm_of_value_error hsign hf, hd, .inl rfl⟩
      | some c =>
        by_cases hc : '(' = c
        · obtain ⟨f', hf', hd', hle⟩ := hopen g (hc ▸ hsign)
          exact ⟨f', hf', hd', .inr (Nat.lt_of_lt_of_le hlt hle)⟩
        · obtain ⟨what, hf'⟩ := parse_operandForm_of_other_sign (by decide) _ hsign hc
          exact ⟨_, hf' y, rfl, .inr (Nat.lt_of_lt_of_le hlt htle)⟩
    · rw [parse_nested_open_of_error hg] at hf
      cases hf
      rw [hd] at hgd
      cases hgd

/-- Where neither a parenthesis nor the tokens of a form stand behind the expression, something is
missing there or the form has failed at once. -/
theorem exists_failure_of_not_closing (hm : (nested limit m).parse y = .ok (e, r))
    (hr : afterTokens [[')']] r = none)
    (hclosing : form.sign? = some '(' → afterTokens form.closing r = none) :
    ∃ f, (operandForm (nested limit (m + 1)) form).parse ('(' :: y) = .error f ∧
      f.fault.isTooDeep = false ∧ (f.MissingIn r ∨ f.rest = '(' :: y) := by
  cases hsign : form.sign? with
  | none =>
    have hclose : (expect [')'] "')' to close expression").parse r = _ :=
      parse_expect_of_none (afterTokens_singleton_eq_none_iff.mp hr)
    exact ⟨_, parse_operandForm_of_value_error hsign (parse_nested_open_of_not_close hm hclose),
      rfl, .inl ⟨_, _, Text.skipBlanks_suffix r, rfl⟩⟩
  | some c =>
    by_cases hc : '(' = c
    · subst hc
      obtain ⟨f, hf, hmissing⟩ := parse_open_of_not_closing (skipsBlanks_nested limit (m + 1)) he
        hsign (hclosing hsign)
      exact ⟨f, hf, hmissing.isTooDeep, .inl hmissing⟩
    · obtain ⟨what, hf⟩ := parse_operandForm_of_other_sign (by decide) _ hsign hc
      exact ⟨_, hf y, rfl, .inr rfl⟩

/-- The form `(e,s),y` is taken if the expression is not too deep for a group. -/
theorem parse_operand_of_stack (ht : afterTokens OperandForm.stackIndirectY.closing r = some t) :
    (∀ x, (nested limit m).parse y = .ok x → (operand (nested limit (m + 1))).parse ('(' :: y) =
      .ok ({ mode := .stackIndirectY, value := e, second := none }, t)) ∧
    ∀ f, (nested limit m).parse y = .error f →
      (operand (nested limit (m + 1))).parse ('(' :: y) = .error f ∧ f.fault.isTooDeep = true := by
  have hr : afterTokens [[')']] r = none :=
    afterTokens_eq_none_of_other ht (forall_mem_of_all (by decide))
  have hx : afterTokens OperandForm.xIndirect.closing r = none := by
    obtain ⟨c, u, hnext, hu⟩ := afterTokens_cons_eq_some_iff.mp ht
    have hother : afterTokens [['x', 'X'], [')']] u = none :=
      afterTokens_eq_none_of_other hu (forall_mem_of_all (by decide))
    show (nextToken? (oneOf [',']) r).bind _ = none
    rw [show nextToken? (oneOf [',']) r = some (c, u) from hnext]
    exact hother
  have hclosing : ∀ g : OperandForm, g.Before .stackIndirectY → g.sign? = some '(' →
      afterTokens g.closing r = none := by
    intro g hg hsign
    cases g with
    | indirectY | indirect => exact afterTokens_eq_none_of_other ht (forall_mem_of_all (by decide))
    | xIndirect => exact hx
    | stackIndirectY => exact absurd hg (Nat.lt_irrefl _)
    | move | address | immediate | longIndirectY | longIndirect => cases hsign
  rcases parse_one_less_or he with hm | ⟨f, hm, hd⟩
  · -- the block move and the address do not close the parenthesis
    refine ⟨fun _ _ => ?_, fun g hg => nomatch hm.symm.trans hg⟩
    refine parse_operand_of_closing .stackIndirectY he rfl ht nofun fun g hg => ?_
    obtain ⟨f, hf, hd, _⟩ := exists_failure_of_not_closing he hm hr (hclosing g hg)
    exact ⟨f, hf, hd⟩
  · -- the block move nests too deep before the form is tried
    refine ⟨fun x hx => (nomatch hm.symm.trans hx), fun g hg => ?_⟩
    obtain rfl : f = g := Except.error.inj (hm.symm.trans hg)
    refine ⟨parse_operand_of_tooDeep (refuses_before_move he fun g hg => ?_)
      (parse_nested_open_of_error hm) hd, hd⟩
    rcases OperandForm.before_move_iff.mp hg with rfl | rfl | rfl
    · exact hclosing _ (by decide) rfl
    · exact hclosing _ (by decide) rfl
    · exact hx

/-- Where the tokens of no form stand behind the expression, the operand fails. -/
theorem exists_failure_of_parse_operand (hr : afterTokens [[')']] r = none)
    (hclosing : ∀ g : OperandForm, g.sign? = some '(' → afterTokens g.closing r = none) :
    ∃ f, (operand (nested limit (m + 1))).parse ('(' :: y) = .error f ∧
      (f.fault.isTooDeep = true ∨ f.MissingIn r) := by
  rcases parse_one_less_or he with hm | ⟨f, hf, hd⟩
  · have hall := fun g : OperandForm => exists_failure_of_not_closing he hm hr (hclosing g)
    have hne : OperandForm.all.map (operandBranch (nested limit (m + 1))) ≠ [] :=
      List.cons_ne_nil _ _
    obtain ⟨f, hf, hfurthest⟩ := exists_furthest (s := '(' :: y) hne fun b hb => by
      obtain ⟨g, _, rfl⟩ := List.mem_map.mp hb
      obtain ⟨f, hf, hd, _⟩ := hall g
      exact ⟨f, hf, hd⟩
    refine ⟨f, hf, .inr (hfurthest.of_forall (P := (·.MissingIn r)) (fun b hb g' hg' => ?_) ?_)⟩
    · obtain ⟨g, _, rfl⟩ := List.mem_map.mp hb
      obtain ⟨f', hf', _, hor⟩ := hall g
      have heq := hg'.1.symm.trans hf'
      cases heq
      exact hor
    · -- the expression has been read by the forms without a sign
      have hclose : (expect [')'] "')' to close expression").parse r = _ :=
        parse_expect_of_none (afterTokens_singleton_eq_none_iff.mp hr)
      refine ⟨_, List.mem_map_of_mem (OperandForm.mem_all .address), _,
        ⟨parse_operandForm_of_value_error rfl (parse_nested_open_of_not_close hm hclose), rfl⟩, ?_⟩
      have h₁ := (parse_suffix he).length_le
      have h₂ := (Text.skipBlanks_suffix r).length_le
      dsimp only [List.length_cons]
      omega
  · refine ⟨f, parse_operand_of_tooDeep (refuses_before_move he fun g hg => hclosing g ?_)
      (parse_nested_open_of_error hf) hd, .inl hd⟩
    rcases OperandForm.before_move_iff.mp hg with rfl | rfl | rfl <;> rfl

end Decision

end Rule

/-! ## The decision -/

open Rule

/-- What an operand is that begins with a parenthesis, by what is left over behind the expression in
the parenthesis. -/
structure DecidesParentheses (limit : NestingLimit) (s y : List Char) (e : Expression)
    (r : List Char) : Prop where
  /-- The register Y behind the closing parenthesis makes it the form `(e),y`. -/
  indirectY : ∀ t, afterTokens [[')'], [','], ['y', 'Y']] r = some t →
    (operand limit.expression).parse s = .ok ({ mode := .indirectY, value := e, second := none }, t)
  /-- Otherwise the closing parenthesis makes it the form `(e)`, if no operator follows. -/
  indirect : ∀ t, afterTokens [[')'], [','], ['y', 'Y']] r = none →
    afterTokens [[')']] r = some t → NoOperator t →
    (operand limit.expression).parse s = .ok ({ mode := .indirect, value := e, second := none }, t)
  /-- If an operator follows, the operand begins with a longer expression. -/
  longer : ∀ t v u, afterTokens [[')']] r = some t → ¬NoOperator t →
    limit.expression.parse s = .ok (v, u) →
    (operand limit.expression).parse s = moveOrAddress limit.expression v u
  /-- If an operator follows, nothing else can fail than a literal in that expression or its
  nesting. -/
  failsLonger : ∀ t f, afterTokens [[')']] r = some t → ¬NoOperator t →
    limit.expression.parse s = .error f →
    (operand limit.expression).parse s = .error f ∧
      ((∃ literal, f.fault = .overflow literal) ∨ f.fault.isTooDeep = true)
  /-- The register X makes it the form `(e,x)`. -/
  xIndirect : ∀ t, afterTokens [[','], ['x', 'X'], [')']] r = some t →
    (operand limit.expression).parse s = .ok ({ mode := .xIndirect, value := e, second := none }, t)
  /-- The register S and the register Y behind the closing parenthesis make it the form `(e,s),y`,
  if the expression can be read one level further down. -/
  stackIndirectY : ∀ t x, afterTokens [[','], ['s', 'S'], [')'], [','], ['y', 'Y']] r = some t →
    (nested limit.levels (limit.levels - 1)).parse y = .ok x →
    (operand limit.expression).parse s =
      .ok ({ mode := .stackIndirectY, value := e, second := none }, t)
  /-- If it cannot, it nests too deep there, and the operand fails for that reason. -/
  tooDeep : ∀ t f, afterTokens [[','], ['s', 'S'], [')'], [','], ['y', 'Y']] r = some t →
    (nested limit.levels (limit.levels - 1)).parse y = .error f →
    (operand limit.expression).parse s = .error f ∧ f.fault.isTooDeep = true
  /-- Anything else is a failure: something is missing behind the expression, unless nesting too
  deep is found before. -/
  other : afterTokens [[')']] r = none → afterTokens [[','], ['x', 'X'], [')']] r = none →
    afterTokens [[','], ['s', 'S'], [')'], [','], ['y', 'Y']] r = none →
    ∃ f, (operand limit.expression).parse s = .error f ∧
      (f.fault.isTooDeep = true ∨ f.MissingIn r)

/-- **What stands behind the expression in a parenthesis decides what the operand is.** -/
theorem parse_operand_decidesParentheses (limit : NestingLimit) (s y r : List Char) (e : Expression)
    (hs : Text.skipBlanks s = '(' :: y) (he : limit.expression.parse y = .ok (e, r)) :
    DecidesParentheses limit s y e r := by
  obtain ⟨m, hm⟩ := Nat.exists_eq_succ_of_ne_zero (Nat.pos_iff_ne_zero.mp limit.levels_pos)
  have hrule : limit.expression = nested limit.levels (m + 1) := congrArg (nested limit.levels) hm
  have hless : limit.levels - 1 = m := by rw [hm, Nat.succ_sub_one]
  have hskip := skipsBlanks_nested limit.levels (m + 1)
  have hoperand : (operand limit.expression).parse s =
      (operand (nested limit.levels (m + 1))).parse ('(' :: y) := by
    rw [hrule, ← hs]
    exact (skipsBlanks_operand hskip s).symm
  have hvalue : limit.expression.parse s = (nested limit.levels (m + 1)).parse ('(' :: y) := by
    rw [hrule, ← hs]
    exact (hskip s).symm
  rw [hrule] at he
  constructor
  · intro t ht
    rw [hoperand]
    exact parse_operand_of_closing .indirectY he rfl ht nofun
      fun g hg => absurd hg (Nat.not_lt_zero _)
  · intro t hY ht hno
    rw [hoperand]
    refine parse_operand_of_closing .indirect he rfl ht (fun _ => hno) fun g hg => ?_
    obtain rfl : g = .indirectY := by cases g <;> first | rfl | exact absurd hg (by decide)
    exact refuses_open hskip he rfl hY
  · intro t v u ht hno hv
    rw [hoperand, hrule]
    exact (parse_operand_of_operator he ht hno).1 v u (hvalue.symm.trans hv)
  · intro t f ht hno hf
    rw [hoperand]
    obtain ⟨hparse, hsoft⟩ := (parse_operand_of_operator he ht hno).2 f (hvalue.symm.trans hf)
    refine ⟨hparse, ?_⟩
    cases hfault : f.fault with
    | overflow literal => exact .inl ⟨literal, rfl⟩
    | tooDeep levels => exact .inr rfl
    | missing | trailing | operatorAfterIndirect =>
      rw [hfault] at hsoft
      cases hsoft
  · intro t ht
    rw [hoperand]
    refine parse_operand_of_closing .xIndirect he rfl ht nofun fun g hg => ?_
    have hg' : g = .indirectY ∨ g = .indirect := by
      cases g <;> first | exact .inl rfl | exact .inr rfl | exact absurd hg (by decide)
    have hclose : ∀ others, afterTokens ([')'] :: others) r = none := fun _ =>
      afterTokens_eq_none_of_other ht (forall_mem_of_all (by decide))
    rcases hg' with rfl | rfl <;> exact refuses_open hskip he rfl (hclose _)
  · intro t x ht hx
    rw [hless] at hx
    rw [hoperand]
    exact (parse_operand_of_stack he ht).1 x hx
  · intro t f ht hf
    rw [hless] at hf
    rw [hoperand]
    exact (parse_operand_of_stack he ht).2 f hf
  · intro hclose hx hstack
    rw [hoperand]
    refine exists_failure_of_parse_operand he hclose fun g hsign => ?_
    cases g with
    | indirectY | indirect => exact afterTokens_cons_eq_none hclose
    | xIndirect => exact hx
    | stackIndirectY => exact hstack
    | move | address | immediate | longIndirectY | longIndirect => cases hsign

/-- An operator makes an address of a group, and too little room keeps the form `(e,s),y` from being
read. -/
theorem parse_operand_decidesParentheses_sum :
    (operand (NestingLimit.expression { levels := 2 })).parse " ($19)+2 ;".toList =
        .ok ({ mode := .address
               value := .binary .add (.number 0x19 .oneByte) (.number 2 .none)
               second := none }, [';']) ∧
      (operand (NestingLimit.expression { levels := 2 })).parse "(1,s),y".toList =
        .ok ({ mode := .stackIndirectY, value := .number 1 .none, second := none }, []) ∧
      ∃ f, (operand (NestingLimit.expression { levels := 1 })).parse "(1,s),y".toList = .error f ∧
        f.fault.isTooDeep = true := by
  refine ⟨?_, ?_, ?_⟩
  · have h := parse_operand_decidesParentheses { levels := 2 } " ($19)+2 ;".toList
      "$19)+2 ;".toList ")+2 ;".toList (.number 0x19 .oneByte) (by decide)
      (eq_ok_of_toOption (by decide +kernel))
    refine (h.longer "+2 ;".toList _ [';'] (by decide) ?_ (eq_ok_of_toOption
      (by decide +kernel))).trans rfl
    exact fun hno => hno '+' rfl (by decide)
  · have h := parse_operand_decidesParentheses { levels := 2 } "(1,s),y".toList "1,s),y".toList
      ",s),y".toList (.number 1 .none) (by decide) (eq_ok_of_toOption (by decide +kernel))
    have hdeeper : (nested 2 1).parse "1,s),y".toList = .ok (.number 1 .none, ",s),y".toList) :=
      eq_ok_of_toOption (by decide +kernel)
    exact h.stackIndirectY [] _ (by decide) hdeeper
  · have h := parse_operand_decidesParentheses { levels := 1 } "(1,s),y".toList "1,s),y".toList
      ",s),y".toList (.number 1 .none) (by decide) (eq_ok_of_toOption (by decide +kernel))
    exact ⟨_, h.tooDeep [] _ (by decide) (parse_nested_zero 1 _)⟩

end Asm65816
