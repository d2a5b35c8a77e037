import Asm65816.Proofs.Grammar.Literal
import Asm65816.Proofs.Statement.Parentheses

/-!
# Literals of an operand that are too great

A literal that is too great makes every form fail that gets to it, and the forms that do not get to
it fail in front of it. So it is what the operand fails with. There is one form that reads less and
does not fail: the first address of a block move is an address by itself, and where it fits, a
second one that does not is left over with its comma.
-/

namespace Asm65816

open Rule Asm65816.Derivation

namespace Rule

variable {limit m : Nat} {form : OperandForm} {c : Char} {s y : List Char} {f : Failure}

/-! ## The expression that fails -/

/-- Where the expression behind a sign fails, an operand fails in the same way. The forms without a
sign have to fail so too, or at once. -/
theorem parse_operand_of_inside (form : OperandForm) {inner : Rule Expression} {v : Failure}
    (hskip : inner.SkipsBlanks) (hb : Text.isBlank c = false) (hsign : form.sign? = some c)
    (hf : inner.parse y = .error f) (hd : f.fault.isTooDeep = false)
    (hv : inner.parse (c :: y) = .error v)
    (hor : v = f ∨ v.fault.isTooDeep = false ∧ v.rest = c :: y) :
    (operand inner).parse (c :: y) = .error f := by
  have hlt : f.rest.length < (c :: y).length := by
    have := (parse_failure_suffix hf).length_le
    rw [List.length_cons]
    omega
  have hinside : ∀ g : OperandForm, g.sign? = some c →
      (operandForm inner g).parse (c :: y) = .error f := fun g hg =>
    (parse_operandForm_of_sign hb hg).mpr (parse_bind_of_error ((hskip y).trans hf))
  refine parse_operand_of_furthest form hd (hinside form hsign) fun g => ?_
  cases hg : g.sign? with
  | none =>
    refine ⟨v, parse_operandForm_of_value_error hg hv, ?_⟩
    rcases hor with rfl | ⟨hvd, hrest⟩
    · exact ⟨hd, .inl rfl⟩
    · exact ⟨hvd, .inr (hrest ▸ hlt)⟩
  | some d =>
    by_cases hcd : c = d
    · exact ⟨f, hinside g (hcd ▸ hg), hd, .inl rfl⟩
    · obtain ⟨what, hother⟩ := parse_operandForm_of_other_sign hb inner hg hcd
      exact ⟨_, hother y, rfl, .inr hlt⟩

theorem parse_operand_open_of_hard (h : (nested limit (m + 1)).parse ('(' :: y) = .error f)
    (hsoft : f.fault.isSoft = false) (hd : f.fault.isTooDeep = false) :
    (operand (nested limit (m + 1))).parse ('(' :: y) = .error f := by
  have hskip := skipsBlanks_nested limit (m + 1)
  cases he : (nested limit (m + 1)).parse y with
  | error g =>
    obtain rfl := eq_of_parse_inside h hd ((hskip y).trans he)
    exact parse_operand_of_inside .indirect hskip (by decide) rfl he hd h (.inl rfl)
  | ok x =>
    obtain ⟨e, r⟩ := x
    cases hnext : nextToken? (oneOf [')']) r with
    | none =>
      -- a group that is not closed would be a soft failure
      rcases expect_or_hard h hd ((hskip y).trans he) with hclose | ⟨_, x, hclose⟩
      · rw [parse_expect_of_none hnext] at hclose
        cases hclose
        cases hsoft
      · rw [parse_expect_of_none hnext] at hclose
        cases hclose
    | some x =>
      obtain ⟨d, t⟩ := x
      have hclosing := afterTokens_singleton_eq_some_iff.mpr ⟨d, hnext⟩
      refine ((parse_operand_of_operator he hclosing fun hno => ?_).2 f h).1
      -- without an operator the group would be all there is
      rcases parse_one_less_or he with hm | ⟨g, hg, hgd⟩
      · obtain ⟨_, u, _, _, rfl⟩ := nextToken?_eq_some_iff.mp hnext
        have hgroup := parse_nested_of_parse_primary
          (parse_primary_of_close hm (parse_expect_of_some hnext)) (unspaced_skipBlanks u) hno
        rw [h] at hgroup
        cases hgroup
      · rw [parse_nested_open_of_error hg] at h
        cases h
        rw [hd] at hgd
        cases hgd

/-- **A literal that is too great in the expression in front is what an operand fails with.** -/
theorem parse_operand_of_hard (h : (nested limit (m + 1)).parse s = .error f)
    (hsoft : f.fault.isSoft = false) (hd : f.fault.isTooDeep = false) :
    (operand (nested limit (m + 1))).parse s = .error f := by
  have hskip := skipsBlanks_nested limit (m + 1)
  rw [← skipsBlanks_operand hskip]
  rw [← hskip] at h
  rcases begins_or beginsPrimary (Text.skipBlanks s) with ⟨c, y, hs, hc⟩ | hnot
  · have hb := not_blank_of_beginsPrimary hc
    rw [hs] at h ⊢
    by_cases hopen : c = '('
    · subst hopen
      exact parse_operand_open_of_hard h hsoft hd
    · -- no form has its sign there
      have hlt := nested_failure_lt hc h
      refine parse_operand_of_furthest .address hd
        (parse_operandForm_of_value_error rfl h) fun g => ?_
      cases hg : g.sign? with
      | none => exact ⟨f, parse_operandForm_of_value_error hg h, hd, .inl rfl⟩
      | some d =>
        have hcd : c ≠ d := by
          rintro rfl
          cases g <;> cases hg <;> first | exact hopen rfl | exact absurd hc (by decide)
        obtain ⟨what, hother⟩ := parse_operandForm_of_other_sign hb _ hg hcd
        exact ⟨_, hother y, rfl, .inr hlt⟩
  · -- where nothing begins, something is missing
    have hprimary : (primary (nested limit m)).parse (Text.skipBlanks s) = _ :=
      parse_primary_of_not_begins (unspaced_skipBlanks s) hnot
    rw [parse_nested_succ, sum, chain_eq, term, chain_eq, bind_assoc,
      parse_bind_of_error hprimary] at h
    cases h
    cases hsoft

end Rule

/-! ## The literals of an operand -/

namespace Derivation

/-- The literals of the expressions, in front of a text. -/
def Pieces.literals : {parts : List Part} → Pieces parts → List Char → List Literal
  | _, nil, _ => []
  | _, token _ _ _ others, t => others.literals t
  | _, value e others, t => e.literals (others.text ++ t) ++ others.literals t

/-- The literals stand in the text in this order. -/
theorem Pieces.inOrder : ∀ {parts : List Part} (d : Pieces parts) (t : List Char),
    Literal.InOrder (d.literals t) (d.text ++ t) t
  | _, nil, t => .nil (List.suffix_refl t)
  | _, token c _ after others, t => by
    have h := (others.inOrder t).of_suffix (List.suffix_append (c :: after.chars) _)
    simpa only [Pieces.text, Pieces.literals, List.cons_append, List.append_assoc] using h
  | _, value e others, t => by
    have h := (e.inOrder (others.text ++ t)).append (others.inOrder t)
    simpa only [Pieces.text, Pieces.literals, List.append_assoc] using h

/-- Tokens have no literals. -/
theorem Pieces.literals_eq_nil : ∀ {parts : List Part} (d : Pieces parts) (t : List Char),
    (∀ part ∈ parts, part ≠ .value) → d.literals t = []
  | _, nil, _, _ => rfl
  | _, token _ _ _ others, t, h =>
    others.literals_eq_nil t fun part hpart => h part (List.mem_cons_of_mem _ hpart)
  | _, value _ _, _, h => absurd rfl (h .value List.mem_cons_self)

/-- The pieces of a form with a sign: the sign, an expression, and tokens. -/
theorem Pieces.exists_of_sign {form : OperandForm} {c : Char} (hsign : form.sign? = some c)
    (d : Pieces form.production) :
    ∃ (v : Blanks) (e : Spaced) (others : Pieces (form.production.drop 2)),
      d.text = c :: (v.chars ++ (e.text ++ others.text)) ∧ e.levels ≤ d.levels ∧
        (∀ t, d.literals t = e.literals (others.text ++ t)) ∧
        d.afterLast .none = others.afterLast e.after ∧
        delimited (.value :: form.production.drop 2) = true := by
  have hlevels := fun (e : Spaced) {parts : List Part} (others : Pieces parts) =>
    Nat.le_max_left e.levels others.levels
  cases form with
  | move | address => cases hsign
  | indirectY | indirect | xIndirect | stackIndirectY | immediate | longIndirectY | longIndirect =>
    cases hsign
    match d with
    | .token o ho v (.value e others) =>
      obtain rfl := List.mem_singleton.mp ho
      have hnil := fun t => others.literals_eq_nil t (by simp)
      exact ⟨v, e, others, rfl, hlevels e others,
        fun t => (congrArg _ (hnil t)).trans (List.append_nil _), rfl, by decide⟩

/-- The pieces of a form without a sign: an expression, and perhaps a comma and another one. -/
theorem Pieces.exists_of_no_sign {form : OperandForm} (hsign : form.sign? = none)
    (d : Pieces form.production) :
    ∃ (e : Spaced) (others : Pieces (form.production.drop 1)),
      d.first? = some e ∧ d.text = e.text ++ others.text ∧ e.levels ≤ d.levels ∧
        (∀ t, d.literals t = e.literals (others.text ++ t) ++ others.literals t) ∧
        d.afterLast .none = others.afterLast e.after ∧
        delimited (.value :: form.production.drop 1) = true := by
  have hlevels := fun (e : Spaced) {parts : List Part} (others : Pieces parts) =>
    Nat.le_max_left e.levels others.levels
  cases form with
  | move | address =>
    match d with
    | .value e others =>
      exact ⟨e, others, rfl, rfl, hlevels e others, fun _ => rfl, rfl, by decide⟩
  | indirectY | indirect | xIndirect | stackIndirectY | immediate | longIndirectY
  | longIndirect => cases hsign

namespace Operand

/-- A block move whose first address fits, so that it can be read without the second one. -/
def FirstFits (d : Operand) : Prop :=
  d.form = .move ∧ ∀ e, d.pieces.first? = some e → e.Fits

variable {limit m n : Nat} {t : List Char} {l : Literal}

/-- **The first literal of an operand that is too great is what the operand fails with**, unless it
belongs to the second address of a block move. -/
theorem parse_of_overflow (d : Operand) (limit : Nat) (hlevels : d.pieces.levels ≤ m)
    (h : Ends d.after t) (hl : (d.pieces.literals t).find? Literal.overflows = some l)
    (hfirst : ¬d.FirstFits) :
    ∃ rest, l.OverflowsBefore rest ∧
      (Rule.operand (nested limit (m + 1))).parse (d.text ++ t) =
        .error ⟨.overflow l.text, rest⟩ := by
  have hskip := fun n => skipsBlanks_nested limit n
  cases hsign : d.form.sign? with
  | some c =>
    obtain ⟨v, e, others, htext, hle, hliterals, hafter, hdelimited⟩ :=
      d.pieces.exists_of_sign hsign
    rw [hliterals] at hl
    rw [after, hafter] at h
    obtain ⟨_, hfollows, hno⟩ := Pieces.follows_value e others hdelimited h.toFollows h.noOperator
    obtain ⟨rest, hbefore, hparse⟩ := e.parse_of_overflow limit hfollows hno hl
    have hm := ((hskip m).parse_append v _).trans (hparse m (Nat.le_trans hle hlevels))
    have hsucc := ((hskip (m + 1)).parse_append v _).trans
      (hparse (m + 1) (Nat.le_trans hle (Nat.le_succ_of_le hlevels)))
    refine ⟨rest, hbefore, ?_⟩
    simp only [text, htext, List.cons_append, List.append_assoc]
    by_cases hopen : c = '('
    · subst hopen
      exact parse_operand_of_inside _ (hskip (m + 1)) (by decide) hsign hsucc rfl
        (parse_nested_open_of_error hm) (.inl rfl)
    · have hother : Text.isBlank c = false ∧ beginsPrimary c = false := by
        obtain ⟨form, _, _⟩ := d
        cases form <;> cases hsign <;> first | exact absurd rfl hopen | decide
      exact parse_operand_of_inside _ (hskip (m + 1)) hother.1 hsign hsucc rfl
        (parse_nested_of_not_begins hother.1 hother.2) (.inr ⟨rfl, rfl⟩)
  | none =>
    obtain ⟨e, others, hfirst?, htext, hle, hliterals, hafter, hdelimited⟩ :=
      d.pieces.exists_of_no_sign hsign
    -- the literal stands in the first expression, which does not fit
    have hfits : ¬e.Fits := by
      intro hfits
      refine hfirst ⟨?_, fun e' he' => ?_⟩
      · -- only the block move has another expression
        have hno : ∀ form : OperandForm, form.sign? = none → form ≠ .move →
            ∀ part ∈ form.production.drop 1, part ≠ .value := by
          intro form
          cases form <;> simp [OperandForm.sign?, OperandForm.production]
        by_contra hmove
        rw [hliterals, Spaced.find?_append_of_fits _ hfits,
          others.literals_eq_nil t (hno d.form hsign hmove)] at hl
        cases hl
      · rw [hfirst?] at he'
        cases he'
        exact hfits
    rw [hliterals, Spaced.find?_append_of_not_fits _ hfits] at hl
    rw [after, hafter] at h
    obtain ⟨_, hfollows, hno⟩ := Pieces.follows_value e others hdelimited h.toFollows h.noOperator
    obtain ⟨rest, hbefore, hparse⟩ := e.parse_of_overflow limit hfollows hno hl
    refine ⟨rest, hbefore, ?_⟩
    rw [text, htext, List.append_assoc]
    have hvalue := hparse (m + 1) (Nat.le_trans hle (Nat.le_succ_of_le hlevels))
    exact parse_operand_of_hard hvalue rfl rfl

/-- **A block move whose first address fits is read as an address**, and the second address is left
over with its comma where a literal in it is too great. -/
theorem parse_of_firstFits (d : Operand) (limit : Nat) (hlevels : d.pieces.levels ≤ n)
    (h : Ends d.after t) (hl : (d.pieces.literals t).find? Literal.overflows = some l)
    (hfirst : d.FirstFits) :
    ∃ e rest, d.pieces.first? = some e ∧ l.run.chars ++ l.behind <:+ rest ∧
      (Rule.operand (nested limit n)).parse (d.text ++ t) =
        .ok ({ mode := .address, value := e.tree, second := none }, ',' :: rest) := by
  obtain ⟨form, pieces, hgroup⟩ := d
  obtain ⟨rfl, hfits⟩ := hfirst
  match pieces with
  | .value e (.token c hc u (.value second .nil)) =>
    obtain rfl := List.mem_singleton.mp hc
    have hfits := hfits e rfl
    obtain ⟨hlevels, hothers⟩ := Nat.max_le.mp hlevels
    obtain ⟨hlevels', _⟩ := Nat.max_le.mp hothers
    have hcomma : ',' ∈ endSigns := by decide
    have hsecond : (second.literals t).find? Literal.overflows = some l := by
      have hl : (e.literals _ ++ (second.literals ([] ++ t) ++ [])).find? Literal.overflows =
        some l := hl
      rwa [Spaced.find?_append_of_fits _ hfits, List.append_nil] at hl
    obtain ⟨rest, _, hparse⟩ :=
      second.parse_of_overflow limit h.toFollows h.noOperator hsecond
    refine ⟨e, u.chars ++ (second.text ++ t), rfl, ?_, ?_⟩
    · exact ((second.inOrder t).suffix (List.mem_of_find?_eq_some hsecond)).trans
        (List.suffix_append u.chars _)
    · have hskip := skipsBlanks_nested limit n
      have hvalue := parse_nested_endSign limit hlevels hfits hcomma (u.chars ++ (second.text ++ t))
      have hbefore : ∀ g : OperandForm, g.Before .move →
          (operandForm (nested limit n) g).Refuses
            (e.text ++ ',' :: (u.chars ++ (second.text ++ t))) := fun g hg =>
        (refuses_value hlevels hfits (hgroup e rfl) (OperandForm.before_move_iff.mp hg) _).bind _
      simp only [text, Pieces.text, List.append_assoc, List.cons_append, List.nil_append]
      rw [parse_operand_of_value hbefore hvalue]
      have hrest := (hskip _).trans ((hskip.parse_append u _).trans (hparse n hlevels'))
      exact moveOrAddress_of_refuses e.tree (afterTokens_singleton_eq_some_iff.mpr
        ⟨',', nextToken?_cons (by decide)⟩) ⟨_, hrest, rfl⟩

end Operand

end Derivation

end Asm65816
