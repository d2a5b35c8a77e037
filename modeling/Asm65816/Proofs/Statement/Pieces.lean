import Asm65816.Proofs.Grammar.Exactness
import Asm65816.Proofs.Rule.Choice
import Asm65816.Proofs.Statement.Derivation

/-!
# Reading a form part by part

The rule of each form reads the parts of its production one after the other. What is proved of such
a row by induction on the parts holds of all nine forms: the pieces of a derivation are read, and
what is read is made of pieces. Where two rows begin alike, one refuses the text of the other at the
first part in which they differ.
-/

namespace Asm65816

open Rule Asm65816.Derivation

namespace Rule

variable {inner : Rule Expression} {parts : List Part} {chars : List Char} {what : String}
  {form : OperandForm} {s t : List Char}

/-- Reads parts one after the other, and gives the expressions. -/
def sequence (inner : Rule Expression) : List Part → Rule (List Expression)
  | [] => return []
  | .token chars what :: parts => do
    let _ ← expect chars what
    sequence inner parts
  | .value :: parts => do
    let value ← inner
    let others ← sequence inner parts
    return value :: others

/-- What must not follow a form. -/
def notBehind : OperandForm → Rule Unit
  | .indirect => noOperator
  | _ => pure ()

/-- The rule of a form reads its parts, and looks at what follows. -/
theorem operandExpressions_eq (inner : Rule Expression) (form : OperandForm) :
    (do
      let (value, second) ← operandExpressions inner form
      return value :: second.toList) =
    (do
      let values ← sequence inner form.production
      notBehind form
      return values) := by
  cases form <;>
    simp [operandExpressions, openParenthesis, closeParenthesis, commaY, brackets, sequence,
      OperandForm.production, notBehind]

/-- Every form has an expression among its parts. -/
theorem operandForm_eq_sequence (inner : Rule Expression) (form : OperandForm) :
    operandForm inner form =
      sequence inner form.production >>= fun values => notBehind form >>= fun _ =>
        match values with
        | value :: others => pure { mode := form.mode, value, second := others.head? }
        | [] => missing "expression" := by
  cases form <;>
    simp [operandForm, operandExpressions, openParenthesis, closeParenthesis, commaY, brackets,
      sequence, OperandForm.production, notBehind]

theorem parse_noOperator_eq_ok_iff : noOperator.parse s = .ok ((), t) ↔ t = s ∧ NoOperator s := by
  rw [noOperator, parse_bind_of_ok (parse_peek s)]
  cases s with
  | nil =>
    rw [List.head?_nil, parse_pure]
    simp [noOperator_nil, eq_comm]
  | cons c s =>
    rw [List.head?_cons]
    show (if c ∈ operatorSigns then _ else _ : Rule Unit).parse (c :: s) = _ ↔ _
    split
    · rename_i hc
      rw [parse_fail]
      simp [NoOperator, hc]
    · rename_i hc
      rw [parse_pure]
      simp [noOperator_cons s hc, eq_comm]

theorem parse_noOperator_of_mem {c : Char} (h : c ∈ operatorSigns) :
    noOperator.parse (c :: s) = .error ⟨.operatorAfterIndirect c, c :: s⟩ := by
  rw [noOperator, parse_bind_of_ok (parse_peek _), List.head?_cons]
  show (if c ∈ operatorSigns then _ else _ : Rule Unit).parse (c :: s) = _
  rw [if_pos h, parse_fail]

theorem refuses_noOperator {c : Char} (h : c ∈ operatorSigns) : noOperator.Refuses (c :: s) :=
  ⟨_, parse_noOperator_of_mem h, rfl⟩

theorem parse_notBehind_eq_ok_iff :
    (notBehind form).parse s = .ok ((), t) ↔ t = s ∧ (form = .indirect → NoOperator s) := by
  cases form with
  | indirect =>
    rw [notBehind, parse_noOperator_eq_ok_iff]
    simp
  | indirectY | xIndirect | move | address | immediate | longIndirectY | longIndirect
  | stackIndirectY =>
    rw [notBehind, parse_pure]
    · simp [eq_comm]
    · simp

/-- A form is read just if its parts are, and nothing follows that must not. -/
theorem parse_operandExpressions_eq_ok_iff {value : Expression} {second : Option Expression} :
    (operandExpressions inner form).parse s = .ok ((value, second), t) ↔
      (sequence inner form.production).parse s = .ok (value :: second.toList, t) ∧
        (form = .indirect → NoOperator t) := by
  have hlist : ((operandExpressions inner form).parse s = .ok ((value, second), t)) ↔
      (operandExpressions inner form >>= fun (v, w) => pure (v :: w.toList)).parse s =
        .ok (value :: second.toList, t) := by
    rw [parse_bind_eq_ok_iff]
    constructor
    · intro h
      exact ⟨(value, second), t, h, rfl⟩
    · rintro ⟨⟨v, w⟩, u, h, hpure⟩
      obtain ⟨hvalues, rfl⟩ := eq_of_parse_pure hpure
      obtain ⟨rfl, hsecond⟩ := List.cons_eq_cons.mp hvalues
      cases w <;> cases second <;> cases hsecond <;> exact h
  rw [hlist, operandExpressions_eq, parse_bind_eq_ok_iff]
  constructor
  · rintro ⟨values, u, hvalues, h⟩
    obtain ⟨_, v, hend, h⟩ := parse_bind_eq_ok_iff.mp h
    obtain ⟨rfl, rfl⟩ := eq_of_parse_pure h
    obtain ⟨rfl, hbehind⟩ := parse_notBehind_eq_ok_iff.mp hend
    exact ⟨hvalues, hbehind⟩
  · rintro ⟨hvalues, hbehind⟩
    refine ⟨_, t, hvalues, ?_⟩
    rw [parse_bind_of_ok (parse_notBehind_eq_ok_iff.mpr ⟨rfl, hbehind⟩), parse_pure]

/-- A form is refused where its parts are, or what follows them. -/
theorem refuses_operandExpressions
    (h : (sequence inner form.production >>= fun values =>
      notBehind form >>= fun _ => pure values).Refuses s) :
    (operandExpressions inner form).Refuses s := by
  rw [← operandExpressions_eq] at h
  obtain ⟨f, hf, hd⟩ := h
  cases hp : (operandExpressions inner form).parse s with
  | ok x =>
    rw [parse_bind_of_ok hp] at hf
    cases hf
  | error g =>
    rw [parse_bind_of_error hp] at hf
    cases hf
    exact ⟨f, hp, hd⟩

/-! ## One part after the other -/

theorem skipsBlanks_sequence (h : inner.SkipsBlanks) (hne : parts ≠ []) :
    (sequence inner parts).SkipsBlanks := by
  cases parts with
  | nil => exact absurd rfl hne
  | cons part parts =>
    cases part with
    | token chars what => exact (skipsBlanks_expect chars what).bind _
    | value => exact h.bind _

theorem parse_sequence_token {c : Char} (hb : Text.isBlank c = false) (hc : c ∈ chars) (w : Blanks)
    (s : List Char) :
    (sequence inner (.token chars what :: parts)).parse (c :: (w.chars ++ s)) =
      (sequence inner parts).parse (Text.skipBlanks s) := by
  rw [sequence, parse_bind_of_ok (parse_expect_cons hb hc), w.skipBlanks_append]

theorem refuses_sequence_of_missing (h : ∀ c ∈ (Text.skipBlanks s).head?, c ∉ chars) :
    (sequence inner (.token chars what :: parts)).Refuses s :=
  (refuses_expect h).bind _

theorem refuses_sequence_token {c : Char} (hb : Text.isBlank c = false) (hc : c ∈ chars)
    (w : Blanks) (h : (sequence inner parts).Refuses (Text.skipBlanks s)) :
    (sequence inner (.token chars what :: parts)).Refuses (c :: (w.chars ++ s)) := by
  obtain ⟨f, hf, hd⟩ := h
  exact ⟨f, (parse_sequence_token hb hc w s).trans hf, hd⟩

theorem refuses_sequence_value {e : Expression} (he : inner.parse s = .ok (e, t))
    (h : (sequence inner parts).Refuses t) : (sequence inner (.value :: parts)).Refuses s :=
  .after he (h.bind _)

end Rule

/-! ## What is derived is read -/

namespace Derivation

/-- No token is a blank, and behind every expression comes a sign that ends it, or nothing. -/
def delimited : List Part → Bool
  | [] => true
  | .token chars _ :: parts => chars.all (!Text.isBlank ·) && delimited parts
  | [.value] => true
  | .value :: .value :: _ => false
  | .value :: .token chars what :: parts =>
    chars.all (· ∈ endSigns) && delimited (.token chars what :: parts)

theorem delimited_production (form : OperandForm) : delimited form.production = true := by
  cases form <;> decide

namespace Pieces

variable {n : Nat}

/-- An expression is the last part, or a sign comes next that ends it. -/
theorem follows_value {parts : List Part} (e : Spaced) (others : Pieces parts) {t : List Char}
    (hparts : delimited (.value :: parts) = true) (h : Follows (others.afterLast e.after) t)
    (ht : NoOperator t) :
    delimited parts = true ∧ Follows e.after (others.text ++ t) ∧
      NoOperator (others.text ++ t) := by
  cases others with
  | nil => exact ⟨rfl, h, ht⟩
  | token c hc after others =>
    obtain ⟨hend, hothers⟩ := Bool.and_eq_true_iff.mp hparts
    have hc : c ∈ endSigns := by simpa using List.all_eq_true.mp hend c hc
    exact ⟨hothers, follows_endSign e.after _ hc, noOperator_endSign _ hc⟩
  | value e others => cases hparts

/-- **The pieces of a derivation are read one after the other.** -/
theorem parse (limit : Nat) : ∀ {parts : List Part} (d : Pieces parts) (w : Blanks) {t : List Char},
    delimited parts = true → d.levels ≤ n → d.Fits → Follows (d.afterLast w) t → NoOperator t →
    (sequence (nested limit n) parts).parse (d.text ++ t) = .ok (d.trees, t)
  | _, .nil, w, t, _, _, _, _, _ => rfl
  | _, .token c hc after others, w, t, hparts, hlevels, hfits, h, ht => by
    obtain ⟨hchars, hothers⟩ := Bool.and_eq_true_iff.mp hparts
    have hb : Text.isBlank c = false := by simpa using List.all_eq_true.mp hchars c hc
    have hparse := others.parse limit after hothers hlevels hfits h ht
    rw [text, List.cons_append, List.append_assoc, parse_sequence_token hb hc, trees]
    -- blanks behind the token are left neither to another part nor to what follows
    cases others with
    | nil => exact (congrArg _ h.unspaced.skipBlanks_eq).trans hparse
    | token _ _ _ _ | value _ _ =>
      refine (skipsBlanks_sequence (skipsBlanks_nested limit n) ?_ _).trans hparse
      exact List.cons_ne_nil _ _
  | _, @Pieces.value parts e others, w, t, hparts, hlevels, hfits, h, ht => by
    obtain ⟨hlevels, hlevels'⟩ := Nat.max_le.mp hlevels
    obtain ⟨hfits, hfits'⟩ := hfits
    obtain ⟨hothers, hfollows, hno⟩ := follows_value e others hparts h ht
    have he := e.parse_nested limit hlevels hfits hfollows hno
    have hparse := others.parse limit e.after hothers hlevels' hfits' h ht
    rw [text, List.append_assoc, Rule.sequence, parse_bind_of_ok he, parse_bind_of_ok hparse, trees,
      parse_pure]

end Pieces

/-! ## What is read is derived -/

/-- **What is read part by part is made of pieces**, with blanks in front of them. -/
theorem Reads.sequence {inner : Rule Expression} {n : Nat} (hinner : Reads inner n)
    {parts : List Part} {s t : List Char} {es : List Expression}
    (h : (sequence inner parts).parse s = .ok (es, t)) :
    ∃ (w : Blanks) (d : Pieces parts), s = w.chars ++ (d.text ++ t) ∧ d.trees = es ∧
      d.levels ≤ n ∧ d.Fits ∧ (parts ≠ [] ∨ Unspaced s → Unspaced t) := by
  induction parts generalizing s es with
  | nil =>
    obtain ⟨rfl, rfl⟩ := eq_of_parse_pure h
    exact ⟨.none, .nil, rfl, rfl, Nat.zero_le n, trivial, fun hs => hs.resolve_left (· rfl)⟩
  | cons part parts ih =>
    cases part with
    | token chars what =>
      obtain ⟨c, u, hc, hothers⟩ := parse_bind_eq_ok_iff.mp h
      obtain ⟨v, hs, hmem, rfl⟩ := parse_expect_eq_ok_iff.mp hc
      obtain ⟨w, d, hv, hd, hlevels, hfits, ht⟩ := ih hothers
      refine ⟨.leading s, .token c hmem ((Blanks.leading v).append w) d, ?_, hd, hlevels, hfits,
        fun _ => ht (.inr (unspaced_skipBlanks v))⟩
      rw [Pieces.text, Blanks.append, List.cons_append, List.append_assoc, List.append_assoc, ← hv,
        Blanks.leading_append, ← hs, Blanks.leading_append]
    | value =>
      obtain ⟨e, u, he, h⟩ := parse_bind_eq_ok_iff.mp h
      obtain ⟨others, v, hothers, hpure⟩ := parse_bind_eq_ok_iff.mp h
      obtain ⟨rfl, rfl⟩ := eq_of_parse_pure hpure
      obtain ⟨x, rfl, rfl, hlevels, hfits, hu⟩ := hinner.derives he
      obtain ⟨w, d, rfl, rfl, hlevels', hfits', ht⟩ := ih hothers
      rw [Blanks.eq_nil_of_unspaced hu, List.nil_append] at ht ⊢
      refine ⟨.none, .value x d, ?_, rfl, Nat.max_le.mpr ⟨hlevels, hlevels'⟩, ⟨hfits, hfits'⟩,
        fun _ => ht (.inr ?_)⟩
      · rw [Pieces.text, List.append_assoc]
        rfl
      · rwa [Blanks.eq_nil_of_unspaced hu, List.nil_append] at hu

end Derivation

end Asm65816
