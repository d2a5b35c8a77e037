import Asm65816.Proofs.Grammar.LeftmostFault
import Asm65816.Proofs.Grammar.Primary
import Asm65816.Reading

/-!
# What is derived is read

The rule for expressions, applied to the text of a derivation with something behind it, reads just
that text and gives the tree of the derivation, unless a literal is too great or nesting is too
deep. Then the leftmost such place is where it fails, as neither kind of failure is ever given back.

Chains nest to the left, so the text of a chain begins with the text of a shorter chain and not with
that of its operator. What is proved of a chain by induction is therefore not that it is read, but
that reading it leads to the rest of a chain from its tree on (`chainFrom`), whatever follows.
-/

namespace Asm65816

open Rule

/-! ## Blanks in front -/

namespace Rule

theorem SkipsBlanks.parse_append {α : Type} {r : Rule α} (h : r.SkipsBlanks) (w : Blanks)
    (s : List Char) : r.parse (w.chars ++ s) = r.parse s := by
  rw [← h (w.chars ++ s), w.skipBlanks_append, h s]

theorem skipsBlanks_primary (inner : Rule Expression) : (primary inner).SkipsBlanks :=
  skipsBlanks_blanks.bind _

theorem skipsBlanks_term (inner : Rule Expression) : (term inner).SkipsBlanks :=
  (skipsBlanks_primary inner).chain

theorem skipsBlanks_sum (inner : Rule Expression) : (sum inner).SkipsBlanks :=
  (skipsBlanks_term inner).chain

theorem skipsBlanks_nested (limit n : Nat) : (nested limit n).SkipsBlanks := by
  cases n with
  | zero => exact skipsBlanks_blanks.bind _
  | succ n => exact skipsBlanks_blanks.bind _

theorem parse_nested_zero (limit : Nat) (s : List Char) :
    (nested limit 0).parse s = .error ⟨.tooDeep limit, Text.skipBlanks s⟩ := rfl

theorem parse_nested_succ (limit n : Nat) (s : List Char) :
    (nested limit (n + 1)).parse s = (sum (nested limit n)).parse s := by
  rw [nested, parse_bind_of_ok (parse_blanks s)]
  exact skipsBlanks_sum _ s

end Rule

/-! ## Operators -/

/-- A text without an operator in front. -/
def NoOperator (t : List Char) : Prop := ∀ c ∈ t.head?, c ∉ operatorSigns

theorem noOperator_nil : NoOperator [] := by simp [NoOperator]

theorem not_blank_of_operatorSign {c : Char} (h : c ∈ operatorSigns) : Text.isBlank c = false :=
  forall_mem_of_all (p := (Text.isBlank · = false)) (by decide) c h

theorem noOperator_cons {c : Char} (t : List Char) (h : c ∉ operatorSigns) :
    NoOperator (c :: t) := by
  intro d hd
  cases hd
  exact h

/-- The signs that end an expression. -/
def endSigns : List Char := [')', ']', ',']

theorem follows_endSign (w : Blanks) {c : Char} (t : List Char) (hc : c ∈ endSigns) :
    Follows w (c :: t) :=
  follows_cons w t (forall_mem_of_all (p := (· ∈ closingSigns)) (by decide) c hc)

theorem noOperator_endSign {c : Char} (t : List Char) (hc : c ∈ endSigns) : NoOperator (c :: t) :=
  noOperator_cons t (forall_mem_of_all (p := (· ∉ operatorSigns)) (by decide) c hc)

theorem Operator.additive?_eq_none {c : Char} (h : c ∉ operatorSigns) : additive? c = none := by
  unfold additive?
  split
  · exact absurd (by decide) h
  · exact absurd (by decide) h
  · rfl

theorem Operator.multiplicative?_eq_none {c : Char} (h : c ∉ operatorSigns) :
    multiplicative? c = none := by
  unfold multiplicative?
  split
  · exact absurd (by decide) h
  · exact absurd (by decide) h
  · rfl

/-- The sign of an operator between terms. -/
theorem Operator.additive_sign {o : Operator} (h : o = .add ∨ o = .sub) :
    ∃ c, o.symbol.toList = [c] ∧ additive? c = some o ∧ multiplicative? c = none ∧
      c ∈ closingSigns := by
  rcases h with rfl | rfl
  · exact ⟨'+', by decide, rfl, rfl, by decide⟩
  · exact ⟨'-', by decide, rfl, rfl, by decide⟩

/-- The sign of an operator between primaries. -/
theorem Operator.multiplicative_sign {o : Operator} (h : o = .mul ∨ o = .div) :
    ∃ c, o.symbol.toList = [c] ∧ multiplicative? c = some o ∧ c ∈ closingSigns := by
  rcases h with rfl | rfl
  · exact ⟨'*', by decide, rfl, by decide⟩
  · exact ⟨'/', by decide, rfl, by decide⟩

theorem not_blank_of_closingSign {c : Char} (h : c ∈ closingSigns) : Text.isBlank c = false :=
  forall_mem_of_all (p := (Text.isBlank · = false)) (by decide) c h

/-! ## The first character -/

theorem not_blank_of_beginsPrimary {c : Char} (h : beginsPrimary c = true) :
    Text.isBlank c = false := by
  rw [Bool.eq_false_iff]
  intro hb
  rcases Text.isBlank_iff.mp hb with rfl | rfl | rfl | rfl <;> exact absurd h (by decide)

namespace Derivation

theorem Primary.begins (p : Primary) : ∃ c u, p.text = c :: u ∧ beginsPrimary c = true := by
  have word : ∀ name : Word, beginsPrimary name.first = true := by
    intro name
    simp [beginsPrimary, name.starts]
  cases p with
  | group inner => exact ⟨'(', inner.text ++ [')'], rfl, by decide⟩
  | decimal run =>
    obtain ⟨c, u, hu⟩ := List.exists_cons_of_ne_nil run.ne_nil
    have hc := run.all_digits c (by simp [hu])
    exact ⟨c, u, hu, by simp [beginsPrimary, hc]⟩
  | hexadecimal between run => exact ⟨'$', between.chars ++ run.chars, rfl, by decide⟩
  | reference name => exact ⟨name.first, name.others, rfl, word name⟩
  | emptyCall name between inside =>
    exact ⟨name.first, name.others ++ between.chars ++ '(' :: inside.chars ++ [')'], rfl, word name⟩
  | call name between arguments =>
    exact ⟨name.first, name.others ++ between.chars ++ '(' :: arguments.text ++ [')'], rfl,
      word name⟩

theorem Term.begins (x : Term) : ∃ c u, x.text = c :: u ∧ beginsPrimary c = true := by
  cases x with
  | primary p => exact p.begins
  | join left before operator multiplicative after right =>
    obtain ⟨c, u, hu, hc⟩ := left.begins
    exact ⟨c, u ++ before.chars ++ operator.symbol.toList ++ after.chars ++ right.text,
      by rw [Term.text, hu]; rfl, hc⟩

theorem Sum.begins (e : Sum) : ∃ c u, e.text = c :: u ∧ beginsPrimary c = true := by
  cases e with
  | term x => exact x.begins
  | join left before operator additive after right =>
    obtain ⟨c, u, hu, hc⟩ := left.begins
    exact ⟨c, u ++ before.chars ++ operator.symbol.toList ++ after.chars ++ right.text,
      by rw [Sum.text, hu]; rfl, hc⟩

/-- The first character of an expression behind the blanks. -/
theorem Spaced.begins : ∀ (e : Spaced) (t : List Char),
    ∃ c u, Text.skipBlanks (e.text ++ t) = c :: u ∧ beginsPrimary c = true
  | .mk before sum after, t => by
    obtain ⟨c, u, hu, hc⟩ := sum.begins
    refine ⟨c, u ++ after.chars ++ t, ?_, hc⟩
    rw [Spaced.text, List.append_assoc, List.append_assoc, before.skipBlanks_append,
      hu, List.cons_append,
      Text.skipBlanks_cons_of_not_blank (by simp [not_blank_of_beginsPrimary hc]),
      List.append_assoc]

/-- The first character of arguments behind the blanks. -/
theorem Arguments.begins : ∀ (es : Arguments) (t : List Char),
    ∃ c u, Text.skipBlanks (es.text ++ t) = c :: u ∧ beginsPrimary c = true
  | .one e, t => e.begins t
  | .snoc earlier e, t => by
    obtain ⟨c, u, hu, hc⟩ := earlier.begins (',' :: e.text ++ t)
    exact ⟨c, u, by rw [Arguments.text, List.append_assoc]; exact hu, hc⟩

theorem Sum.unspaced (e : Sum) (t : List Char) : Unspaced (e.text ++ t) := by
  obtain ⟨c, u, hu, hc⟩ := e.begins
  rw [hu]
  exact unspaced_cons (u ++ t) (not_blank_of_beginsPrimary hc)

end Derivation

/-! ## Literals and names -/

namespace Rule

theorem parse_digits_run {radix : Radix} (run : DigitRun radix) {w : Blanks} {t : List Char}
    (h : Follows w t) (what : String) (lead : List Char) :
    (digits radix what lead).parse (run.chars ++ (w.chars ++ t)) =
      (run.overflow? lead (w.chars ++ t)).elim (.ok ((run.chars, run.value), t)) .error := by
  have hp : ∀ c, radix.isDigit c = true → Text.isIdentifierContinue c = true :=
    fun _ => Text.isIdentifierContinue_of_isDigit
  obtain ⟨htake, hdrop⟩ := takeWhile_run hp run.all_digits fun c hc hd => h.apart c hc (hp c hd)
  obtain ⟨c, u, hu⟩ := List.exists_cons_of_ne_nil run.ne_nil
  have hc := run.all_digits c (by simp [hu])
  rw [hu, List.cons_append] at htake hdrop ⊢
  rw [List.takeWhile_cons_of_pos hc] at htake
  rw [List.dropWhile_cons_of_pos hc] at hdrop
  rw [parse_digits_cons hc, htake, hdrop, h.unspaced.skipBlanks_append, DigitRun.overflow?, hu]
  cases hr : radix.read maxNumber (c :: u) with
  | ok value =>
    obtain ⟨rfl, _⟩ := Radix.read_eq_ok_iff.mp hr
    simp [DigitRun.value, hu]
  | error late => rfl

theorem parse_identifier_word (name : Word) {w : Blanks} {t : List Char}
    (h : ∀ c ∈ t.head?, Text.isIdentifierContinue c = true → w.chars ≠ []) :
    identifier.parse (name.chars ++ (w.chars ++ t)) = .ok (name.name, w.chars ++ t) := by
  obtain ⟨htake, hdrop⟩ := takeWhile_run (fun _ hc => hc) name.continues h
  rw [Word.chars, List.cons_append, parse_identifier_of_start name.starts, htake, hdrop]
  rfl

/-- A rule that begins with a name goes on behind that name. -/
theorem parse_blanks_identifier {α : Type} (next : String → Rule α) (name : Word) {w : Blanks}
    {t : List Char} (h : ∀ c ∈ t.head?, Text.isIdentifierContinue c = true → w.chars ≠ []) :
    (blanks >>= fun _ => identifier >>= next).parse (name.chars ++ (w.chars ++ t)) =
      (next name.name).parse (w.chars ++ t) := by
  rw [parse_bind_of_ok (parse_blanks _), (name.unspaced_append (w.chars ++ t)).skipBlanks_eq,
    parse_bind_of_ok (parse_identifier_word name h)]

theorem parse_primary_word (inner : Rule Expression) (name : Word) {w : Blanks} {t : List Char}
    (h : ∀ c ∈ t.head?, Text.isIdentifierContinue c = true → w.chars ≠ []) :
    (primary inner).parse (name.chars ++ (w.chars ++ t)) =
      (nameEnd inner name.name).parse (w.chars ++ t) := by
  have hname := parse_blanks_identifier (nameEnd inner) name h
  rw [Word.chars, List.cons_append] at hname ⊢
  rw [parse_primary_start name.starts, name_eq, hname]

/-- A name and an opening parenthesis make a function. -/
theorem parse_primary_call (inner : Rule Expression) (name : Word) (w : Blanks) (s : List Char) :
    (primary inner).parse (name.chars ++ (w.chars ++ '(' :: s)) =
      (arguments inner >>= fun es => pure (.call name.name es)).parse (Text.skipBlanks s) := by
  rw [parse_primary_word inner name (by intro c hc hi; cases hc; exact absurd hi (by decide))]
  refine parse_nameEnd_of_open (c := '(') ?_
  rw [← nextToken?_skipBlanks, w.skipBlanks_append, nextToken?_skipBlanks,
    nextToken?_cons (by decide)]
  rfl

/-! ## Chains -/

/-- An operator and what is read as its operand join a chain. -/
theorem parse_chainFrom_join {operator? : Char → Option Operator} {operand : Rule Expression}
    (left : Expression) (w : Blanks) (hskip : operand.SkipsBlanks) {right : Expression}
    {o : Operator} {c : Char} {s t : List Char} {fault : Option Failure} (hc : operator? c = some o)
    (hb : Text.isBlank c = false) (hsoft : ∀ f, fault = some f → f.fault.isSoft = false)
    (hright : operand.parse s = fault.elim (.ok (right, t)) .error) :
    (chainFrom operator? operand left).parse (c :: (w.chars ++ s)) =
      fault.elim ((chainFrom operator? operand (.binary o left right)).parse t) .error := by
  have htoken : nextToken? operator? (c :: (w.chars ++ s)) =
      some (o, Text.skipBlanks (w.chars ++ s)) := by
    rw [nextToken?_cons hb, hc]
    rfl
  have hskipped : operand.parse (Text.skipBlanks (w.chars ++ s)) = operand.parse s := by
    rw [hskip, hskip.parse_append]
  cases fault with
  | none => exact parse_chainFrom_of_ok htoken (hskipped.trans hright)
  | some f => exact parse_chainFrom_of_hard htoken (hskipped.trans hright) (hsoft f rfl)

theorem parse_chainFrom_end {operator? : Char → Option Operator} {operand : Rule Expression}
    {a : Expression} {t : List Char} (ht : Unspaced t) (h : ∀ c ∈ t.head?, operator? c = none) :
    (chainFrom operator? operand a).parse t = .ok (a, t) :=
  parse_chainFrom_of_none (nextToken?_eq_none_iff.mpr (by rwa [ht.skipBlanks_eq]))

section

variable {limit n : Nat} {c : Char} {s t : List Char} {e : Expression} {f : Failure}

/-- An expression is its first primary if no operator stands behind it. -/
theorem parse_nested_of_parse_primary (h : (primary (nested limit n)).parse s = .ok (e, t))
    (hu : Unspaced t) (ht : NoOperator t) : (nested limit (n + 1)).parse s = .ok (e, t) := by
  have hterm : (chainFrom Operator.multiplicative? (primary (nested limit n)) e).parse t =
      .ok (e, t) :=
    parse_chainFrom_end hu fun c hc => Operator.multiplicative?_eq_none (ht c hc)
  rw [parse_nested_succ, sum, chain_eq, term, chain_eq, bind_assoc, parse_bind_of_ok h,
    parse_bind_of_ok hterm,
    parse_chainFrom_end hu fun c hc => Operator.additive?_eq_none (ht c hc)]

/-- Where the first primary is read, an expression fails behind an operator. -/
theorem nested_failure_lt_of_primary (h : (primary (nested limit n)).parse s = .ok (e, t))
    (hf : (nested limit (n + 1)).parse s = .error f) : f.rest.length < t.length := by
  rw [parse_nested_succ, sum, chain_eq] at hf
  have hterm : (term (nested limit n)).parse s =
      (chainFrom Operator.multiplicative? (primary (nested limit n)) e).parse t := by
    rw [term, chain_eq, parse_bind_of_ok h]
  rcases parse_bind_eq_error_iff.mp hf with hfirst | ⟨a, u, hfirst, hothers⟩
  · rw [hterm] at hfirst
    exact chainFrom_failure_lt hfirst
  · rw [hterm] at hfirst
    have hu := (parse_suffix hfirst).length_le
    have hlt := chainFrom_failure_lt hothers
    omega

/-- An expression that has begun fails behind its first character. -/
theorem nested_failure_lt (hc : beginsPrimary c = true)
    (hf : (nested limit (n + 1)).parse (c :: s) = .error f) :
    f.rest.length < (c :: s).length := by
  cases hprimary : (primary (nested limit n)).parse (c :: s) with
  | ok x =>
    have hlt := nested_failure_lt_of_primary hprimary hf
    have hx := (parse_suffix hprimary).length_le
    omega
  | error g =>
    rw [parse_nested_succ, sum, chain_eq, term, chain_eq, bind_assoc,
      parse_bind_of_error hprimary] at hf
    cases hf
    exact primary_failure_lt hc hprimary

end

/-- A chain whose beginning is read goes on with the next operand. -/
theorem elim_join {α : Type} {left right : Option Failure} {x y z : Except Failure α}
    (hx : x = left.elim y .error) (hy : y = right.elim z .error) :
    x = (left.or right).elim z .error := by
  rw [hx]
  cases left with
  | some f => rfl
  | none => exact hy

end Rule

/-! ## Derivations -/

namespace Derivation

variable {limit : Nat}

mutual

/-- **The text of an expression is read as its tree, or its leftmost failure is found.** -/
theorem Spaced.parse_text : ∀ (e : Spaced) (n : Nat) {t : List Char},
    Follows e.after t → NoOperator t →
    (nested limit n).parse (e.text ++ t) = (e.fault? limit n t).elim (.ok (e.tree, t)) .error
  | .mk before sum after, 0, t, _, _ => by
    rw [parse_nested_zero, Spaced.text, List.append_assoc, List.append_assoc,
      before.skipBlanks_append, (sum.unspaced _).skipBlanks_eq]
    rfl
  | .mk before sum after, n + 1, t, h, ht => by
    rw [parse_nested_succ, Spaced.text, List.append_assoc, List.append_assoc,
      (skipsBlanks_sum _).parse_append,
      sum.parse_text (w := after) n h fun c hc => Operator.multiplicative?_eq_none (ht c hc),
      parse_chainFrom_end h.unspaced fun c hc => Operator.additive?_eq_none (ht c hc)]
    rfl

/-- Reading the text of a sum leads to the rest of a chain of terms. -/
theorem Sum.parse_text : ∀ (e : Sum) (n : Nat) {w : Blanks} {t : List Char},
    Follows w t → (∀ c ∈ t.head?, Operator.multiplicative? c = none) →
    (sum (nested limit n)).parse (e.text ++ (w.chars ++ t)) =
      (e.fault? limit n (w.chars ++ t)).elim
        ((chainFrom Operator.additive? (term (nested limit n)) e.tree).parse t) .error
  | .term x, n, w, t, h, ht => by
    have hx := x.parse_text n h
    rw [parse_chainFrom_end h.unspaced ht] at hx
    rw [Sum.text, Sum.fault?, Sum.tree, sum, chain_eq]
    exact parse_bind_elim hx
  | .join left before o additive after right, n, w, t, h, ht => by
    obtain ⟨c, hs, hc, hm, hclosing⟩ := Operator.additive_sign additive
    -- the sign follows the sum on the left, and is no sign for its last term to go on with
    have hright := right.parse_text n h
    rw [parse_chainFrom_end h.unspaced ht] at hright
    have hleft := left.parse_text n
      (follows_cons before (after.chars ++ (right.text ++ (w.chars ++ t))) hclosing)
      (by intro d hd; cases hd; exact hm)
    have hjoin := parse_chainFrom_join left.tree after (skipsBlanks_term _) hc
      (not_blank_of_closingSign hclosing)
      (fun f hf => (right.final_of_fault? n (w.chars ++ t) f hf).isSoft) hright
    simp only [Sum.text, Sum.fault?, Sum.tree, hs, List.append_assoc, List.cons_append,
      List.nil_append]
    exact elim_join hleft hjoin

/-- Reading the text of a term leads to the rest of a chain of primaries. -/
theorem Term.parse_text : ∀ (x : Term) (n : Nat) {w : Blanks} {t : List Char}, Follows w t →
    (term (nested limit n)).parse (x.text ++ (w.chars ++ t)) =
      (x.fault? limit n (w.chars ++ t)).elim
        ((chainFrom Operator.multiplicative? (primary (nested limit n)) x.tree).parse t) .error
  | .primary p, n, w, t, h => by
    have hp := p.parse_text n h
    rw [Term.text, Term.fault?, Term.tree, term, chain_eq]
    exact parse_bind_elim hp
  | .join left before o multiplicative after right, n, w, t, h => by
    obtain ⟨c, hs, hc, hclosing⟩ := Operator.multiplicative_sign multiplicative
    have hleft := left.parse_text n
      (follows_cons before (after.chars ++ (right.text ++ (w.chars ++ t))) hclosing)
    have hjoin := parse_chainFrom_join left.tree after (skipsBlanks_primary _) hc
      (not_blank_of_closingSign hclosing)
      (fun f hf => (right.final_of_fault? n (w.chars ++ t) f hf).isSoft) (right.parse_text n h)
    simp only [Term.text, Term.fault?, Term.tree, hs, List.append_assoc, List.cons_append,
      List.nil_append]
    exact elim_join hleft hjoin

/-- The text of a primary is read as its tree, or its leftmost failure is found. -/
theorem Primary.parse_text : ∀ (p : Primary) (n : Nat) {w : Blanks} {t : List Char}, Follows w t →
    (primary (nested limit n)).parse (p.text ++ (w.chars ++ t)) =
      (p.fault? limit n (w.chars ++ t)).elim (.ok (p.tree, t)) .error
  | .group inner, n, w, t, h => by
    have hend : ')' ∈ endSigns := by decide
    have hinner := inner.parse_text n (follows_endSign inner.after (w.chars ++ t) hend)
      (noOperator_endSign (w.chars ++ t) hend)
    rw [← skipsBlanks_nested] at hinner
    simp only [Primary.text, Primary.fault?, Primary.tree, List.cons_append, List.append_assoc,
      List.nil_append]
    rw [parse_primary_open, group, parse_bind_of_ok (parse_expect_sign (by decide)),
      parse_bind_elim hinner, parse_bind_of_ok (parse_expect_sign (by decide)),
      h.unspaced.skipBlanks_append, parse_pure]
  | .decimal run, n, w, t, h => by
    have hrun := parse_digits_run run h "decimal digit" []
    obtain ⟨c, u, hu⟩ := List.exists_cons_of_ne_nil run.ne_nil
    have hc := run.all_digits c (by simp [hu])
    rw [Primary.text, Primary.fault?, Primary.tree]
    rw [hu, List.cons_append] at hrun ⊢
    rw [parse_primary_digit hc, decimal, parse_bind_of_ok (parse_blanks _),
      Text.skipBlanks_cons_of_not_blank (by simp [Text.isBlank_of_isDigit hc])]
    exact parse_bind_elim hrun
  | .hexadecimal between run, n, w, t, h => by
    have hrun := parse_digits_run run h "hexadecimal digit after '$'" ['$']
    have hunspaced : Unspaced (run.chars ++ (w.chars ++ t)) := by
      obtain ⟨c, u, hu⟩ := List.exists_cons_of_ne_nil run.ne_nil
      have hc := run.all_digits c (by simp [hu])
      rw [hu]
      exact unspaced_cons _ (Text.isBlank_of_isDigit hc)
    simp only [Primary.text, Primary.fault?, Primary.tree, List.cons_append, List.append_assoc]
    rw [parse_primary_dollar, hexadecimal,
      parse_bind_of_ok (parse_expect_sign (by decide)), hunspaced.skipBlanks_append]
    exact parse_bind_elim hrun
  | .reference name, n, w, t, h => by
    -- no parenthesis makes a function of the name
    have hopen : nextToken? (oneOf ['(']) (w.chars ++ t) = none := by
      rw [nextToken?_eq_none_iff, h.unspaced.skipBlanks_append]
      intro c hc
      exact oneOf_eq_none_iff.mpr (by simpa using h.not_open c hc)
    rw [Primary.text, parse_primary_word _ name h.apart, parse_nameEnd_of_none hopen,
      h.unspaced.skipBlanks_append]
    rfl
  | .emptyCall name between inside, n, w, t, h => by
    have hclose : nextToken? (oneOf [')']) (Text.skipBlanks (inside.chars ++ ')' :: (w.chars ++ t)))
        = some (')', t) := by
      rw [inside.skipBlanks_append, nextToken?_skipBlanks, nextToken?_cons (by decide),
        h.unspaced.skipBlanks_append]
      rfl
    simp only [Primary.text, List.append_assoc, List.cons_append, List.nil_append]
    rw [parse_primary_call, parse_bind_of_ok (parse_arguments_of_close hclose)]
    rfl
  | .call name between arguments, n, w, t, h => by
    have hskip : (someArguments (nested limit n)).SkipsBlanks := (skipsBlanks_nested limit n).bind _
    have hargs := arguments.parse_text n (t := w.chars ++ t) (.inr rfl)
    -- an argument stands in the place where nothing but a parenthesis would end the list
    have hclose : nextToken? (oneOf [')'])
        (Text.skipBlanks (arguments.text ++ ')' :: (w.chars ++ t))) = none := by
      rw [nextToken?_skipBlanks, nextToken?_eq_none_iff]
      obtain ⟨c, u, hu, hc⟩ := arguments.begins (')' :: (w.chars ++ t))
      rw [hu]
      intro d hd
      cases hd
      rw [oneOf_eq_none_iff]
      intro hmem
      rw [List.mem_singleton.mp hmem] at hc
      exact absurd hc (by decide)
    have hcomma : nextToken? (oneOf [',']) (')' :: (w.chars ++ t)) = none :=
      nextToken?_cons (by decide)
    rw [← hskip, parse_argumentsFrom_of_none hcomma] at hargs
    simp only [Primary.text, Primary.fault?, List.append_assoc, List.cons_append, List.nil_append]
    have hall : (Rule.arguments (nested limit n)).parse
        (Text.skipBlanks (arguments.text ++ ')' :: (w.chars ++ t))) =
          (arguments.fault? limit n (')' :: (w.chars ++ t))).elim (.ok (arguments.trees, t))
            .error := by
      rw [parse_arguments_of_not_close hclose, parse_bind_elim hargs,
        parse_bind_of_ok (parse_expect_sign (by decide)),
        h.unspaced.skipBlanks_append, List.reverse_reverse, parse_pure]
    rw [parse_primary_call]
    exact parse_bind_elim hall

/-- Reading the text of arguments leads to the rest of a list of arguments. -/
theorem Arguments.parse_text : ∀ (es : Arguments) (n : Nat) {c : Char} {t : List Char},
    c = ',' ∨ c = ')' →
    (someArguments (nested limit n)).parse (es.text ++ c :: t) =
      (es.fault? limit n (c :: t)).elim
        ((argumentsFrom (nested limit n) es.trees.reverse).parse (c :: t)) .error
  | .one e, n, c, t, hc => by
    have hend : c ∈ endSigns := by rcases hc with rfl | rfl <;> decide
    have he := e.parse_text n (follows_endSign e.after t hend) (noOperator_endSign t hend)
    rw [Arguments.text, Arguments.fault?, Arguments.trees, someArguments]
    exact parse_bind_elim he
  | .snoc earlier e, n, c, t, hc => by
    have hend : c ∈ endSigns := by rcases hc with rfl | rfl <;> decide
    have hearlier := earlier.parse_text n (t := e.text ++ c :: t) (.inl rfl)
    have he := e.parse_text n (follows_endSign e.after t hend) (noOperator_endSign t hend)
    rw [← skipsBlanks_nested] at he
    have hcomma : nextToken? (oneOf [',']) (',' :: (e.text ++ c :: t)) =
        some (',', Text.skipBlanks (e.text ++ c :: t)) := nextToken?_cons (by decide)
    rw [Arguments.text, Arguments.fault?, Arguments.trees, List.append_assoc, List.cons_append]
    refine elim_join hearlier ?_
    cases hf : e.fault? limit n (c :: t) with
    | none =>
      rw [hf] at he
      rw [parse_argumentsFrom_of_ok hcomma he, List.reverse_append]
      rfl
    | some f =>
      rw [hf] at he
      rw [parse_argumentsFrom_of_error hcomma he]
      rfl

end

end Derivation

end Asm65816
