import Asm65816.Proofs.Grammar.Completeness

/-!
# What is read is derived

Whatever the rule for expressions reads is the text of a derivation, with the tree that the rule
gives and no more levels than the rule had left. What is left over begins with no blank.

A chain is followed from its beginning: the text read so far is always that of a derivation whose
tree is the value so far. The same holds of the arguments of a function.
-/

namespace Asm65816

open Rule

/-! ## Texts with blanks around them -/

/-- A text stands in front of another, with blanks around it. -/
def Framed (x s t : List Char) : Prop :=
  ∃ w w' : Blanks, s = w.chars ++ (x ++ (w'.chars ++ t)) ∧ Unspaced t

theorem Framed.unspaced {x s t : List Char} (h : Framed x s t) : Unspaced t := by
  obtain ⟨_, _, _, ht⟩ := h
  exact ht

theorem Framed.of_skipBlanks {x s t : List Char} (h : Framed x (Text.skipBlanks s) t) :
    Framed x s t := by
  obtain ⟨w, w', hs, ht⟩ := h
  refine ⟨(Blanks.leading s).append w, w', ?_, ht⟩
  rw [Blanks.append, List.append_assoc, ← hs, Blanks.leading_append]

/-- A text in front of blanks, where all of them are skipped. -/
theorem framed_skipBlanks (x s : List Char) : Framed x (x ++ s) (Text.skipBlanks s) :=
  ⟨.none, .leading s, by rw [Blanks.leading_append]; rfl, unspaced_skipBlanks s⟩

/-- Two texts with a sign between them. -/
theorem Framed.join {x y s t u v : List Char} {c : Char} (hx : Framed x s u)
    (hu : u = c :: v) (hy : Framed y (Text.skipBlanks v) t) :
    ∃ before after : Blanks, Framed (x ++ before.chars ++ [c] ++ after.chars ++ y) s t := by
  obtain ⟨w₁, before, hs, _⟩ := hx
  obtain ⟨after, w₂, hv, ht⟩ := hy.of_skipBlanks
  refine ⟨before, after, w₁, w₂, ?_, ht⟩
  rw [hs, hu, hv]
  simp only [List.append_assoc, List.cons_append, List.nil_append]

/-- A token in front of a text without blanks in front is its first character. -/
theorem Unspaced.eq_cons_of_nextToken? {β : Type} {meaning : Char → Option β} {b : β}
    {s t : List Char} (hs : Unspaced s) (h : nextToken? meaning s = some (b, t)) :
    ∃ c u, s = c :: u ∧ meaning c = some b ∧ t = Text.skipBlanks u := by
  obtain ⟨c, u, hu, hc, ht⟩ := nextToken?_eq_some_iff.mp h
  rw [hs.skipBlanks_eq] at hu
  exact ⟨c, u, hu, hc, ht⟩

/-- A required token in front of a text without blanks in front is its first character. -/
theorem Unspaced.eq_cons_of_parse_expect {chars : List Char} {what : String} {c : Char}
    {s t : List Char} (hs : Unspaced s) (h : (expect chars what).parse s = .ok (c, t)) :
    ∃ u, s = c :: u ∧ c ∈ chars ∧ t = Text.skipBlanks u := by
  obtain ⟨u, hu, hc, ht⟩ := parse_expect_eq_ok_iff.mp h
  rw [hs.skipBlanks_eq] at hu
  exact ⟨u, hu, hc, ht⟩

theorem Operator.of_additive? {o : Operator} {c : Char} (h : additive? c = some o) :
    (o = .add ∨ o = .sub) ∧ o.symbol.toList = [c] := by
  unfold additive? at h
  split at h
  · cases h
    exact ⟨.inl rfl, by decide⟩
  · cases h
    exact ⟨.inr rfl, by decide⟩
  · cases h

theorem Operator.of_multiplicative? {o : Operator} {c : Char} (h : multiplicative? c = some o) :
    (o = .mul ∨ o = .div) ∧ o.symbol.toList = [c] := by
  unfold multiplicative? at h
  split at h
  · cases h
    exact ⟨.inl rfl, by decide⟩
  · cases h
    exact ⟨.inr rfl, by decide⟩
  · cases h

/-! ## Literals -/

namespace Rule

/-- What is read as digits is a run of digits that fits. -/
theorem exists_run_of_parse_digits {radix : Radix} {what : String} {lead s t chars : List Char}
    {value : Nat} (h : (digits radix what lead).parse s = .ok ((chars, value), t)) :
    ∃ run : DigitRun radix, Framed run.chars s t ∧ run.chars = chars ∧ run.value = value ∧
      value ≤ maxNumber ∧ Unspaced s := by
  rcases begins_or radix.isDigit s with ⟨c, u, rfl, hd⟩ | hnot
  · rw [parse_digits_cons hd] at h
    split at h
    · rename_i n hn
      cases h
      obtain ⟨hn, hle⟩ := Radix.read_eq_ok_iff.mp hn
      have hs : c :: u =
          (DigitRun.leading hd u).chars ++ u.dropWhile radix.isDigit := by
        rw [DigitRun.leading, List.cons_append, List.takeWhile_append_dropWhile]
      have hframed := framed_skipBlanks (DigitRun.leading hd u).chars (u.dropWhile radix.isDigit)
      rw [← hs] at hframed
      refine ⟨.leading hd u, hframed, rfl, hn.symm, hle, ?_⟩
      intro d hd'
      cases hd'
      exact Text.isBlank_of_isDigit hd
    · cases h
  · rw [parse_digits_of_not_digit hnot] at h
    cases h

end Rule

/-! ## Primaries -/

namespace Derivation

/-- A rule that reads texts of expressions, which take at most so many levels. -/
structure Reads (inner : Rule Expression) (n : Nat) : Prop where
  /-- The rule does not mind blanks in front. -/
  skipsBlanks : inner.SkipsBlanks
  /-- What the rule reads is derived. -/
  derives : ∀ {s t : List Char} {e : Expression}, inner.parse s = .ok (e, t) →
    ∃ d : Spaced, s = d.text ++ t ∧ d.tree = e ∧ d.levels ≤ n ∧ d.Fits ∧ Unspaced t

section

variable {inner : Rule Expression} {n : Nat} {c : Char} {s t : List Char} {e : Expression}

theorem Reads.group (hinner : Reads inner n) (h : (group inner).parse ('(' :: s) = .ok (e, t)) :
    ∃ p : Primary, Framed p.text ('(' :: s) t ∧ p.tree = e ∧ p.levels ≤ n + 1 ∧ p.Fits := by
  rw [Rule.group, parse_bind_of_ok (parse_expect_sign (by decide))] at h
  obtain ⟨e', u, he, h⟩ := parse_bind_eq_ok_iff.mp h
  obtain ⟨c, v, hc, h⟩ := parse_bind_eq_ok_iff.mp h
  obtain ⟨rfl, rfl⟩ := eq_of_parse_pure h
  rw [hinner.skipsBlanks] at he
  obtain ⟨d, rfl, rfl, hlevels, hfits, hu⟩ := hinner.derives he
  obtain ⟨w, rfl, hmem, rfl⟩ := hu.eq_cons_of_parse_expect hc
  rw [List.mem_singleton.mp hmem]
  refine ⟨.group d, ?_, rfl, Nat.succ_le_succ hlevels, hfits⟩
  have hframed := framed_skipBlanks (Primary.group d).text w
  simp only [Primary.text, List.cons_append, List.append_assoc, List.nil_append] at hframed ⊢
  exact hframed

theorem exists_of_parse_decimal (hc : Radix.decimal.isDigit c = true)
    (h : decimal.parse (c :: s) = .ok (e, t)) :
    ∃ p : Primary, Framed p.text (c :: s) t ∧ p.tree = e ∧ p.levels ≤ n + 1 ∧ p.Fits := by
  rw [decimal, parse_bind_of_ok (parse_blanks _),
    Text.skipBlanks_cons_of_not_blank (by simp [Text.isBlank_of_isDigit hc])] at h
  obtain ⟨⟨chars, value⟩, u, hd, h⟩ := parse_bind_eq_ok_iff.mp h
  obtain ⟨rfl, rfl⟩ := eq_of_parse_pure h
  obtain ⟨run, hframed, -, rfl, hfits, -⟩ := exists_run_of_parse_digits hd
  exact ⟨.decimal run, hframed, rfl, Nat.le_add_left 1 n, hfits⟩

theorem exists_of_parse_hexadecimal (h : hexadecimal.parse ('$' :: s) = .ok (e, t)) :
    ∃ p : Primary, Framed p.text ('$' :: s) t ∧ p.tree = e ∧ p.levels ≤ n + 1 ∧ p.Fits := by
  rw [hexadecimal, parse_bind_of_ok (parse_expect_sign (by decide))] at h
  obtain ⟨⟨chars, value⟩, u, hd, h⟩ := parse_bind_eq_ok_iff.mp h
  obtain ⟨rfl, rfl⟩ := eq_of_parse_pure h
  obtain ⟨run, ⟨w, w', hs, ht⟩, rfl, rfl, hfits, -⟩ := exists_run_of_parse_digits hd
  refine ⟨.hexadecimal ((Blanks.leading s).append w) run, ⟨.none, w', ?_, ht⟩, rfl,
    Nat.le_add_left 1 n, hfits⟩
  have hs' := Blanks.leading_append s
  rw [hs] at hs'
  simp only [Primary.text, Blanks.none, Blanks.append, List.nil_append, List.cons_append,
    List.append_assoc]
  rw [hs']

/-- The arguments that were read of a text, the latest of them in front, and what is left over. -/
def ReadsArguments (n : Nat) (s : List Char) (es : List Expression) (t : List Char) : Prop :=
  ∃ d : Arguments, s = d.text ++ t ∧ d.trees.reverse = es ∧ d.levels ≤ n ∧ d.Fits ∧ Unspaced t

theorem Reads.firstArgument (hinner : Reads inner n) (h : inner.parse s = .ok (e, t)) :
    ReadsArguments n s [e] t := by
  obtain ⟨d, hs, hd, hlevels, hfits, ht⟩ := hinner.derives h
  exact ⟨.one d, hs, congrArg (fun e => [e]) hd, hlevels, hfits, ht⟩

/-- One more argument behind a comma. -/
theorem Reads.nextArgument (hinner : Reads inner n) {es : List Expression} {u v : List Char}
    (hes : ReadsArguments n s es u) (hcomma : nextToken? (oneOf [',']) u = some (c, v))
    (he : inner.parse v = .ok (e, t)) : ReadsArguments n s (e :: es) t := by
  obtain ⟨d, hs, rfl, hlevels, hfits, hu⟩ := hes
  obtain ⟨c', v', rfl, hc, rfl⟩ := hu.eq_cons_of_nextToken? hcomma
  rw [hinner.skipsBlanks] at he
  obtain ⟨d', rfl, rfl, hlevels', hfits', ht⟩ := hinner.derives he
  rw [List.mem_singleton.mp (oneOf_eq_some_iff.mp hc).1] at hs
  refine ⟨.snoc d d', ?_, ?_, Nat.max_le.mpr ⟨hlevels, hlevels'⟩, ⟨hfits, hfits'⟩, ht⟩
  · rw [hs, Arguments.text, List.append_assoc, List.cons_append]
  · rw [Arguments.trees, List.reverse_append]
    rfl

/-- Arguments that are read up to the closing parenthesis are derived. -/
theorem Reads.someArguments (hinner : Reads inner n) {es : List Expression}
    (h : (someArguments inner).parse s = .ok (es, t)) : ReadsArguments n s es t := by
  obtain ⟨e, u, he, h⟩ := parse_bind_eq_ok_iff.mp h
  exact argumentsFrom_invariant (P := ReadsArguments n s) hinner.nextArgument h
    (hinner.firstArgument he)

theorem Reads.nameEnd (hinner : Reads inner n) (name : Word)
    (h : (nameEnd inner name.name).parse s = .ok (e, t)) :
    ∃ p : Primary, Framed p.text (name.chars ++ s) t ∧ p.tree = e ∧ p.levels ≤ n + 1 ∧
      p.Fits := by
  cases hopen : nextToken? (oneOf ['(']) s with
  | none =>
    rw [parse_nameEnd_of_none hopen] at h
    cases h
    exact ⟨.reference name, framed_skipBlanks name.chars s, rfl, Nat.le_add_left 1 n, trivial⟩
  | some x =>
    obtain ⟨o, u⟩ := x
    rw [parse_nameEnd_of_open hopen] at h
    obtain ⟨es, v, hes, h⟩ := parse_bind_eq_ok_iff.mp h
    obtain ⟨rfl, rfl⟩ := eq_of_parse_pure h
    obtain ⟨o', u', hs, ho, rfl⟩ := nextToken?_eq_some_iff.mp hopen
    rw [List.mem_singleton.mp (oneOf_eq_some_iff.mp ho).1] at hs
    have hbetween := Blanks.leading_append s
    rw [hs] at hbetween
    cases hclose : nextToken? (oneOf [')']) (Text.skipBlanks u') with
    | some x =>
      -- nothing but blanks in the parentheses
      obtain ⟨o, v⟩ := x
      rw [parse_arguments_of_close hclose] at hes
      cases hes
      obtain ⟨o', v', hv, ho, rfl⟩ := (unspaced_skipBlanks u').eq_cons_of_nextToken? hclose
      rw [List.mem_singleton.mp (oneOf_eq_some_iff.mp ho).1] at hv
      have hinside := Blanks.leading_append u'
      rw [hv] at hinside
      refine ⟨.emptyCall name (.leading s) (.leading u'), ?_, rfl, Nat.le_add_left 1 n, trivial⟩
      have hframed :=
        framed_skipBlanks (Primary.emptyCall name (.leading s) (.leading u')).text v'
      simp only [Primary.text, List.append_assoc, List.cons_append, List.nil_append, hinside,
        hbetween] at hframed ⊢
      exact hframed
    | none =>
      -- at least one argument
      rw [parse_arguments_of_not_close hclose] at hes
      obtain ⟨rev, v', hrev, hes⟩ := parse_bind_eq_ok_iff.mp hes
      obtain ⟨c, v'', hc, hes⟩ := parse_bind_eq_ok_iff.mp hes
      obtain ⟨rfl, rfl⟩ := eq_of_parse_pure hes
      have hskip : (Rule.someArguments inner).SkipsBlanks := hinner.skipsBlanks.bind _
      rw [hskip] at hrev
      obtain ⟨d, rfl, rfl, hlevels, hfits, hv⟩ := hinner.someArguments hrev
      obtain ⟨v, rfl, hmem, rfl⟩ := hv.eq_cons_of_parse_expect hc
      rw [List.mem_singleton.mp hmem] at hbetween
      refine ⟨.call name (.leading s) d, ?_, ?_, Nat.succ_le_succ hlevels, hfits⟩
      · have hframed := framed_skipBlanks (Primary.call name (.leading s) d).text v
        simp only [Primary.text, List.append_assoc, List.cons_append, List.nil_append,
          hbetween] at hframed ⊢
        exact hframed
      · rw [Primary.tree, List.reverse_reverse]

/-- **What is read as a primary is derived.** -/
theorem Reads.primary (hinner : Reads inner n) (h : (primary inner).parse s = .ok (e, t)) :
    ∃ p : Primary, Framed p.text s t ∧ p.tree = e ∧ p.levels ≤ n + 1 ∧ p.Fits := by
  suffices hunspaced : ∀ u, Unspaced u → (Rule.primary inner).parse u = .ok (e, t) →
      ∃ p : Primary, Framed p.text u t ∧ p.tree = e ∧ p.levels ≤ n + 1 ∧ p.Fits by
    rw [← skipsBlanks_primary inner s] at h
    obtain ⟨p, hframed, hp⟩ := hunspaced _ (unspaced_skipBlanks s) h
    exact ⟨p, hframed.of_skipBlanks, hp⟩
  intro u hu h
  cases primaryStart u with
  | opening =>
    rw [parse_primary_open] at h
    exact hinner.group h
  | digit hdigit =>
    rw [parse_primary_digit hdigit] at h
    exact exists_of_parse_decimal hdigit h
  | dollar =>
    rw [parse_primary_dollar] at h
    exact exists_of_parse_hexadecimal h
  | start hstart u =>
    rw [parse_primary_start hstart, name_eq, parse_bind_of_ok (parse_blanks _),
      hu.skipBlanks_eq, parse_bind_of_ok (parse_identifier_of_start hstart)] at h
    have hname := hinner.nameEnd (.leading hstart u) h
    rwa [Word.leading, Word.chars, List.cons_append, List.takeWhile_append_dropWhile] at hname
  | nothing hnot =>
    rw [parse_primary_of_not_begins hu hnot] at h
    cases h

/-! ## Chains -/

/-- **What is read as a term is derived.** -/
theorem Reads.term (hinner : Reads inner n) (h : (term inner).parse s = .ok (e, t)) :
    ∃ x : Term, Framed x.text s t ∧ x.tree = e ∧ x.levels ≤ n + 1 ∧ x.Fits := by
  obtain ⟨a, u, ha, h⟩ := parse_bind_eq_ok_iff.mp h
  obtain ⟨p, hp, rfl, hlevels, hfits⟩ := hinner.primary ha
  refine chainFrom_invariant (P := fun e t => ∃ x : Term, Framed x.text s t ∧ x.tree = e ∧
    x.levels ≤ n + 1 ∧ x.Fits) ?_ h ⟨.primary p, hp, rfl, hlevels, hfits⟩
  -- a sign and a primary join the term that was read so far
  rintro a b o u v t ⟨x, hx, rfl, hlevels, hfits⟩ hsign hb
  obtain ⟨c, u, rfl, hc, rfl⟩ := hx.unspaced.eq_cons_of_nextToken? hsign
  obtain ⟨p, hp, rfl, hlevels', hfits'⟩ := hinner.primary hb
  obtain ⟨ho, hsymbol⟩ := Operator.of_multiplicative? hc
  obtain ⟨before, after, hframed⟩ := hx.join rfl hp
  rw [← hsymbol] at hframed
  exact ⟨.join x before o ho after p, hframed, rfl, Nat.max_le.mpr ⟨hlevels, hlevels'⟩,
    ⟨hfits, hfits'⟩⟩

/-- **What is read as a sum is derived.** -/
theorem Reads.sum (hinner : Reads inner n) (h : (sum inner).parse s = .ok (e, t)) :
    ∃ x : Sum, Framed x.text s t ∧ x.tree = e ∧ x.levels ≤ n + 1 ∧ x.Fits := by
  obtain ⟨a, u, ha, h⟩ := parse_bind_eq_ok_iff.mp h
  obtain ⟨p, hp, rfl, hlevels, hfits⟩ := hinner.term ha
  refine chainFrom_invariant (P := fun e t => ∃ x : Sum, Framed x.text s t ∧ x.tree = e ∧
    x.levels ≤ n + 1 ∧ x.Fits) ?_ h ⟨.term p, hp, rfl, hlevels, hfits⟩
  -- a sign and a term join the sum that was read so far
  rintro a b o u v t ⟨x, hx, rfl, hlevels, hfits⟩ hsign hb
  obtain ⟨c, u, rfl, hc, rfl⟩ := hx.unspaced.eq_cons_of_nextToken? hsign
  obtain ⟨p, hp, rfl, hlevels', hfits'⟩ := hinner.term hb
  obtain ⟨ho, hsymbol⟩ := Operator.of_additive? hc
  obtain ⟨before, after, hframed⟩ := hx.join rfl hp
  rw [← hsymbol] at hframed
  exact ⟨.join x before o ho after p, hframed, rfl, Nat.max_le.mpr ⟨hlevels, hlevels'⟩,
    ⟨hfits, hfits'⟩⟩

end

/-! ## Expressions -/

/-- **What is read as an expression is derived**, with no more levels than were left. -/
theorem reads_nested (limit n : Nat) : Reads (nested limit n) n := by
  induction n with
  | zero =>
    refine ⟨skipsBlanks_nested limit 0, ?_⟩
    intro s t e h
    rw [parse_nested_zero] at h
    cases h
  | succ n ih =>
    refine ⟨skipsBlanks_nested limit (n + 1), ?_⟩
    intro s t e h
    rw [parse_nested_succ] at h
    obtain ⟨x, ⟨w, w', hs, ht⟩, hx, hlevels, hfits⟩ := ih.sum h
    refine ⟨.mk w x w', ?_, hx, hlevels, hfits, ht⟩
    rw [hs, Spaced.text]
    simp only [List.append_assoc]

end Derivation

end Asm65816
