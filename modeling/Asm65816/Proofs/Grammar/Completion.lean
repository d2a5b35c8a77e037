import Asm65816.Proofs.Grammar.Exactness
import Asm65816.Proofs.Grammar.Extension

/-!
# Expressions that end too early

A rule that misses something at the end of a text has made sense of all that stands there. For an
expression this means that the text can be completed: a parenthesis is closed, or an operand that is
missing is written. The completion is found by going down to where the text ends, and on the way up
each group and each call that was begun is closed.
-/

namespace Asm65816

open Rule Asm65816.Derivation

variable {α β : Type}

namespace Rule

/-! ## Ending too early -/

/-- A rule misses something at the end of a text. -/
def EndsEarly (r : Rule α) (s : List Char) : Prop :=
  ∃ what, r.parse s = .error ⟨.missing what none, []⟩

section EndsEarly

variable {r : Rule α} {next : α → Rule β} {s t : List Char} {a : α}

theorem not_endsEarly_of_ok (h : r.parse s = .ok (a, t)) : ¬r.EndsEarly s := by
  rintro ⟨what, hs⟩
  rw [h] at hs
  cases hs

theorem endsEarly_bind_of_ok (h : r.parse s = .ok (a, t)) :
    (r >>= next).EndsEarly s ↔ (next a).EndsEarly t := by
  unfold EndsEarly
  rw [parse_bind_of_ok h]

/-- Of two rules in a row the first ends too early, or the second on what the first leaves over. -/
theorem endsEarly_bind_iff :
    (r >>= next).EndsEarly s ↔
      r.EndsEarly s ∨ ∃ a t, r.parse s = .ok (a, t) ∧ (next a).EndsEarly t := by
  constructor
  · rintro ⟨what, h⟩
    rcases parse_bind_eq_error_iff.mp h with hr | ⟨a, t, hr, hnext⟩
    · exact .inl ⟨what, hr⟩
    · exact .inr ⟨a, t, hr, what, hnext⟩
  · rintro (⟨what, hr⟩ | ⟨a, t, hr, hnext⟩)
    · exact ⟨what, parse_bind_of_error hr⟩
    · exact (endsEarly_bind_of_ok hr).mpr hnext

/-- What is done with a value does not matter. -/
theorem endsEarly_bind_pure_iff {g : α → β} :
    (r >>= fun a => pure (g a)).EndsEarly s ↔ r.EndsEarly s := by
  unfold EndsEarly
  simp only [parse_bind_pure_eq_error_iff]

theorem SkipsBlanks.endsEarly_iff (h : r.SkipsBlanks) :
    r.EndsEarly (Text.skipBlanks s) ↔ r.EndsEarly s := by
  unfold EndsEarly
  rw [h s]

/-- A token is missing at the end of a text if nothing but blanks is left. -/
theorem EndsEarly.of_expect {chars : List Char} {what : String}
    (h : (expect chars what).EndsEarly s) : Text.skipBlanks s = [] := by
  obtain ⟨_, h⟩ := h
  exact (rest_of_parse_expect h).symm

theorem EndsEarly.of_digits {radix : Radix} {what : String} {lead : List Char}
    (h : (digits radix what lead).EndsEarly s) : s = [] := by
  obtain ⟨_, h⟩ := h
  rcases begins_or radix.isDigit s with ⟨c, u, rfl, hdigit⟩ | hnot
  · rw [parse_digits_cons hdigit] at h
    split at h <;> cases h
  · rw [parse_digits_of_not_digit hnot] at h
    exact congrArg Failure.rest (Except.error.inj h)

theorem EndsEarly.of_identifier (h : identifier.EndsEarly s) : s = [] := by
  obtain ⟨_, h⟩ := h
  exact congrArg Failure.rest (eq_of_parse_identifier h).symm

end EndsEarly

end Rule

/-! ## The shortest expression -/

/-- The digit one. -/
def DigitRun.one (radix : Radix) : DigitRun radix where
  chars := ['1']
  ne_nil := List.cons_ne_nil _ _
  all_digits := by cases radix <;> exact forall_mem_of_all (by decide)

theorem DigitRun.value_one (radix : Radix) : (DigitRun.one radix).value ≤ maxNumber := by
  cases radix <;> decide

namespace Derivation

/-- The number one. -/
def Spaced.one : Spaced := .mk .none (.term (.primary (.decimal (.one .decimal)))) .none

theorem Spaced.fits_one : Spaced.one.Fits := DigitRun.value_one .decimal

end Derivation

theorem derives_primary {n : Nat} (w : Blanks) {p : Primary} (hlevels : p.levels ≤ n)
    (hfits : p.Fits) : Derives n (w.chars ++ p.text) p.tree := by
  refine ⟨.mk w (.term (.primary p)) .none, ?_, rfl, hlevels, hfits⟩
  simp [Spaced.text, Sum.text, Term.text, Blanks.none]

/-! ## Primaries -/

section

variable {limit n : Nat} {c : Char} {s : List Char}
  (h : ∀ {s}, (nested limit n).EndsEarly s → ∃ more e, Derives n (s ++ more) e)

include h

/-- What is missing of a group is missing of the expression in it, or it is the parenthesis. -/
theorem exists_completion_group (hs : (group (nested limit n)).EndsEarly ('(' :: s)) :
    ∃ more, ∃ p : Primary, p.text = '(' :: (s ++ more) ∧ p.levels ≤ n + 1 ∧ p.Fits := by
  have hskip := skipsBlanks_nested limit n
  rw [group, endsEarly_bind_of_ok (parse_expect_sign (by decide))] at hs
  rcases endsEarly_bind_iff.mp hs with hinner | ⟨e, t, he, hclose⟩
  · obtain ⟨more, _, d, hd, _, hlevels, hfits⟩ := h (hskip.endsEarly_iff.mp hinner)
    refine ⟨more ++ [')'], .group d, ?_, Nat.succ_le_succ hlevels, hfits⟩
    rw [Primary.text, hd, List.cons_append, List.append_assoc]
  · rw [hskip] at he
    obtain ⟨d, rfl, _, hlevels, hfits, ht⟩ := (reads_nested limit n).derives he
    have hend := (endsEarly_bind_pure_iff.mp hclose).of_expect
    rw [ht.skipBlanks_eq] at hend
    refine ⟨[')'], .group d, ?_, Nat.succ_le_succ hlevels, hfits⟩
    rw [Primary.text, hend, List.append_nil, List.cons_append]

/-- What is missing of the arguments is missing of one of them, or it is the parenthesis. -/
theorem exists_completion_arguments
    (hs : (arguments (nested limit n)).EndsEarly (Text.skipBlanks s)) :
    ∃ more, ∃ d : Arguments, s ++ more = d.text ++ [')'] ∧ d.levels ≤ n ∧ d.Fits := by
  have hreads := reads_nested limit n
  cases hclose : nextToken? (oneOf [')']) (Text.skipBlanks s) with
  | some x => exact absurd hs (not_endsEarly_of_ok (parse_arguments_of_close hclose))
  | none =>
    have hskip : (someArguments (nested limit n) >>= fun reversed => do
        let _ ← expect [')'] "',' or ')' in argument list"
        return reversed.reverse).SkipsBlanks := (hreads.skipsBlanks.bind _).bind _
    unfold EndsEarly at hs
    rw [parse_arguments_of_not_close hclose] at hs
    rcases endsEarly_bind_iff.mp (hskip.endsEarly_iff.mp hs) with hsome | ⟨es, t, hes, hexpect⟩
    · rcases endsEarly_bind_iff.mp hsome with hfirst | ⟨e, t, he, what, hothers⟩
      · obtain ⟨more, _, d, hd, _, hlevels, hfits⟩ := h hfirst
        refine ⟨more ++ [')'], .one d, ?_, hlevels, hfits⟩
        rw [Arguments.text, hd, List.append_assoc]
      · -- the earlier arguments are complete
        obtain ⟨es, c, u, v, ⟨d, rfl, _, hlevels, hfits, hu⟩, hcomma, hv⟩ :=
          exists_argument_of_invariant hreads.nextArgument hothers (hreads.firstArgument he)
        obtain ⟨c, v, rfl, hc, rfl⟩ := hu.eq_cons_of_nextToken? hcomma
        rw [hreads.skipsBlanks] at hv
        obtain ⟨more, _, d', hd', _, hlevels', hfits'⟩ := h ⟨what, hv⟩
        refine ⟨more ++ [')'], .snoc d d', ?_, Nat.max_le.mpr ⟨hlevels, hlevels'⟩,
          ⟨hfits, hfits'⟩⟩
        rw [List.mem_singleton.mp (oneOf_eq_some_iff.mp hc).1, Arguments.text, hd']
        simp only [List.append_assoc, List.cons_append]
    · obtain ⟨d, rfl, _, hlevels, hfits, ht⟩ := hreads.someArguments hes
      have hend := (endsEarly_bind_pure_iff.mp hexpect).of_expect
      rw [ht.skipBlanks_eq] at hend
      exact ⟨[')'], d, by rw [hend, List.append_nil], hlevels, hfits⟩

/-- A name is complete, but the arguments behind it may not be. -/
theorem exists_completion_name (hc : Text.isIdentifierStart c = true)
    (hs : (name (nested limit n)).EndsEarly (c :: s)) :
    ∃ more, ∃ p : Primary, p.text = c :: (s ++ more) ∧ p.levels ≤ n + 1 ∧ p.Fits := by
  have hb := Text.isBlank_of_isIdentifierStart hc
  rw [name_eq, endsEarly_bind_of_ok (parse_blanks _),
    Text.skipBlanks_cons_of_not_blank (by simp [hb]),
    endsEarly_bind_of_ok (parse_identifier_of_start hc)] at hs
  generalize hu : s.dropWhile Text.isIdentifierContinue = u at hs
  have hword : (Word.leading hc s).chars ++ u = c :: s := by
    rw [← hu, Word.chars, Word.leading, List.cons_append, List.takeWhile_append_dropWhile]
  cases hopen : nextToken? (oneOf ['(']) u with
  | none => exact absurd hs (not_endsEarly_of_ok (parse_nameEnd_of_none hopen))
  | some x =>
    obtain ⟨d, v⟩ := x
    unfold EndsEarly at hs
    rw [parse_nameEnd_of_open hopen] at hs
    obtain ⟨d', v', hv', hd, rfl⟩ := nextToken?_eq_some_iff.mp hopen
    rw [List.mem_singleton.mp (oneOf_eq_some_iff.mp hd).1] at hv'
    obtain ⟨more, args, hargs, hlevels, hfits⟩ :=
      exists_completion_arguments h (endsEarly_bind_pure_iff.mp hs)
    refine ⟨more, .call (.leading hc s) (.leading u) args, ?_, Nat.succ_le_succ hlevels, hfits⟩
    have hbetween := Blanks.leading_append u
    rw [hv'] at hbetween
    have hmore : u ++ more = (Blanks.leading u).chars ++ '(' :: (args.text ++ [')']) := by
      rw [← hargs, ← List.cons_append, ← List.append_assoc, hbetween]
    rw [← List.cons_append, ← hword, List.append_assoc, hmore, Primary.text]
    simp only [List.append_assoc, List.cons_append]

/-- **A primary that ends too early can be completed.** -/
theorem exists_completion_primary (hunspaced : Unspaced s)
    (hs : (primary (nested limit n)).EndsEarly s) :
    ∃ more, ∃ p : Primary, p.text = s ++ more ∧ p.levels ≤ n + 1 ∧ p.Fits := by
  unfold EndsEarly at hs
  cases primaryStart s with
  | opening u =>
    rw [parse_primary_open] at hs
    exact exists_completion_group h hs
  | digit hdigit u =>
    -- a decimal literal has a digit
    rw [parse_primary_digit hdigit] at hs
    have hdigits := (endsEarly_bind_of_ok (parse_blanks _)).mp hs
    rw [hunspaced.skipBlanks_eq] at hdigits
    exact absurd (endsEarly_bind_pure_iff.mp hdigits).of_digits (List.cons_ne_nil _ u)
  | dollar u =>
    rw [parse_primary_dollar] at hs
    have hdigits := (endsEarly_bind_of_ok (parse_expect_sign (by decide))).mp hs
    have hend := (endsEarly_bind_pure_iff.mp hdigits).of_digits
    refine ⟨['1'], .hexadecimal (.leading u) (.one .hexadecimal), ?_, Nat.le_add_left 1 n,
      DigitRun.value_one .hexadecimal⟩
    have hblanks := Blanks.leading_append u
    rw [hend, List.append_nil] at hblanks
    rw [Primary.text, hblanks, List.cons_append, List.cons_append]
    rfl
  | start hstart u =>
    rw [parse_primary_start hstart] at hs
    exact exists_completion_name h hstart hs
  | nothing hnot =>
    obtain ⟨what, hs⟩ := hs
    rw [parse_primary_of_not_begins hunspaced hnot] at hs
    have hnil : s = [] := congrArg Failure.rest (Except.error.inj hs)
    refine ⟨['1'], .decimal (.one .decimal), ?_, Nat.le_add_left 1 n, DigitRun.value_one .decimal⟩
    rw [hnil]
    rfl

end

/-! ## Expressions -/

/-- **An expression that ends too early can be completed**, within the levels that are left. -/
theorem exists_completion_nested {limit n : Nat} {s : List Char}
    (h : (nested limit n).EndsEarly s) : ∃ more e, Derives n (s ++ more) e := by
  induction n generalizing s with
  | zero =>
    obtain ⟨what, h⟩ := h
    rw [parse_nested_zero] at h
    cases h
  | succ n ih =>
    obtain ⟨what, h⟩ := h
    have hprimary : (primary (nested limit n)).EndsEarly s := ⟨what, parse_primary_of_nested h rfl⟩
    rw [← (skipsBlanks_primary _).endsEarly_iff] at hprimary
    obtain ⟨more, p, hp, hlevels, hfits⟩ :=
      exists_completion_primary ih (unspaced_skipBlanks s) hprimary
    refine ⟨more, p.tree, ?_⟩
    have hderives := derives_primary (.leading s) hlevels hfits
    rwa [hp, ← List.append_assoc, Blanks.leading_append] at hderives

end Asm65816
