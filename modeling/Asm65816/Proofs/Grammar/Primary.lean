import Asm65816.Proofs.Grammar.Token
import Asm65816.Proofs.Rule.Choice
import Asm65816.Proofs.Rule.Repetition

/-!
# The first character of a primary

The four forms of a primary begin with different characters, so the first character behind the
blanks settles the form. A form whose first character is missing fails at once, and the one form
that gets further is then all that the choice amounts to, in success and in failure. In which order
the forms are tried does not matter for that.
-/

namespace Asm65816

/-- Whether a form may begin with a character. -/
def PrimaryForm.begins : PrimaryForm → Char → Bool
  | group, c => c == '('
  | decimal, c => Radix.decimal.isDigit c
  | hexadecimal, c => c == '$'
  | name, c => Text.isIdentifierStart c

namespace Rule

variable {inner : Rule Expression} {form : PrimaryForm} {c : Char} {s : List Char}

/-! ## The characters that forms begin with -/

/-- A primary begins like one of its forms. -/
theorem beginsPrimary_iff :
    beginsPrimary c = true ↔ ∃ form : PrimaryForm, form.begins c = true := by
  simp only [beginsPrimary, Bool.or_eq_true]
  constructor
  · rintro (((h | h) | h) | h)
    · exact ⟨.group, h⟩
    · exact ⟨.hexadecimal, h⟩
    · exact ⟨.decimal, h⟩
    · exact ⟨.name, h⟩
  · rintro ⟨form, h⟩
    cases form with
    | group => exact .inl (.inl (.inl h))
    | decimal => exact .inl (.inr h)
    | hexadecimal => exact .inl (.inl (.inr h))
    | name => exact .inr h

/-- **No two forms begin with the same character.** -/
theorem eq_of_begins {form' : PrimaryForm} (h : form.begins c = true)
    (h' : form'.begins c = true) : form = form' := by
  cases form with
  | group | hexadecimal =>
    obtain rfl := beq_iff_eq.mp h
    cases form' <;> first | rfl | exact absurd h' (by decide)
  | decimal =>
    cases form' with
    | group | hexadecimal =>
      obtain rfl := beq_iff_eq.mp h'
      exact absurd h (by decide)
    | decimal => rfl
    | name => exact absurd h' (Bool.eq_false_iff.mp (Text.isIdentifierStart_of_isDigit h))
  | name =>
    cases form' with
    | group | hexadecimal =>
      obtain rfl := beq_iff_eq.mp h'
      exact absurd h (by decide)
    | decimal => exact absurd h (Bool.eq_false_iff.mp (Text.isIdentifierStart_of_isDigit h'))
    | name => rfl

/-- No form begins with a blank. -/
theorem not_blank_of_begins (h : form.begins c = true) : Text.isBlank c = false := by
  cases form with
  | group | hexadecimal =>
    obtain rfl := beq_iff_eq.mp h
    decide
  | decimal => exact Text.isBlank_of_isDigit h
  | name => exact Text.isBlank_of_isIdentifierStart h

/-! ## Forms that fail at once -/

theorem parse_digits_of_not_digit {radix : Radix} {what : String} {lead : List Char}
    (h : ∀ c ∈ s.head?, radix.isDigit c = false) :
    (digits radix what lead).parse s = .error ⟨.missing what s.head?, s⟩ := by
  cases s with
  | nil => rfl
  | cons c s =>
    have hc := h c rfl
    simp [parse, digits, hc, Outcome.parsed]

theorem parse_identifier_of_not_start (h : ∀ c ∈ s.head?, Text.isIdentifierStart c = false) :
    identifier.parse s = .error ⟨.missing "identifier" s.head?, s⟩ := by
  rw [identifier]
  refine parse_bind_of_error ?_
  cases s with
  | nil => rfl
  | cons c s =>
    have hc := h c rfl
    simp [parse, satisfy, hc, Outcome.parsed]

/-- A sign is missed behind the blanks, and here are none. -/
theorem parse_expect_of_not_sign {what : String} {sign : Char} (hs : Unspaced s)
    (h : ∀ c ∈ s.head?, (c == sign) = false) :
    (expect [sign] what).parse s = .error ⟨.missing what s.head?, s⟩ := by
  have hnot : ∀ c ∈ (Text.skipBlanks s).head?, c ∉ [sign] := by
    intro c hc
    rw [hs.skipBlanks_eq] at hc
    simpa using h c hc
  rw [parse_expect_of_not_mem hnot, hs.skipBlanks_eq]

/-- A form fails at once where its first character is missing. -/
theorem rejectsAtOnce_of_not_begins (hs : Unspaced s) (h : ∀ c ∈ s.head?, form.begins c = false) :
    (primaryBranch inner form).RejectsAtOnce s := by
  have hblanks : ∀ next : Unit → Rule Expression,
      (blanks >>= next).parse s = (next ()).parse s := by
    intro next
    rw [parse_bind_of_ok (parse_blanks s), hs.skipBlanks_eq]
  cases form with
  | group => exact ⟨_, ⟨parse_bind_of_error (parse_expect_of_not_sign hs h), rfl⟩, rfl⟩
  | decimal =>
    exact ⟨_, ⟨(hblanks _).trans (parse_bind_of_error (parse_digits_of_not_digit h)), rfl⟩, rfl⟩
  | hexadecimal => exact ⟨_, ⟨parse_bind_of_error (parse_expect_of_not_sign hs h), rfl⟩, rfl⟩
  | name =>
    exact ⟨_, ⟨(hblanks _).trans (parse_bind_of_error (parse_identifier_of_not_start h)), rfl⟩, rfl⟩

/-! ## Forms that get further -/

/-- A failure behind the first character is further than one in front of it. -/
theorem failure_lt_of_first {α β : Type} {r : Rule α} {next : α → Rule β} {f : Failure}
    (hfirst : ∃ a t, r.parse (c :: s) = .ok (a, t) ∧ t <:+ s)
    (h : (r >>= next).parse (c :: s) = .error f) : f.rest.length < (c :: s).length := by
  obtain ⟨a, t, hr, ht⟩ := hfirst
  rw [parse_bind_of_ok hr] at h
  have := ((parse_failure_suffix h).trans ht).length_le
  rw [List.length_cons]
  omega

theorem parse_identifier_of_start (hc : Text.isIdentifierStart c = true) :
    identifier.parse (c :: s) =
      .ok (String.ofList (c :: s.takeWhile Text.isIdentifierContinue),
        s.dropWhile Text.isIdentifierContinue) := by
  rw [identifier]
  have hfirst : (satisfy Text.isIdentifierStart "identifier").parse (c :: s) = .ok (c, s) := by
    simp [parse, satisfy, hc, Outcome.parsed]
  rw [parse_bind_of_ok hfirst, parse_bind_of_ok (parse_takeWhile _ _), parse_pure]

/-- A name is missed where it should begin. -/
theorem eq_of_parse_identifier {f : Failure} (h : identifier.parse s = .error f) :
    f = ⟨.missing "identifier" s.head?, s⟩ := by
  rcases begins_or Text.isIdentifierStart s with ⟨c, u, rfl, hstart⟩ | hnot
  · rw [parse_identifier_of_start hstart] at h
    cases h
  · rw [parse_identifier_of_not_start hnot] at h
    cases h
    rfl

/-- A first digit alone is never too great. -/
theorem late_length_lt {radix : Radix} {run late : List Char}
    (h : radix.read maxNumber (c :: run) = .error late) : late.length < (c :: run).length := by
  have hfirst : radix.extend 0 c ≤ maxNumber := by
    unfold Radix.extend Radix.digit?
    cases hd : radix.signs.idxOf? c.toUpper with
    | none => simp
    | some d =>
      have hlt : d < radix.signs.length := (List.findIdx?_eq_some_iff_getElem.mp hd).1
      have hbase : radix.signs.length ≤ 16 := by cases radix <;> decide
      have hmax : 16 ≤ maxNumber := by decide
      simp only [Option.getD_some, Nat.zero_mul, Nat.zero_add]
      omega
  rw [Radix.read, Radix.readFrom, if_pos hfirst] at h
  have := (Radix.readFrom_suffix h).length_le
  rw [List.length_cons]
  omega

/-- The digits that begin here, by whether their value is too great. -/
theorem parse_digits_cons {radix : Radix} {what : String} {lead : List Char}
    (hc : radix.isDigit c = true) :
    (digits radix what lead).parse (c :: s) =
      match radix.read maxNumber (c :: s.takeWhile radix.isDigit) with
      | .ok value =>
        .ok ((c :: s.takeWhile radix.isDigit, value), Text.skipBlanks (s.dropWhile radix.isDigit))
      | .error late =>
        .error ⟨.overflow (String.ofList (lead ++ c :: s.takeWhile radix.isDigit)),
          late ++ s.dropWhile radix.isDigit⟩ := by
  unfold parse digits
  simp only [List.takeWhile_cons_of_pos hc, List.dropWhile_cons_of_pos hc, reduceCtorEq, if_false]
  cases radix.read maxNumber (c :: s.takeWhile radix.isDigit) <;> rfl

theorem decimal_failure_lt {f : Failure} (hc : Radix.decimal.isDigit c = true)
    (h : decimal.parse (c :: s) = .error f) : f.rest.length < (c :: s).length := by
  rw [decimal, parse_bind_of_ok (parse_blanks _),
    Text.skipBlanks_cons_of_not_blank (by simp [Text.isBlank_of_isDigit hc])] at h
  cases hd : (digits .decimal "decimal digit" []).parse (c :: s) with
  | ok x =>
    obtain ⟨⟨run, value⟩, t⟩ := x
    rw [parse_bind_of_ok hd] at h
    cases h
  | error g =>
    rw [parse_bind_of_error hd] at h
    cases h
    rw [parse_digits_cons hc] at hd
    split at hd
    · cases hd
    · rename_i late hlate
      cases hd
      have hlt := late_length_lt hlate
      have hall : (s.takeWhile Radix.decimal.isDigit).length +
          (s.dropWhile Radix.decimal.isDigit).length = s.length := by
        rw [← List.length_append, List.takeWhile_append_dropWhile]
      simp only [List.length_append, List.length_cons] at hlt ⊢
      omega

theorem name_failure_lt {f : Failure} (hc : Text.isIdentifierStart c = true)
    (h : (name inner).parse (c :: s) = .error f) : f.rest.length < (c :: s).length := by
  rw [name, parse_bind_of_ok (parse_blanks _),
    Text.skipBlanks_cons_of_not_blank (by simp [Text.isBlank_of_isIdentifierStart hc])] at h
  exact failure_lt_of_first
    ⟨_, _, parse_identifier_of_start hc, List.dropWhile_suffix Text.isIdentifierContinue⟩ h

/-- A form that has begun fails behind its first character. -/
theorem primaryForm_failure_lt {f : Failure} (hc : form.begins c = true)
    (h : (primaryForm inner form).parse (c :: s) = .error f) :
    f.rest.length < (c :: s).length := by
  cases form with
  | group | hexadecimal =>
    obtain rfl := beq_iff_eq.mp hc
    exact failure_lt_of_first ⟨_, _, parse_expect_sign (by decide), Text.skipBlanks_suffix s⟩ h
  | decimal => exact decimal_failure_lt hc h
  | name => exact name_failure_lt hc h

/-! ## The form that the first character settles -/

/-- **In whatever order the forms are tried, the one that has begun is the only one that gets
anywhere.** -/
theorem only_of_begins {forms : List PrimaryForm} (hmem : form ∈ forms) (hnodup : forms.Nodup)
    (hc : form.begins c = true) :
    Only (c :: s) (primaryBranch inner form) (forms.map (primaryBranch inner)) := by
  refine only_map hmem hnodup fun g hg => ?_
  refine rejectsAtOnce_of_not_begins (unspaced_cons s (not_blank_of_begins hc)) fun d hd => ?_
  cases hd
  exact Bool.eq_false_iff.mpr fun hg' => hg (eq_of_begins hg' hc)

variable (form) in
theorem parse_primary_of_begins (hc : form.begins c = true) :
    (primary inner).parse (c :: s) = (primaryForm inner form).parse (c :: s) := by
  have hskip : Text.skipBlanks (c :: s) = c :: s :=
    (unspaced_cons s (not_blank_of_begins hc)).skipBlanks_eq
  rw [primary, parse_bind_of_ok (parse_blanks _), hskip, parse_bind_of_ok (parse_peek _)]
  simp only [List.head?_cons, Option.any_some, beginsPrimary_iff.mpr ⟨form, hc⟩, if_true]
  exact parse_firstOf_of_only (only_of_begins form.mem_all (by decide) hc)
    fun _ hf => primaryForm_failure_lt hc hf

theorem parse_primary_open : (primary inner).parse ('(' :: s) = (group inner).parse ('(' :: s) :=
  parse_primary_of_begins .group rfl

theorem parse_primary_digit (hc : Radix.decimal.isDigit c = true) :
    (primary inner).parse (c :: s) = decimal.parse (c :: s) :=
  parse_primary_of_begins .decimal hc

theorem parse_primary_dollar :
    (primary inner).parse ('$' :: s) = hexadecimal.parse ('$' :: s) :=
  parse_primary_of_begins .hexadecimal rfl

theorem parse_primary_start (hc : Text.isIdentifierStart c = true) :
    (primary inner).parse (c :: s) = (name inner).parse (c :: s) :=
  parse_primary_of_begins .name hc

/-- What a text begins with, as far as it matters for a primary. -/
inductive PrimaryStart : List Char → Prop where
  /-- An expression in parentheses. -/
  | opening (s : List Char) : PrimaryStart ('(' :: s)
  /-- A decimal literal. -/
  | digit {c : Char} (hc : Radix.decimal.isDigit c = true) (s : List Char) : PrimaryStart (c :: s)
  /-- A hexadecimal literal. -/
  | dollar (s : List Char) : PrimaryStart ('$' :: s)
  /-- A name. -/
  | start {c : Char} (hc : Text.isIdentifierStart c = true) (s : List Char) : PrimaryStart (c :: s)
  /-- Nothing that a primary begins with. -/
  | nothing {s : List Char} (h : ∀ c ∈ s.head?, beginsPrimary c = false) : PrimaryStart s

theorem primaryStart (s : List Char) : PrimaryStart s := by
  rcases begins_or beginsPrimary s with ⟨c, t, rfl, hc⟩ | hnot
  · obtain ⟨form, hform⟩ := beginsPrimary_iff.mp hc
    cases form with
    | group => exact beq_iff_eq.mp hform ▸ .opening t
    | decimal => exact .digit hform t
    | hexadecimal => exact beq_iff_eq.mp hform ▸ .dollar t
    | name => exact .start hform t
  · exact .nothing hnot

/-- A primary that has begun fails behind its first character. -/
theorem primary_failure_lt {f : Failure} (hc : beginsPrimary c = true)
    (h : (primary inner).parse (c :: s) = .error f) : f.rest.length < (c :: s).length := by
  obtain ⟨form, hform⟩ := beginsPrimary_iff.mp hc
  rw [parse_primary_of_begins form hform] at h
  exact primaryForm_failure_lt hform h

/-- No form begins with any other character. -/
theorem parse_primary_of_not_begins (hs : Unspaced s)
    (h : ∀ c ∈ s.head?, beginsPrimary c = false) :
    (primary inner).parse s = .error ⟨.missing "expression" s.head?, s⟩ := by
  rw [primary, parse_bind_of_ok (parse_blanks _), hs.skipBlanks_eq, parse_bind_of_ok (parse_peek _)]
  have hany : s.head?.any beginsPrimary = false := by
    cases hh : s.head? with
    | none => rfl
    | some c => simp [h c hh]
  rw [hany]
  rfl

end Rule

end Asm65816
