import Asm65816.Proofs.Entry
import Asm65816.Proofs.Grammar.Placement
import Asm65816.Proofs.Reading

/-!
# Every failure is reported where it is

A report shows the whole text and a place in it, and what it says is about that place: the text ends
there, or the character that is quoted stands there, or the digit that takes a literal over the
bound. As everything but a bare name is looked for behind the blanks, the place is never a blank.
-/

namespace Asm65816

open Rule

/-! ## The place of a failure -/

/-- A failure whose fault is about the text in front of which it stands. -/
inductive Failure.Apt : Failure → Prop where
  | missing (what : String) (s : List Char) : Apt ⟨.missing what s.head?, s⟩
  | trailing (c : Char) (s : List Char) : Apt ⟨.trailing c, c :: s⟩
  | overflow (radix : Radix) (lead early : List Char) (c : Char) (late rest : List Char) :
      (∀ d ∈ early ++ c :: late, radix.isDigit d = true) →
        Apt ⟨.overflow (String.ofList (lead ++ (early ++ c :: late))), c :: late ++ rest⟩
  | tooDeep (limit : Nat) (s : List Char) : Apt ⟨.tooDeep limit, s⟩

namespace Rule

variable {α : Type}

/-- Failures are apt where they arise, and never stand before a blank. -/
theorem elementary_apt : Elementary fun f => f.Apt ∧ Unspaced f.rest where
  missing := fun what s hs => ⟨.missing what s, hs⟩
  overflow := fun radix lead early c late rest hdigits =>
    ⟨.overflow radix lead early c late rest hdigits,
      unspaced_cons _ (Text.isBlank_of_isDigit (hdigits c (by simp)))⟩
  tooDeep := fun limit s hs => ⟨.tooDeep limit s, hs⟩

theorem apt_identifier : identifier.Fails Failure.Apt := by
  intro s f hf
  rw [eq_of_parse_identifier hf]
  exact .missing "identifier" s

/-- What is left over behind a whole text begins behind the blanks. -/
theorem Fails.whole {r : Rule α} (h : r.Fails fun f => f.Apt ∧ Unspaced f.rest) :
    r.whole.Fails fun f => f.Apt ∧ Unspaced f.rest := by
  refine h.bind fun a => Fails.bind ?_ fun _ => fails_pure a
  intro s f hf
  rw [endOfText, parse_bind_of_ok (parse_blanks s), parse_bind_of_ok (parse_peek _)] at hf
  cases hs : Text.skipBlanks s with
  | nil =>
    rw [hs] at hf
    cases hf
  | cons c u =>
    rw [hs] at hf
    cases hf
    exact ⟨.trailing c u, hs ▸ unspaced_skipBlanks s⟩

end Rule

namespace Entry

variable {α : Type}

/-- Whether blanks may stand in front of what is read. A bare name begins where the text begins. -/
def skipsBlanks : Entry α → Bool
  | identifier | label => false
  | expression | assignment | instruction | statement | wholeExpression | wholeStatement => true

/-- **A reading of any kind fails aptly.** -/
theorem fails_rule (entry : Entry α) (limit : NestingLimit) :
    (entry.rule limit).Fails fun f => f.Apt ∧ (entry.skipsBlanks = true → Unspaced f.rest) := by
  have hexpression := elementary_apt.nested limit.levels limit.levels
  have hbehind : ∀ {r : Rule α}, (r.Fails fun f => f.Apt ∧ Unspaced f.rest) →
      r.Fails fun f => f.Apt ∧ (entry.skipsBlanks = true → Unspaced f.rest) :=
    fun hr => hr.mono fun f hf => ⟨hf.1, fun _ => hf.2⟩
  cases entry with
  | identifier => exact apt_identifier.mono fun f hf => ⟨hf, nofun⟩
  | label => exact (apt_identifier.bind fun _ => fails_pure _).mono fun f hf => ⟨hf, nofun⟩
  | expression => exact hbehind hexpression
  | assignment => exact hbehind (elementary_apt.assignment hexpression)
  | instruction => exact hbehind (elementary_apt.instruction hexpression)
  | statement => exact hbehind (elementary_apt.statement hexpression)
  | wholeExpression => exact hbehind hexpression.whole
  | wholeStatement => exact hbehind (elementary_apt.statement hexpression).whole

end Entry

/-! ## Reports -/

/-- A report shows a text and a place in it, and is about what stands there. -/
structure Report.Locates (r : Report) (text : String) (position : Nat) : Prop where
  /-- The whole text is shown. -/
  source : r.source = some text
  /-- The place is shown. -/
  place : r.position = some position
  /-- The place is in the text, or at its end. -/
  le_length : position ≤ text.length
  /-- A text that ends too early does so at the place, and the report says so. -/
  incomplete {message : String} {hint : Option String} :
    r.diagnosis = .incomplete message hint →
      position = text.length ∧ ∃ before, message = before ++ "got end of input"
  /-- An unexpected character stands at the place, and is quoted in the end. -/
  unexpected {message : String} {hint : Option String} :
    r.diagnosis = .unexpected message hint →
      ∃ c before, text.toList[position]? = some c ∧ message = before ++ "'" ++ c.toString ++ "'"
  /-- The literal that is quoted has digits in the end. The last of them stand at the place, and one
  of them there at least. -/
  overflow {literal : String} :
    r.diagnosis = .overflow literal →
      ∃ (radix : Radix) (lead early late : List Char) (c : Char),
        literal.toList = lead ++ (early ++ c :: late) ∧
          (∀ d ∈ early ++ c :: late, radix.isDigit d = true) ∧
          c :: late <+: text.toList.drop position

/-- **The report of an apt failure is about the place that it shows.** -/
theorem Failure.Apt.locates {f : Failure} {text : String} (h : f.Apt)
    (hsuffix : f.rest <:+ text.toList) :
    (f.report text).Locates text (text.length - f.rest.length) := by
  have hdrop : text.toList.drop (text.length - f.rest.length) = f.rest :=
    (List.suffix_iff_eq_drop.mp hsuffix).symm
  have hhead : text.toList[text.length - f.rest.length]? = f.rest.head? := by
    rw [← List.head?_drop, hdrop]
  refine ⟨rfl, rfl, Nat.sub_le _ _, ?_, ?_, ?_⟩
  · intro message hint hd
    cases h with
    | missing what s =>
      cases s with
      | nil =>
        cases hd
        exact ⟨rfl, "expected " ++ what ++ ", ", by simp [String.append_assoc]⟩
      | cons c s => cases hd
    | trailing c s => cases hd
    | overflow radix lead early c late rest hdigits => cases hd
    | tooDeep limit s => cases hd
  · intro message hint hd
    rw [hhead]
    cases h with
    | missing what s =>
      cases s with
      | nil => cases hd
      | cons c s =>
        cases hd
        exact ⟨c, "expected " ++ what ++ ", got ", rfl, by simp [String.append_assoc]⟩
    | trailing c s =>
      cases hd
      exact ⟨c, "unexpected ", rfl, rfl⟩
    | overflow radix lead early c late rest hdigits => cases hd
    | tooDeep limit s => cases hd
  · intro literal hd
    rw [hdrop]
    cases h with
    | missing what s => cases s <;> cases hd
    | trailing c s => cases hd
    | overflow radix lead early c late rest hdigits =>
      cases hd
      exact ⟨radix, lead, early, late, c, String.toList_ofList, hdigits,
        List.prefix_append (c :: late) rest⟩
    | tooDeep limit s => cases hd

/-- **Whatever a text is read as, a failure is reported where it is.** The place is no blank, unless
a bare name is read. -/
theorem Entry.report_locates {α : Type} (entry : Entry α) (limit : NestingLimit) (text : String)
    (report : Report) (h : (entry.read limit text).result = .error report) :
    ∃ position, report.Locates text position ∧
      (entry.skipsBlanks = true →
        ∀ c, text.toList[position]? = some c → Text.isBlank c = false) := by
  obtain ⟨f, hf, rfl⟩ := exists_failure_of_read h
  have hsuffix := parse_failure_suffix hf
  obtain ⟨hapt, hunspaced⟩ := entry.fails_rule limit hf
  refine ⟨_, hapt.locates hsuffix, fun hskips c hc => ?_⟩
  have hdrop : text.toList.drop (text.length - f.rest.length) = f.rest :=
    (List.suffix_iff_eq_drop.mp hsuffix).symm
  rw [← List.head?_drop, hdrop] at hc
  exact hunspaced hskips c hc

/-- The ninth digit is the one that takes the literal over the bound. -/
theorem Entry.report_locates_ninthDigit :
    ∃ position, (⟨.overflow "$123456789", some 16, some "LDA # $ 123456789"⟩ : Report).Locates
        "LDA # $ 123456789" position ∧
      (Entry.statement.skipsBlanks = true →
        ∀ c, "LDA # $ 123456789".toList[position]? = some c → Text.isBlank c = false) :=
  Entry.report_locates .statement default "LDA # $ 123456789" _
    (eq_error_of_error? (by decide +kernel))

end Asm65816
