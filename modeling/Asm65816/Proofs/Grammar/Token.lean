import Asm65816.Rule.Expression

/-!
# The tokens of a written expression

Blanks, names and runs of digits, each with the proof that its characters are of the right kind. A
token ends where a character stands that it could not go on with, so what may follow a token depends
on whether blanks stand between.
-/

namespace Asm65816

/-! ## Kinds of characters -/

/-- A property of every character of a list can be checked one by one. -/
theorem forall_mem_of_all {p : Char → Prop} [DecidablePred p] {chars : List Char}
    (h : chars.all (fun c => decide (p c)) = true) : ∀ c ∈ chars, p c :=
  fun c hc => of_decide_eq_true (List.all_eq_true.mp h c hc)

/-- A text begins with a character of some kind, or it does not. -/
theorem begins_or (p : Char → Bool) (s : List Char) :
    (∃ c t, s = c :: t ∧ p c = true) ∨ ∀ c ∈ s.head?, p c = false := by
  cases s with
  | nil => exact .inr nofun
  | cons c t =>
    cases hc : p c with
    | true => exact .inl ⟨c, t, rfl, hc⟩
    | false =>
      refine .inr fun d hd => ?_
      cases hd
      exact hc

namespace Radix

theorem toUpper_mem_signs {r : Radix} {c : Char} (h : r.isDigit c = true) :
    c.toUpper ∈ r.signs := by
  unfold isDigit digit? at h
  rw [List.isSome_idxOf?] at h
  exact h

/-- A capital letter comes of a letter. -/
theorem toUpper_eq_or (c : Char) :
    c.toUpper = c ∨ (97 ≤ c.toNat ∧ c.toNat ≤ 122 ∧ 65 ≤ c.toUpper.toNat) := by
  unfold Char.toUpper
  split
  · rename_i hc
    have h₁ : 97 ≤ c.val.toNat := UInt32.le_iff_toNat_le.mp hc.1
    have h₂ : c.val.toNat ≤ 122 := UInt32.le_iff_toNat_le.mp hc.2
    refine .inr ⟨h₁, h₂, ?_⟩
    show 65 ≤ (c.val + ('A'.val - 'a'.val)).toNat
    have hd : ('A'.val - 'a'.val).toNat = 4294967264 := rfl
    rw [UInt32.toNat_add, hd]
    omega
  · exact .inl rfl

/-- The decimal digits have no other form. -/
theorem mem_signs_of_isDigit {c : Char} (h : decimal.isDigit c = true) : c ∈ decimal.signs := by
  have hmem := toUpper_mem_signs h
  rcases toUpper_eq_or c with he | ⟨_, _, hu⟩
  · rwa [he] at hmem
  · have hlt : ∀ d ∈ decimal.signs, d.toNat < 65 := forall_mem_of_all (by decide)
    have := hlt _ hmem
    omega

end Radix

namespace Text

/-- A digit may stand in a name, though not in front. -/
theorem isIdentifierContinue_of_isDigit {r : Radix} {c : Char} (h : r.isDigit c = true) :
    isIdentifierContinue c = true := by
  have hmem := Radix.toUpper_mem_signs h
  rcases Radix.toUpper_eq_or c with he | ⟨h₁, h₂, _⟩
  · rw [he] at hmem
    have hsigns : ∀ r : Radix, ∀ d ∈ r.signs, isIdentifierContinue d = true := by
      intro r
      cases r <;> exact forall_mem_of_all (by decide)
    exact hsigns r c hmem
  · -- otherwise it is a small letter
    have hlower : c.isLower = true := Bool.and_eq_true_iff.mpr
      ⟨decide_eq_true (UInt32.le_iff_toNat_le.mpr h₁),
        decide_eq_true (UInt32.le_iff_toNat_le.mpr h₂)⟩
    have halpha : c.isAlpha = true := Bool.or_eq_true_iff.mpr (.inr hlower)
    have hlt : c.toNat < 128 := by omega
    simp [isIdentifierContinue, Identifier.isXidContinue, Char.isAlphanum, halpha, hlt]

theorem isIdentifierStart_of_isDigit {c : Char} (h : Radix.decimal.isDigit c = true) :
    isIdentifierStart c = false := by
  have hsigns : ∀ d ∈ Radix.decimal.signs, isIdentifierStart d = false :=
    forall_mem_of_all (by decide)
  exact hsigns c (Radix.mem_signs_of_isDigit h)

theorem isBlank_of_isIdentifierStart {c : Char} (h : isIdentifierStart c = true) :
    isBlank c = false := by
  rw [Bool.eq_false_iff]
  intro hb
  rcases isBlank_iff.mp hb with rfl | rfl | rfl | rfl <;> exact absurd h (by decide)

theorem isBlank_of_isIdentifierContinue {c : Char} (h : isIdentifierContinue c = true) :
    isBlank c = false := by
  rw [Bool.eq_false_iff]
  intro hb
  rcases isBlank_iff.mp hb with rfl | rfl | rfl | rfl <;> exact absurd h (by decide)

theorem isBlank_of_isDigit {r : Radix} {c : Char} (h : r.isDigit c = true) :
    isBlank c = false :=
  isBlank_of_isIdentifierContinue (isIdentifierContinue_of_isDigit h)

end Text

/-! ## Blanks -/

/-- A run of blanks, perhaps an empty one. -/
structure Blanks where
  /-- The blanks. -/
  chars : List Char
  /-- There is nothing else. -/
  all_blank : ∀ c ∈ chars, Text.isBlank c = true

namespace Blanks

/-- No blank at all. -/
def none : Blanks := ⟨[], by simp⟩

/-- A single space. -/
def space : Blanks := ⟨[' '], forall_mem_of_all (by decide)⟩

/-- A line break. -/
def newline : Blanks := ⟨['\n'], forall_mem_of_all (by decide)⟩

/-- One run of blanks behind another. -/
def append (v w : Blanks) : Blanks where
  chars := v.chars ++ w.chars
  all_blank := fun c hc => (List.mem_append.mp hc).elim (v.all_blank c) (w.all_blank c)

/-- The blanks in front of a text. -/
def leading (s : List Char) : Blanks where
  chars := s.takeWhile Text.isBlank
  all_blank := fun c hc => List.all_eq_true.mp List.all_takeWhile c hc

theorem leading_append (s : List Char) : (leading s).chars ++ Text.skipBlanks s = s :=
  List.takeWhile_append_dropWhile

theorem skipBlanks_append (w : Blanks) (s : List Char) :
    Text.skipBlanks (w.chars ++ s) = Text.skipBlanks s :=
  List.dropWhile_append_of_pos w.all_blank

end Blanks

/-- A text without a blank in front. -/
def Unspaced (t : List Char) : Prop := ∀ c ∈ t.head?, Text.isBlank c = false

theorem unspaced_cons {c : Char} (s : List Char) (h : Text.isBlank c = false) :
    Unspaced (c :: s) := by
  intro d hd
  cases hd
  exact h

theorem unspaced_skipBlanks (s : List Char) : Unspaced (Text.skipBlanks s) := by
  intro c hc
  obtain ⟨r, hr⟩ := List.head?_eq_some_iff.mp hc
  exact Text.not_blank_of_skipBlanks_eq_cons hr

theorem Unspaced.skipBlanks_eq {t : List Char} (h : Unspaced t) : Text.skipBlanks t = t := by
  cases t with
  | nil => rfl
  | cons c t => exact Text.skipBlanks_cons_of_not_blank (by simp [h c rfl])

theorem Unspaced.skipBlanks_append {t : List Char} (h : Unspaced t) (w : Blanks) :
    Text.skipBlanks (w.chars ++ t) = t := by
  rw [w.skipBlanks_append, h.skipBlanks_eq]

theorem Blanks.eq_nil_of_unspaced {w : Blanks} {s : List Char} (h : Unspaced (w.chars ++ s)) :
    w.chars = [] := by
  cases hw : w.chars with
  | nil => rfl
  | cons b bs =>
    have hb := h b (by simp [hw])
    rw [w.all_blank b (by simp [hw])] at hb
    cases hb

/-! ## Where an expression ends -/

/-- What may stand behind an expression and the blanks after it. A parenthesis would make a name a
function, and a character that may stand in a name would prolong a name or a number. -/
structure Follows (w : Blanks) (t : List Char) : Prop where
  /-- All blanks belong to the expression. -/
  unspaced : Unspaced t
  /-- No name becomes a function. -/
  not_open : ∀ c ∈ t.head?, c ≠ '('
  /-- No name and no number becomes longer. -/
  apart : ∀ c ∈ t.head?, Text.isIdentifierContinue c = true → w.chars ≠ []

/-- The signs that may follow an expression. -/
def closingSigns : List Char := ['+', '-', '*', '/', ')', ']', ',']

theorem follows_nil (w : Blanks) : Follows w [] := ⟨by simp [Unspaced], by simp, by simp⟩

theorem follows_cons (w : Blanks) {c : Char} (t : List Char) (hc : c ∈ closingSigns) :
    Follows w (c :: t) := by
  have signs : ∀ c ∈ closingSigns, Text.isBlank c = false ∧ c ≠ '(' ∧
      Text.isIdentifierContinue c = false := forall_mem_of_all (by decide)
  obtain ⟨hb, ho, hi⟩ := signs c hc
  refine ⟨?_, ?_, ?_⟩
  · intro d hd
    cases hd
    exact hb
  · intro d hd
    cases hd
    exact ho
  · intro d hd hd'
    cases hd
    rw [hi] at hd'
    cases hd'

/-- A run of characters that may stand in a name ends where the blanks begin, or where something
else stands. -/
theorem takeWhile_run {p : Char → Bool} {run : List Char} {w : Blanks} {t : List Char}
    (hp : ∀ c, p c = true → Text.isIdentifierContinue c = true) (hrun : ∀ c ∈ run, p c = true)
    (ht : ∀ c ∈ t.head?, p c = true → w.chars ≠ []) :
    (run ++ (w.chars ++ t)).takeWhile p = run ∧
      (run ++ (w.chars ++ t)).dropWhile p = w.chars ++ t := by
  rw [List.takeWhile_append_of_pos hrun, List.dropWhile_append_of_pos hrun]
  have stop : ∀ c ∈ (w.chars ++ t).head?, p c = false := by
    intro c hc
    rw [Bool.eq_false_iff]
    intro hpc
    cases hw : w.chars with
    | nil =>
      rw [hw] at hc
      exact ht c hc hpc hw
    | cons b bs =>
      rw [hw] at hc
      cases hc
      have hb := w.all_blank c (by simp [hw])
      rw [Text.isBlank_of_isIdentifierContinue (hp c hpc)] at hb
      cases hb
  cases hs : w.chars ++ t with
  | nil => simp
  | cons c s =>
    have hc := stop c (by simp [hs])
    simp [hc]

/-! ## Names and numbers -/

/-- A name as it is written. -/
structure Word where
  /-- The first character. -/
  first : Char
  /-- The characters behind it. -/
  others : List Char
  /-- The first character may begin a name. -/
  starts : Text.isIdentifierStart first = true
  /-- The others may stand in a name. -/
  continues : ∀ c ∈ others, Text.isIdentifierContinue c = true

namespace Word

/-- The longest name in front of a text that begins with the character of a name. -/
def leading {c : Char} (h : Text.isIdentifierStart c = true) (s : List Char) : Word where
  first := c
  others := s.takeWhile Text.isIdentifierContinue
  starts := h
  continues := fun d hd => List.all_eq_true.mp List.all_takeWhile d hd

/-- The characters of a name. -/
def chars (w : Word) : List Char := w.first :: w.others

/-- The name itself. -/
def name (w : Word) : String := String.ofList w.chars

theorem unspaced_append (w : Word) (s : List Char) : Unspaced (w.chars ++ s) :=
  unspaced_cons (w.others ++ s) (Text.isBlank_of_isIdentifierStart w.starts)

end Word

/-- A run of digits, at least one. -/
structure DigitRun (radix : Radix) where
  /-- The digits. -/
  chars : List Char
  /-- There is a digit. -/
  ne_nil : chars ≠ []
  /-- There is nothing else. -/
  all_digits : ∀ c ∈ chars, radix.isDigit c = true

namespace DigitRun

variable {radix : Radix}

/-- The longest run of digits in front of a text that begins with a digit. -/
def leading {c : Char} (h : radix.isDigit c = true) (s : List Char) : DigitRun radix where
  chars := c :: s.takeWhile radix.isDigit
  ne_nil := List.cons_ne_nil _ _
  all_digits := fun d hd => by
    rcases List.mem_cons.mp hd with rfl | hd
    · exact h
    · exact List.all_eq_true.mp List.all_takeWhile d hd

/-- The number that a run stands for. -/
def value (run : DigitRun radix) : Nat := radix.valueOf run.chars

/-- The failure of a run whose value is too great. The lead is what stands before the digits, and
the rest what stands behind them. -/
def overflow? (run : DigitRun radix) (lead rest : List Char) : Option Failure :=
  match radix.read maxNumber run.chars with
  | .ok _ => none
  | .error late => some ⟨.overflow (String.ofList (lead ++ run.chars)), late ++ rest⟩

theorem overflow?_eq_none_iff {run : DigitRun radix} {lead rest : List Char} :
    run.overflow? lead rest = none ↔ run.value ≤ maxNumber := by
  unfold overflow? value
  split
  · rename_i n hn
    obtain ⟨rfl, hle⟩ := Radix.read_eq_ok_iff.mp hn
    simp [hle]
  · rename_i late hlate
    have hno : ¬radix.valueOf run.chars ≤ maxNumber := by
      intro hle
      rw [Radix.read_eq_ok_iff.mpr ⟨rfl, hle⟩] at hlate
      cases hlate
    simp [hno]

theorem isSoft_of_overflow? {run : DigitRun radix} {lead rest : List Char} {f : Failure}
    (h : run.overflow? lead rest = some f) : f.fault.isSoft = false := by
  unfold overflow? at h
  split at h
  · cases h
  · cases h
    rfl

end DigitRun

end Asm65816
