import Asm65816.Proofs.Grammar.Completeness

/-!
# The literals of a derivation

The literals of a derivation in order from left to right, each with the text that stands behind it.
If nesting is not in the way, the leftmost failure of a derivation is the first of its literals
whose value is too great, and that is how reading it fails.
-/

namespace Asm65816

/-- A literal in a text. -/
structure Literal where
  /-- The radix. -/
  radix : Radix
  /-- The digits. -/
  run : DigitRun radix
  /-- The text right behind the digits. -/
  behind : List Char

namespace Literal

/-- What stands before the digits. -/
def lead (l : Literal) : List Char :=
  match l.radix with
  | .decimal => []
  | .hexadecimal => ['$']

/-- A literal without blanks. -/
def text (l : Literal) : String := String.ofList (l.lead ++ l.run.chars)

/-- The value of a literal has more than 32 bits. -/
def overflows (l : Literal) : Bool := maxNumber < l.run.value

/-- The failure of a literal whose value is too great. -/
def overflow? (l : Literal) : Option Failure := l.run.overflow? l.lead l.behind

theorem overflow?_eq_none_iff {l : Literal} : l.overflow? = none ↔ l.overflows = false := by
  rw [overflow?, DigitRun.overflow?_eq_none_iff, overflows, decide_eq_false_iff_not, Nat.not_lt]

/-- The value of a literal gets too great in front of this text: what begins there is the first
digit that takes it over the greatest value. -/
def OverflowsBefore (l : Literal) (rest : List Char) : Prop :=
  ∃ early c late, l.run.chars = early ++ c :: late ∧ rest = c :: late ++ l.behind ∧
    l.radix.valueOf early ≤ maxNumber ∧ maxNumber < l.radix.valueOf (early ++ [c])

theorem overflow?_eq_some {l : Literal} (h : l.overflows = true) :
    ∃ rest, l.overflow? = some ⟨.overflow l.text, rest⟩ ∧ l.OverflowsBefore rest := by
  unfold overflow? DigitRun.overflow?
  cases hread : l.radix.read maxNumber l.run.chars with
  | ok value =>
    obtain ⟨hvalue, hle⟩ := Radix.read_eq_ok_iff.mp hread
    have hlt : maxNumber < l.run.value := of_decide_eq_true h
    rw [DigitRun.value, ← hvalue] at hlt
    exact absurd hle (Nat.not_le_of_lt hlt)
  | error late =>
    obtain ⟨early, c, others, hrun, rfl, hle, hlt⟩ :=
      Radix.exists_of_readFrom (Nat.zero_le maxNumber) hread
    exact ⟨c :: others ++ l.behind, rfl, early, c, others, hrun, rfl, hle, hlt⟩

/-- It does so within its digits. -/
theorem OverflowsBefore.suffix {l : Literal} {rest : List Char} (h : l.OverflowsBefore rest) :
    rest <:+ l.run.chars ++ l.behind := by
  obtain ⟨early, c, late, hrun, rfl, _⟩ := h
  rw [hrun, List.append_assoc]
  exact List.suffix_append early _

/-- The literals stand one behind the other in a text, in front of its rest. -/
inductive InOrder : List Literal → List Char → List Char → Prop where
  | nil {s t : List Char} : t <:+ s → InOrder [] s t
  | cons {l : Literal} {ls : List Literal} {s t : List Char} :
      l.run.chars ++ l.behind <:+ s → InOrder ls l.behind t → InOrder (l :: ls) s t

namespace InOrder

variable {ls ls' : List Literal} {s s' t u : List Char}

theorem of_suffix (h : InOrder ls s t) (hs : s <:+ s') : InOrder ls s' t := by
  cases h with
  | nil ht => exact .nil (ht.trans hs)
  | cons hl h => exact .cons (hl.trans hs) h

/-- Literals in front of others. -/
theorem append (h : InOrder ls s u) (h' : InOrder ls' u t) : InOrder (ls ++ ls') s t := by
  induction h with
  | nil hu => exact h'.of_suffix hu
  | cons hl _ ih => exact .cons hl (ih h')

/-- Literals on the two sides of an operator, with blanks around it. -/
theorem join {before sign after : List Char} (h : InOrder ls s (before ++ (sign ++ (after ++ u))))
    (h' : InOrder ls' u t) : InOrder (ls ++ ls') s t :=
  h.append (h'.of_suffix ((List.suffix_append after u).trans
    ((List.suffix_append sign _).trans (List.suffix_append before _))))

/-- Every literal is found in the text. -/
theorem suffix (h : InOrder ls s t) {l : Literal} (hl : l ∈ ls) :
    l.run.chars ++ l.behind <:+ s := by
  induction h with
  | nil _ => cases hl
  | cons hfirst _ ih =>
    rcases List.mem_cons.mp hl with rfl | hl
    · exact hfirst
    · exact (ih hl).trans ((List.suffix_append _ _).trans hfirst)

end InOrder

/-- The first failure of literals is that of the first one whose value is too great. -/
theorem findSome?_overflow? {ls : List Literal} {l : Literal} (h : ls.find? overflows = some l) :
    ls.findSome? overflow? = l.overflow? := by
  induction ls with
  | nil => cases h
  | cons first ls ih =>
    cases hfirst : first.overflows with
    | true =>
      rw [List.find?_cons_of_pos hfirst] at h
      cases h
      obtain ⟨rest, hrest, _⟩ := overflow?_eq_some hfirst
      rw [List.findSome?_cons, hrest]
    | false =>
      rw [List.find?_cons_of_neg (by simp [hfirst])] at h
      rw [List.findSome?_cons, overflow?_eq_none_iff.mpr hfirst]
      exact ih h

end Literal

namespace Derivation

/-! ## From left to right -/

mutual

/-- The literals of a derivation in front of a text. -/
def Spaced.literals : Spaced → List Char → List Literal
  | .mk _ sum after, t => sum.literals (after.chars ++ t)

def Sum.literals : Sum → List Char → List Literal
  | .term x, t => x.literals t
  | .join left before operator _ after right, t =>
    left.literals
      (before.chars ++ (operator.symbol.toList ++ (after.chars ++ (right.text ++ t)))) ++
      right.literals t

def Term.literals : Term → List Char → List Literal
  | .primary p, t => p.literals t
  | .join left before operator _ after right, t =>
    left.literals
      (before.chars ++ (operator.symbol.toList ++ (after.chars ++ (right.text ++ t)))) ++
      right.literals t

def Primary.literals : Primary → List Char → List Literal
  | .group inner, t => inner.literals (')' :: t)
  | .decimal run, t => [⟨.decimal, run, t⟩]
  | .hexadecimal _ run, t => [⟨.hexadecimal, run, t⟩]
  | .reference _, _ | .emptyCall _ _ _, _ => []
  | .call _ _ arguments, t => arguments.literals (')' :: t)

def Arguments.literals : Arguments → List Char → List Literal
  | .one e, t => e.literals t
  | .snoc earlier e, t => earlier.literals (',' :: (e.text ++ t)) ++ e.literals t

end

mutual

/-- **The literals stand in the text in this order.** -/
theorem Spaced.inOrder : ∀ (e : Spaced) (t : List Char),
    Literal.InOrder (e.literals t) (e.text ++ t) t
  | .mk before sum after, t => by
    have h := (sum.inOrder (after.chars ++ t)).of_suffix (List.suffix_append before.chars _)
    have h := h.append (.nil (List.suffix_append after.chars t))
    simpa only [Spaced.text, Spaced.literals, List.append_assoc, List.append_nil] using h

theorem Sum.inOrder : ∀ (e : Sum) (t : List Char),
    Literal.InOrder (e.literals t) (e.text ++ t) t
  | .term x, t => x.inOrder t
  | .join left _ _ _ _ right, t => by
    simp only [Sum.text, Sum.literals, List.append_assoc]
    exact (left.inOrder _).join (right.inOrder t)

theorem Term.inOrder : ∀ (e : Term) (t : List Char),
    Literal.InOrder (e.literals t) (e.text ++ t) t
  | .primary p, t => p.inOrder t
  | .join left _ _ _ _ right, t => by
    simp only [Term.text, Term.literals, List.append_assoc]
    exact (left.inOrder _).join (right.inOrder t)

theorem Primary.inOrder : ∀ (e : Primary) (t : List Char),
    Literal.InOrder (e.literals t) (e.text ++ t) t
  | .group inner, t => by
    have h := (inner.inOrder (')' :: t)).of_suffix (List.suffix_cons '(' _)
    have h := h.append (.nil (List.suffix_cons ')' t))
    simpa only [Primary.text, Primary.literals, List.cons_append, List.append_assoc,
      List.nil_append, List.append_nil] using h
  | .decimal run, t => .cons (List.suffix_refl _) (.nil (List.suffix_refl t))
  | .hexadecimal between run, t => by
    simp only [Primary.text, Primary.literals, List.cons_append, List.append_assoc]
    exact .cons ((List.suffix_append _ _).trans (List.suffix_cons '$' _))
      (.nil (List.suffix_refl t))
  | .reference _, _ | .emptyCall _ _ _, _ => .nil (List.suffix_append _ _)
  | .call name between arguments, t => by
    have h := (arguments.inOrder (')' :: t)).of_suffix
      (List.suffix_append (name.chars ++ (between.chars ++ ['('])) _)
    have h := h.append (.nil (List.suffix_cons ')' t))
    simpa only [Primary.text, Primary.literals, List.cons_append, List.append_assoc,
      List.nil_append, List.append_nil] using h

theorem Arguments.inOrder : ∀ (e : Arguments) (t : List Char),
    Literal.InOrder (e.literals t) (e.text ++ t) t
  | .one e, t => e.inOrder t
  | .snoc earlier e, t => by
    have h := (earlier.inOrder (',' :: (e.text ++ t))).append
      ((e.inOrder t).of_suffix (List.suffix_cons ',' _))
    simpa only [Arguments.text, Arguments.literals, List.append_assoc, List.cons_append] using h

end

/-! ## The first literal that is too great -/

variable {limit : Nat}

mutual

/-- **With levels enough, the leftmost failure is that of the first literal that is too great.** -/
theorem Spaced.fault?_eq_findSome? : ∀ (e : Spaced) (n : Nat) (t : List Char), e.levels ≤ n →
    e.fault? limit n t = (e.literals t).findSome? Literal.overflow?
  | .mk _ sum _, 0, _, h => absurd h (Nat.not_le_of_lt sum.levels_pos)
  | .mk _ sum after, n + 1, t, h => sum.fault?_eq_findSome? n (after.chars ++ t) h

theorem Sum.fault?_eq_findSome? : ∀ (e : Sum) (n : Nat) (t : List Char), e.levels ≤ n + 1 →
    e.fault? limit n t = (e.literals t).findSome? Literal.overflow?
  | .term x, n, t, h => x.fault?_eq_findSome? n t h
  | .join left _ _ _ _ right, n, t, h => by
    obtain ⟨hleft, hright⟩ := Nat.max_le.mp h
    rw [Sum.fault?, Sum.literals, List.findSome?_append, left.fault?_eq_findSome? n _ hleft,
      right.fault?_eq_findSome? n t hright]

theorem Term.fault?_eq_findSome? : ∀ (e : Term) (n : Nat) (t : List Char), e.levels ≤ n + 1 →
    e.fault? limit n t = (e.literals t).findSome? Literal.overflow?
  | .primary p, n, t, h => p.fault?_eq_findSome? n t h
  | .join left _ _ _ _ right, n, t, h => by
    obtain ⟨hleft, hright⟩ := Nat.max_le.mp h
    rw [Term.fault?, Term.literals, List.findSome?_append, left.fault?_eq_findSome? n _ hleft,
      right.fault?_eq_findSome? n t hright]

theorem Primary.fault?_eq_findSome? : ∀ (e : Primary) (n : Nat) (t : List Char),
    e.levels ≤ n + 1 → e.fault? limit n t = (e.literals t).findSome? Literal.overflow?
  | .group inner, n, t, h =>
    inner.fault?_eq_findSome? n (')' :: t) (Nat.le_of_succ_le_succ h)
  | .decimal _, _, _, _ | .hexadecimal _ _, _, _, _ => by
    rw [Primary.literals, List.findSome?_singleton]
    rfl
  | .reference _, _, _, _ | .emptyCall _ _ _, _, _, _ => rfl
  | .call _ _ arguments, n, t, h =>
    arguments.fault?_eq_findSome? n (')' :: t) (Nat.le_of_succ_le_succ h)

theorem Arguments.fault?_eq_findSome? : ∀ (e : Arguments) (n : Nat) (t : List Char),
    e.levels ≤ n → e.fault? limit n t = (e.literals t).findSome? Literal.overflow?
  | .one e, n, t, h => e.fault?_eq_findSome? n t h
  | .snoc earlier e, n, t, h => by
    obtain ⟨hearlier, he⟩ := Nat.max_le.mp h
    rw [Arguments.fault?, Arguments.literals, List.findSome?_append,
      earlier.fault?_eq_findSome? n _ hearlier, e.fault?_eq_findSome? n t he]

end

/-- An expression that is a decimal literal. -/
def Spaced.decimal (run : DigitRun .decimal) : Spaced :=
  .mk .none (.term (.primary (.decimal run))) .none

/-- The literals fit just if none of them is too great. -/
theorem Spaced.fits_iff (e : Spaced) (t : List Char) :
    e.Fits ↔ ∀ l ∈ e.literals t, l.overflows = false := by
  have hnone : e.fault? 0 e.levels t = none ↔ e.levels ≤ e.levels ∧ e.Fits :=
    e.fault?_eq_none_iff e.levels t
  rw [e.fault?_eq_findSome? e.levels t (Nat.le_refl _), List.findSome?_eq_none_iff] at hnone
  simp only [Literal.overflow?_eq_none_iff, Nat.le_refl, true_and] at hnone
  exact hnone.symm

/-- The first literal that is too great comes behind the literals of an expression that fit. -/
theorem Spaced.find?_append_of_fits {e : Spaced} (t : List Char) (h : e.Fits) (ls : List Literal) :
    (e.literals t ++ ls).find? Literal.overflows = ls.find? Literal.overflows := by
  have hnone : (e.literals t).find? Literal.overflows = none := by
    rw [List.find?_eq_none]
    intro l hl
    rw [(e.fits_iff t).mp h l hl]
    exact Bool.false_ne_true
  rw [List.find?_append, hnone, Option.none_or]

/-- It is one of the literals of an expression that do not fit. -/
theorem Spaced.find?_append_of_not_fits {e : Spaced} (t : List Char) (h : ¬e.Fits)
    (ls : List Literal) : (e.literals t ++ ls).find? Literal.overflows =
      (e.literals t).find? Literal.overflows := by
  obtain ⟨l, hl⟩ : ∃ l, (e.literals t).find? Literal.overflows = some l := by
    rw [← Option.isSome_iff_exists, List.find?_isSome]
    by_contra hnot
    refine h ((e.fits_iff t).mpr fun l hl => Bool.eq_false_iff.mpr fun ho => hnot ⟨l, hl, ho⟩)
  rw [List.find?_append, hl, Option.some_or]

/-- **Reading the text of a derivation fails at its first literal that is too great**, however deep
it stands. -/
theorem Spaced.parse_of_overflow (e : Spaced) (limit : Nat) {t : List Char} {l : Literal}
    (hfollows : Follows e.after t) (ht : NoOperator t)
    (hl : (e.literals t).find? Literal.overflows = some l) :
    ∃ rest, l.OverflowsBefore rest ∧ ∀ n, e.levels ≤ n →
      (Rule.nested limit n).parse (e.text ++ t) = .error ⟨.overflow l.text, rest⟩ := by
  obtain ⟨rest, hrest, hbefore⟩ := Literal.overflow?_eq_some (List.find?_some hl)
  refine ⟨rest, hbefore, fun n hlevels => ?_⟩
  rw [e.parse_text n hfollows ht, e.fault?_eq_findSome? n t hlevels,
    Literal.findSome?_overflow? hl, hrest]
  rfl

end Derivation

end Asm65816
