import Asm65816.Proofs.Grammar.Derivation

/-!
# The leftmost failure of a derivation

Two things keep the text of a derivation from being read: a literal that is too great, and nesting
that is too deep. The leftmost of them is found by walking through the derivation from left to right
with the number of levels that are left and the text that stands behind.
-/

namespace Asm65816.Derivation

/-! ## Where it stands -/

section

variable (limit : Nat)

mutual

/-- The failure of an expression with so many levels left and the given text behind it. -/
def Spaced.fault? : Spaced → Nat → List Char → Option Failure
  | .mk _ sum after, 0, t => some ⟨.tooDeep limit, sum.text ++ (after.chars ++ t)⟩
  | .mk _ sum after, n + 1, t => sum.fault? n (after.chars ++ t)

/-- The failure of a sum with so many levels left inside of it. -/
def Sum.fault? : Sum → Nat → List Char → Option Failure
  | .term x, n, t => x.fault? n t
  | .join left before operator _ after right, n, t =>
    (left.fault? n
      (before.chars ++ (operator.symbol.toList ++ (after.chars ++ (right.text ++ t))))).or
      (right.fault? n t)

/-- The failure of a term with so many levels left inside of it. -/
def Term.fault? : Term → Nat → List Char → Option Failure
  | .primary p, n, t => p.fault? n t
  | .join left before operator _ after right, n, t =>
    (left.fault? n
      (before.chars ++ (operator.symbol.toList ++ (after.chars ++ (right.text ++ t))))).or
      (right.fault? n t)

/-- The failure of a primary with so many levels left inside of it. -/
def Primary.fault? : Primary → Nat → List Char → Option Failure
  | .group inner, n, t => inner.fault? n (')' :: t)
  | .decimal run, _, t => run.overflow? [] t
  | .hexadecimal _ run, _, t => run.overflow? ['$'] t
  | .reference _, _, _ | .emptyCall _ _ _, _, _ => none
  | .call _ _ arguments, n, t => arguments.fault? n (')' :: t)

/-- The failure of arguments with so many levels left for each of them. -/
def Arguments.fault? : Arguments → Nat → List Char → Option Failure
  | .one e, n, t => e.fault? n t
  | .snoc earlier e, n, t => (earlier.fault? n (',' :: (e.text ++ t))).or (e.fault? n t)

end

/-! ## When there is none -/

variable {limit : Nat}

mutual

theorem Spaced.levels_pos : ∀ e : Spaced, 1 ≤ e.levels
  | .mk _ sum _ => sum.levels_pos

theorem Sum.levels_pos : ∀ e : Sum, 1 ≤ e.levels
  | .term x => x.levels_pos
  | .join left _ _ _ _ _ => by
    have := left.levels_pos
    rw [Sum.levels]
    omega

theorem Term.levels_pos : ∀ e : Term, 1 ≤ e.levels
  | .primary p => p.levels_pos
  | .join left _ _ _ _ _ => by
    have := left.levels_pos
    rw [Term.levels]
    omega

theorem Primary.levels_pos : ∀ e : Primary, 1 ≤ e.levels
  | .group _ | .call _ _ _ => Nat.le_add_left 1 _
  | .decimal _ | .hexadecimal _ _ | .reference _ | .emptyCall _ _ _ => Nat.le_refl 1

end

mutual

/-- **There is no failure just if there are levels enough and all literals fit.** -/
theorem Spaced.fault?_eq_none_iff : ∀ (e : Spaced) (n : Nat) (t : List Char),
    e.fault? limit n t = none ↔ e.levels ≤ n ∧ e.Fits
  | .mk _ sum _, 0, t => by
    have := sum.levels_pos
    simp only [Spaced.fault?, Spaced.levels, reduceCtorEq, false_iff, not_and]
    omega
  | .mk _ sum after, n + 1, t => by
    rw [Spaced.fault?, Spaced.levels, Spaced.Fits]
    exact sum.fault?_eq_none_iff n (after.chars ++ t)

theorem Sum.fault?_eq_none_iff : ∀ (e : Sum) (n : Nat) (t : List Char),
    e.fault? limit n t = none ↔ e.levels ≤ n + 1 ∧ e.Fits
  | .term x, n, t => by
    rw [Sum.fault?, Sum.levels, Sum.Fits]
    exact x.fault?_eq_none_iff n t
  | .join left _ _ _ _ right, n, t => by
    rw [Sum.fault?, Sum.levels, Sum.Fits, Option.or_eq_none_iff, left.fault?_eq_none_iff,
      right.fault?_eq_none_iff, Nat.max_le]
    exact and_and_and_comm

theorem Term.fault?_eq_none_iff : ∀ (e : Term) (n : Nat) (t : List Char),
    e.fault? limit n t = none ↔ e.levels ≤ n + 1 ∧ e.Fits
  | .primary p, n, t => by
    rw [Term.fault?, Term.levels, Term.Fits]
    exact p.fault?_eq_none_iff n t
  | .join left _ _ _ _ right, n, t => by
    rw [Term.fault?, Term.levels, Term.Fits, Option.or_eq_none_iff, left.fault?_eq_none_iff,
      right.fault?_eq_none_iff, Nat.max_le]
    exact and_and_and_comm

theorem Primary.fault?_eq_none_iff : ∀ (e : Primary) (n : Nat) (t : List Char),
    e.fault? limit n t = none ↔ e.levels ≤ n + 1 ∧ e.Fits
  | .group inner, n, t => by
    rw [Primary.fault?, Primary.levels, Primary.Fits, inner.fault?_eq_none_iff,
      Nat.add_le_add_iff_right]
  | .decimal run, n, t => by
    rw [Primary.fault?, Primary.levels, Primary.Fits, DigitRun.overflow?_eq_none_iff]
    simp
  | .hexadecimal _ run, n, t => by
    rw [Primary.fault?, Primary.levels, Primary.Fits, DigitRun.overflow?_eq_none_iff]
    simp
  | .reference _, n, t => by simp [Primary.fault?, Primary.levels, Primary.Fits]
  | .emptyCall _ _ _, n, t => by simp [Primary.fault?, Primary.levels, Primary.Fits]
  | .call _ _ arguments, n, t => by
    rw [Primary.fault?, Primary.levels, Primary.Fits, arguments.fault?_eq_none_iff,
      Nat.add_le_add_iff_right]

theorem Arguments.fault?_eq_none_iff : ∀ (e : Arguments) (n : Nat) (t : List Char),
    e.fault? limit n t = none ↔ e.levels ≤ n ∧ e.Fits
  | .one e, n, t => by
    rw [Arguments.fault?, Arguments.levels, Arguments.Fits]
    exact e.fault?_eq_none_iff n t
  | .snoc earlier e, n, t => by
    rw [Arguments.fault?, Arguments.levels, Arguments.Fits, Option.or_eq_none_iff,
      earlier.fault?_eq_none_iff, e.fault?_eq_none_iff, Nat.max_le]
    exact and_and_and_comm

end

/-! ## What it is -/

/-- A failure that is never given back: too deep nesting, or a literal that is too great where not
all of them fit. -/
def Final (limit : Nat) (fits : Prop) (f : Failure) : Prop :=
  f.fault = .tooDeep limit ∨ (¬fits ∧ f.fault.isSoft = false)

theorem Final.isSoft {fits : Prop} {f : Failure} (h : Final limit fits f) :
    f.fault.isSoft = false := by
  rcases h with h | ⟨_, h⟩
  · rw [h]
    rfl
  · exact h

theorem Final.imp {p q : Prop} {f : Failure} (h : Final limit p f) (hqp : q → p) :
    Final limit q f := by
  rcases h with h | ⟨hp, h⟩
  · exact .inl h
  · exact .inr ⟨fun hq => hp (hqp hq), h⟩

theorem Final.of_or {p q : Prop} {x y : Option Failure} {f : Failure} (h : x.or y = some f)
    (hx : ∀ g, x = some g → Final limit p g) (hy : ∀ g, y = some g → Final limit q g) :
    Final limit (p ∧ q) f := by
  rcases Option.or_eq_some_iff.mp h with h | ⟨_, h⟩
  · exact (hx f h).imp And.left
  · exact (hy f h).imp And.right

theorem final_of_overflow? {radix : Radix} {run : DigitRun radix} {lead rest : List Char}
    {f : Failure} (h : run.overflow? lead rest = some f) :
    Final limit (run.value ≤ maxNumber) f := by
  refine .inr ⟨?_, DigitRun.isSoft_of_overflow? h⟩
  intro hle
  rw [DigitRun.overflow?_eq_none_iff.mpr hle] at h
  cases h

mutual

/-- **The failure is too deep nesting, or a literal that is too great.** -/
theorem Spaced.final_of_fault? : ∀ (e : Spaced) (n : Nat) (t : List Char) (f : Failure),
    e.fault? limit n t = some f → Final limit e.Fits f
  | .mk _ sum _, 0, t, f, h => by
    rw [Spaced.fault?] at h
    cases h
    exact .inl rfl
  | .mk _ sum after, n + 1, t, f, h => sum.final_of_fault? n (after.chars ++ t) f h

theorem Sum.final_of_fault? : ∀ (e : Sum) (n : Nat) (t : List Char) (f : Failure),
    e.fault? limit n t = some f → Final limit e.Fits f
  | .term x, n, t, f, h => x.final_of_fault? n t f h
  | .join left _ _ _ _ right, n, _, _, h =>
    .of_or h (left.final_of_fault? n _) (right.final_of_fault? n _)

theorem Term.final_of_fault? : ∀ (e : Term) (n : Nat) (t : List Char) (f : Failure),
    e.fault? limit n t = some f → Final limit e.Fits f
  | .primary p, n, t, f, h => p.final_of_fault? n t f h
  | .join left _ _ _ _ right, n, _, _, h =>
    .of_or h (left.final_of_fault? n _) (right.final_of_fault? n _)

theorem Primary.final_of_fault? : ∀ (e : Primary) (n : Nat) (t : List Char) (f : Failure),
    e.fault? limit n t = some f → Final limit e.Fits f
  | .group inner, n, t, f, h => inner.final_of_fault? n (')' :: t) f h
  | .decimal _, _, _, _, h => final_of_overflow? h
  | .hexadecimal _ _, _, _, _, h => final_of_overflow? h
  | .reference _, _, _, _, h | .emptyCall _ _ _, _, _, _, h => by cases h
  | .call _ _ arguments, n, t, f, h => arguments.final_of_fault? n (')' :: t) f h

theorem Arguments.final_of_fault? : ∀ (e : Arguments) (n : Nat) (t : List Char) (f : Failure),
    e.fault? limit n t = some f → Final limit e.Fits f
  | .one e, n, t, f, h => e.final_of_fault? n t f h
  | .snoc earlier e, n, _, _, h =>
    .of_or h (earlier.final_of_fault? n _) (e.final_of_fault? n _)

end

/-- Where all literals fit, only nesting can be in the way. -/
theorem Spaced.tooDeep_of_fault? {e : Spaced} {n : Nat} {t : List Char} {f : Failure}
    (h : e.fault? limit n t = some f) (hfits : e.Fits) : f.fault = .tooDeep limit := by
  rcases e.final_of_fault? n t f h with h | ⟨hnot, _⟩
  · exact h
  · exact absurd hfits hnot

end

end Asm65816.Derivation
