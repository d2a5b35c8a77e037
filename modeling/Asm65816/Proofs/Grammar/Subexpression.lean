import Asm65816.Proofs.Grammar.Completeness

/-!
# The expressions of a derivation

An expression stands in a text on its own, in parentheses, or as an argument. The expressions of a
derivation are listed in the order in which they begin, each with its level and the text that stands
behind it. The whole has the level one, and an expression in parentheses or an argument is one level
below the expression that it is a part of. Parentheses count even where they change nothing; those
of a function without arguments hold no expression and do not.

If all literals fit, the leftmost failure of a derivation is the first of its expressions that lies
below the limit.
-/

namespace Asm65816

/-- An expression in a text. -/
structure Subexpression where
  /-- The expression, with the blanks around it. -/
  expression : Derivation.Spaced
  /-- The number of expressions that it is a part of, itself included. -/
  level : Nat
  /-- The text right behind it. -/
  behind : List Char

namespace Subexpression

/-- The text from the first character of an expression on, which is no blank. -/
def start (x : Subexpression) : List Char := Text.skipBlanks (x.expression.text ++ x.behind)

/-- The failure of an expression that nests too deep. -/
def tooDeep (limit : Nat) (x : Subexpression) : Failure := ⟨.tooDeep limit, x.start⟩

theorem start_suffix (x : Subexpression) : x.start <:+ x.expression.text ++ x.behind :=
  Text.skipBlanks_suffix _

theorem start_mk (before after : Blanks) (sum : Derivation.Sum) (level : Nat) (t : List Char) :
    (⟨.mk before sum after, level, t⟩ : Subexpression).start = sum.text ++ (after.chars ++ t) := by
  rw [start, Derivation.Spaced.text, List.append_assoc, List.append_assoc, before.skipBlanks_append,
    (sum.unspaced _).skipBlanks_eq]

/-- The expressions begin one behind the other in a text, in front of its rest. -/
inductive InOrder : List Subexpression → List Char → List Char → Prop where
  | nil {s t : List Char} : t <:+ s → InOrder [] s t
  | cons {x : Subexpression} {xs : List Subexpression} {s t : List Char} :
      x.start <:+ s → InOrder xs x.start t → InOrder (x :: xs) s t

namespace InOrder

variable {xs ys : List Subexpression} {s s' t u : List Char}

theorem of_suffix (h : InOrder xs s t) (hs : s <:+ s') : InOrder xs s' t := by
  cases h with
  | nil ht => exact .nil (ht.trans hs)
  | cons hx h => exact .cons (hx.trans hs) h

/-- Expressions in front of others. -/
theorem append (h : InOrder xs s u) (h' : InOrder ys u t) : InOrder (xs ++ ys) s t := by
  induction h with
  | nil hu => exact h'.of_suffix hu
  | cons hx _ ih => exact .cons hx (ih h')

/-- Expressions on the two sides of an operator, with blanks around it. -/
theorem join {before sign after : List Char} (h : InOrder xs s (before ++ (sign ++ (after ++ u))))
    (h' : InOrder ys u t) : InOrder (xs ++ ys) s t :=
  h.append (h'.of_suffix ((List.suffix_append after u).trans
    ((List.suffix_append sign _).trans (List.suffix_append before _))))

/-- Every expression begins in the text. -/
theorem suffix (h : InOrder xs s t) {x : Subexpression} (hx : x ∈ xs) : x.start <:+ s := by
  induction h with
  | nil _ => cases hx
  | cons hfirst _ ih =>
    rcases List.mem_cons.mp hx with rfl | hx
    · exact hfirst
    · exact (ih hx).trans hfirst

/-- What is found first begins before all that is also found. -/
theorem suffix_of_find? (h : InOrder xs s t) {p : Subexpression → Bool} {x y : Subexpression}
    (hx : xs.find? p = some x) (hy : y ∈ xs) (hp : p y = true) : y.start <:+ x.start := by
  induction h with
  | nil _ => cases hy
  | @cons first _ _ _ _ h ih =>
    cases hfirst : p first with
    | true =>
      rw [List.find?_cons_of_pos hfirst] at hx
      cases hx
      rcases List.mem_cons.mp hy with rfl | hy
      · exact List.suffix_refl _
      · exact h.suffix hy
    | false =>
      rw [List.find?_cons_of_neg (by simp [hfirst])] at hx
      rcases List.mem_cons.mp hy with rfl | hy
      · exact absurd (hfirst.symm.trans hp) Bool.false_ne_true
      · exact ih hx hy

end InOrder

end Subexpression

namespace Derivation

/-! ## From left to right -/

mutual

/-- The expressions of an expression at a certain level in front of a text, itself included. -/
def Spaced.subexpressions : Spaced → Nat → List Char → List Subexpression
  | .mk before sum after, level, t =>
    ⟨.mk before sum after, level, t⟩ :: sum.subexpressions level (after.chars ++ t)

/-- The expressions inside of a sum which is an expression at a certain level. -/
def Sum.subexpressions : Sum → Nat → List Char → List Subexpression
  | .term x, level, t => x.subexpressions level t
  | .join left before operator _ after right, level, t =>
    left.subexpressions level
      (before.chars ++ (operator.symbol.toList ++ (after.chars ++ (right.text ++ t)))) ++
      right.subexpressions level t

def Term.subexpressions : Term → Nat → List Char → List Subexpression
  | .primary p, level, t => p.subexpressions level t
  | .join left before operator _ after right, level, t =>
    left.subexpressions level
      (before.chars ++ (operator.symbol.toList ++ (after.chars ++ (right.text ++ t)))) ++
      right.subexpressions level t

def Primary.subexpressions : Primary → Nat → List Char → List Subexpression
  | .group inner, level, t => inner.subexpressions (level + 1) (')' :: t)
  | .decimal _, _, _ | .hexadecimal _ _, _, _ | .reference _, _, _ | .emptyCall _ _ _, _, _ => []
  | .call _ _ arguments, level, t => arguments.subexpressions (level + 1) (')' :: t)

/-- The expressions of arguments at a certain level. -/
def Arguments.subexpressions : Arguments → Nat → List Char → List Subexpression
  | .one e, level, t => e.subexpressions level t
  | .snoc earlier e, level, t =>
    earlier.subexpressions level (',' :: (e.text ++ t)) ++ e.subexpressions level t

end

mutual

/-- **The expressions begin in the text in this order.** -/
theorem Spaced.subexpressions_inOrder : ∀ (e : Spaced) (level : Nat) (t : List Char),
    Subexpression.InOrder (e.subexpressions level t) (e.text ++ t) t
  | .mk before sum after, level, t => by
    have hsum := sum.subexpressions_inOrder level (after.chars ++ t)
    have hsum := hsum.append (.nil (List.suffix_append after.chars t))
    rw [List.append_nil] at hsum
    rw [Spaced.subexpressions]
    refine .cons (Subexpression.start_suffix _) ?_
    rwa [Subexpression.start_mk]

theorem Sum.subexpressions_inOrder : ∀ (e : Sum) (level : Nat) (t : List Char),
    Subexpression.InOrder (e.subexpressions level t) (e.text ++ t) t
  | .term x, level, t => x.subexpressions_inOrder level t
  | .join left _ _ _ _ right, level, t => by
    simp only [Sum.text, Sum.subexpressions, List.append_assoc]
    exact (left.subexpressions_inOrder level _).join (right.subexpressions_inOrder level t)

theorem Term.subexpressions_inOrder : ∀ (e : Term) (level : Nat) (t : List Char),
    Subexpression.InOrder (e.subexpressions level t) (e.text ++ t) t
  | .primary p, level, t => p.subexpressions_inOrder level t
  | .join left _ _ _ _ right, level, t => by
    simp only [Term.text, Term.subexpressions, List.append_assoc]
    exact (left.subexpressions_inOrder level _).join (right.subexpressions_inOrder level t)

theorem Primary.subexpressions_inOrder : ∀ (e : Primary) (level : Nat) (t : List Char),
    Subexpression.InOrder (e.subexpressions level t) (e.text ++ t) t
  | .group inner, level, t => by
    have h := (inner.subexpressions_inOrder (level + 1) (')' :: t)).of_suffix
      (List.suffix_cons '(' _)
    have h := h.append (.nil (List.suffix_cons ')' t))
    simpa only [Primary.text, Primary.subexpressions, List.cons_append, List.append_assoc,
      List.nil_append, List.append_nil] using h
  | .decimal _, _, _ | .hexadecimal _ _, _, _ | .reference _, _, _ | .emptyCall _ _ _, _, _ =>
    .nil (List.suffix_append _ _)
  | .call name between arguments, level, t => by
    have h := (arguments.subexpressions_inOrder (level + 1) (')' :: t)).of_suffix
      (List.suffix_append (name.chars ++ (between.chars ++ ['('])) _)
    have h := h.append (.nil (List.suffix_cons ')' t))
    simpa only [Primary.text, Primary.subexpressions, List.cons_append, List.append_assoc,
      List.nil_append, List.append_nil] using h

theorem Arguments.subexpressions_inOrder : ∀ (e : Arguments) (level : Nat) (t : List Char),
    Subexpression.InOrder (e.subexpressions level t) (e.text ++ t) t
  | .one e, level, t => e.subexpressions_inOrder level t
  | .snoc earlier e, level, t => by
    have h := (earlier.subexpressions_inOrder level (',' :: (e.text ++ t))).append
      ((e.subexpressions_inOrder level t).of_suffix (List.suffix_cons ',' _))
    simpa only [Arguments.text, Arguments.subexpressions, List.append_assoc, List.cons_append]
      using h

end

/-! ## How deep they lie -/

theorem Arguments.levels_pos (es : Arguments) : 1 ≤ es.levels := by
  cases es with
  | one e => exact e.levels_pos
  | snoc earlier e => exact Nat.le_trans e.levels_pos (Nat.le_max_right earlier.levels _)

mutual

/-- **The levels of an expression reach down to the deepest of its expressions.** -/
theorem Spaced.levels_le_iff : ∀ (e : Spaced) (level : Nat) (t : List Char) {m : Nat},
    (∀ x ∈ e.subexpressions level t, x.level ≤ m) ↔ level + e.levels ≤ m + 1
  | .mk _ sum after, level, t, m => by
    rw [Spaced.subexpressions, Spaced.levels, List.forall_mem_cons,
      sum.levels_le_iff level (after.chars ++ t)]

/-- The level of a sum counts only by the expression that it is. -/
theorem Sum.levels_le_iff : ∀ (e : Sum) (level : Nat) (t : List Char) {m : Nat},
    (level ≤ m ∧ ∀ x ∈ e.subexpressions level t, x.level ≤ m) ↔ level + e.levels ≤ m + 1
  | .term x, level, t, m => x.levels_le_iff level t
  | .join left _ _ _ _ right, level, t, m => by
    rw [Sum.subexpressions, Sum.levels, List.forall_mem_append, and_and_left,
      left.levels_le_iff, right.levels_le_iff]
    omega

theorem Term.levels_le_iff : ∀ (e : Term) (level : Nat) (t : List Char) {m : Nat},
    (level ≤ m ∧ ∀ x ∈ e.subexpressions level t, x.level ≤ m) ↔ level + e.levels ≤ m + 1
  | .primary p, level, t, m => p.levels_le_iff level t
  | .join left _ _ _ _ right, level, t, m => by
    rw [Term.subexpressions, Term.levels, List.forall_mem_append, and_and_left,
      left.levels_le_iff, right.levels_le_iff]
    omega

theorem Primary.levels_le_iff : ∀ (e : Primary) (level : Nat) (t : List Char) {m : Nat},
    (level ≤ m ∧ ∀ x ∈ e.subexpressions level t, x.level ≤ m) ↔ level + e.levels ≤ m + 1
  | .group inner, level, t, m => by
    have := inner.levels_pos
    rw [Primary.subexpressions, Primary.levels, inner.levels_le_iff]
    omega
  | .decimal _, _, _, _ | .hexadecimal _ _, _, _, _ | .reference _, _, _, _
  | .emptyCall _ _ _, _, _, _ => by simp [Primary.subexpressions, Primary.levels]
  | .call _ _ arguments, level, t, m => by
    have := arguments.levels_pos
    rw [Primary.subexpressions, Primary.levels, arguments.levels_le_iff]
    omega

theorem Arguments.levels_le_iff : ∀ (e : Arguments) (level : Nat) (t : List Char) {m : Nat},
    (∀ x ∈ e.subexpressions level t, x.level ≤ m) ↔ level + e.levels ≤ m + 1
  | .one e, level, t, m => e.levels_le_iff level t
  | .snoc earlier e, level, t, m => by
    rw [Arguments.subexpressions, Arguments.levels, List.forall_mem_append,
      earlier.levels_le_iff, e.levels_le_iff]
    omega

end

/-! ## The first one below the limit -/

variable {limit : Nat}

mutual

/-- **Where all literals fit, the leftmost failure is that of the first expression below the
limit.** The levels that are left are those between the level of the expression and the limit. -/
theorem Spaced.fault?_eq_find? : ∀ (e : Spaced) (n level : Nat) (t : List Char) {m : Nat},
    e.Fits → level + n = m → e.fault? limit n t =
      ((e.subexpressions level t).find? (·.level == m)).map (Subexpression.tooDeep limit)
  | .mk before sum after, 0, level, t, m, _, hm => by
    rw [Spaced.subexpressions, List.find?_cons_of_pos (by simpa using hm), Spaced.fault?,
      Option.map_some, Subexpression.tooDeep, Subexpression.start_mk]
  | .mk _ sum after, n + 1, level, t, m, h, hm => by
    rw [Spaced.subexpressions, List.find?_cons_of_neg (by simp; omega), Spaced.fault?]
    exact sum.fault?_eq_find? n level (after.chars ++ t) h hm

theorem Sum.fault?_eq_find? : ∀ (e : Sum) (n level : Nat) (t : List Char) {m : Nat},
    e.Fits → level + (n + 1) = m → e.fault? limit n t =
      ((e.subexpressions level t).find? (·.level == m)).map (Subexpression.tooDeep limit)
  | .term x, n, level, t, m, h, hm => x.fault?_eq_find? n level t h hm
  | .join left _ _ _ _ right, n, level, t, m, h, hm => by
    rw [Sum.fault?, Sum.subexpressions, List.find?_append, Option.map_or,
      left.fault?_eq_find? n level _ h.1 hm, right.fault?_eq_find? n level t h.2 hm]

theorem Term.fault?_eq_find? : ∀ (e : Term) (n level : Nat) (t : List Char) {m : Nat},
    e.Fits → level + (n + 1) = m → e.fault? limit n t =
      ((e.subexpressions level t).find? (·.level == m)).map (Subexpression.tooDeep limit)
  | .primary p, n, level, t, m, h, hm => p.fault?_eq_find? n level t h hm
  | .join left _ _ _ _ right, n, level, t, m, h, hm => by
    rw [Term.fault?, Term.subexpressions, List.find?_append, Option.map_or,
      left.fault?_eq_find? n level _ h.1 hm, right.fault?_eq_find? n level t h.2 hm]

theorem Primary.fault?_eq_find? : ∀ (e : Primary) (n level : Nat) (t : List Char) {m : Nat},
    e.Fits → level + (n + 1) = m → e.fault? limit n t =
      ((e.subexpressions level t).find? (·.level == m)).map (Subexpression.tooDeep limit)
  | .group inner, n, level, t, m, h, hm =>
    inner.fault?_eq_find? n (level + 1) (')' :: t) h (by omega)
  | .decimal _, _, _, _, _, h, _ | .hexadecimal _ _, _, _, _, _, h, _ =>
    DigitRun.overflow?_eq_none_iff.mpr h
  | .reference _, _, _, _, _, _, _ | .emptyCall _ _ _, _, _, _, _, _, _ => rfl
  | .call _ _ arguments, n, level, t, m, h, hm =>
    arguments.fault?_eq_find? n (level + 1) (')' :: t) h (by omega)

theorem Arguments.fault?_eq_find? : ∀ (e : Arguments) (n level : Nat) (t : List Char) {m : Nat},
    e.Fits → level + n = m → e.fault? limit n t =
      ((e.subexpressions level t).find? (·.level == m)).map (Subexpression.tooDeep limit)
  | .one e, n, level, t, m, h, hm => e.fault?_eq_find? n level t h hm
  | .snoc earlier e, n, level, t, m, h, hm => by
    rw [Arguments.fault?, Arguments.subexpressions, List.find?_append, Option.map_or,
      earlier.fault?_eq_find? n level _ h.1 hm, e.fault?_eq_find? n level t h.2 hm]

end

/-- Some expression lies just below the limit if any lies below it. -/
theorem Spaced.exists_find?_of_lt_levels {e : Spaced} {n : Nat} (t : List Char)
    (h : n < e.levels) (hfits : e.Fits) :
    ∃ x, (e.subexpressions 1 t).find? (·.level == n + 1) = some x := by
  cases hx : (e.subexpressions 1 t).find? (·.level == n + 1) with
  | some x => exact ⟨x, rfl⟩
  | none =>
    have hfault : e.fault? 0 n t = _ := e.fault?_eq_find? n 1 t hfits (Nat.add_comm 1 n)
    rw [hx, Option.map_none, e.fault?_eq_none_iff] at hfault
    exact absurd hfault.1 (Nat.not_le_of_lt h)

/-- **Reading the text of a derivation fails at its first expression below the limit**, whatever
stands around it. -/
theorem Spaced.parse_of_tooDeep (e : Spaced) (limit : Nat) {n : Nat} {t : List Char}
    {x : Subexpression} (hfits : e.Fits) (hfollows : Follows e.after t) (ht : NoOperator t)
    (hx : (e.subexpressions 1 t).find? (·.level == n + 1) = some x) :
    (Rule.nested limit n).parse (e.text ++ t) = .error (x.tooDeep limit) := by
  rw [e.parse_text n hfollows ht, e.fault?_eq_find? n 1 t hfits (Nat.add_comm 1 n), hx]
  rfl

end Derivation

end Asm65816
