import Asm65816.Proofs.Expression.Canonical
import Asm65816.Proofs.Grammar.LeftmostFault

/-!
# The trees of derivations

Every tree of a derivation is canonical, and it may be part of a program if all literals fit. When
it is written it needs no more parentheses than the derivation has, so it takes no more levels.
-/

namespace Asm65816

open Expression

/-! ## Literals -/

theorem Word.name_ne_empty (word : Word) : word.name ≠ "" := by
  intro h
  have := congrArg String.toList h
  rw [Word.name, Word.chars, String.toList_ofList] at this
  cases this

theorem Word.isName (word : Word) : IsName word.name := ⟨word, rfl⟩

/-- The width that a number of hexadecimal digits suggests holds their value. -/
theorem DigitRun.holds_value (run : DigitRun .hexadecimal) :
    (LiteralWidth.ofHexDigits run.chars.length).Holds run.value := by
  have hlt := Radix.hexadecimal.valueOf_lt run.chars
  unfold LiteralWidth.ofHexDigits
  split
  · rename_i h
    rw [h] at hlt
    exact Nat.le_of_lt_succ hlt
  · rename_i h
    rw [h] at hlt
    exact Nat.le_of_lt_succ hlt
  · trivial

namespace Derivation

/-! ## They are canonical -/

mutual

/-- **The tree of a derivation is canonical.** -/
theorem Spaced.canonical : ∀ e : Spaced, e.tree.Canonical
  | .mk _ sum _ => sum.canonical

theorem Sum.canonical : ∀ e : Sum, e.tree.Canonical
  | .term x => x.canonical
  | .join left _ _ additive _ right => .binary (.inl additive) left.canonical right.canonical

theorem Term.canonical : ∀ e : Term, e.tree.Canonical
  | .primary p => p.canonical
  | .join left _ _ multiplicative _ right =>
    .binary (.inr multiplicative) left.canonical right.canonical

theorem Primary.canonical : ∀ p : Primary, p.tree.Canonical
  | .group inner => inner.canonical
  | .decimal _ => .number trivial
  | .hexadecimal _ run => .number run.holds_value
  | .reference name => .reference name.isName
  | .emptyCall name _ _ => .call name.isName fun _ h => nomatch h
  | .call name _ arguments => .call name.isName arguments.canonical

theorem Arguments.canonical : ∀ (es : Arguments), ∀ e ∈ es.trees, e.Canonical
  | .one d, e, h => by
    rw [List.mem_singleton.mp h]
    exact d.canonical
  | .snoc earlier d, e, h => by
    rcases List.mem_append.mp h with h | h
    · exact earlier.canonical e h
    · rw [List.mem_singleton.mp h]
      exact d.canonical

end

/-! ## They may be part of a program -/

mutual

/-- **The tree of a derivation whose literals fit may be part of a program.** -/
theorem Spaced.valid : ∀ e : Spaced, e.Fits → e.tree.Valid
  | .mk _ sum _, h => sum.valid h

theorem Sum.valid : ∀ e : Sum, e.Fits → e.tree.Valid
  | .term x, h => x.valid h
  | .join left _ _ _ _ right, h => .binary (left.valid h.1) (right.valid h.2)

theorem Term.valid : ∀ e : Term, e.Fits → e.tree.Valid
  | .primary p, h => p.valid h
  | .join left _ _ _ _ right, h => .binary (left.valid h.1) (right.valid h.2)

theorem Primary.valid : ∀ p : Primary, p.Fits → p.tree.Valid
  | .group inner, h => inner.valid h
  | .decimal _, h | .hexadecimal _ _, h => .number h
  | .reference name, _ => .reference (.named name.name_ne_empty)
  | .emptyCall name _ _, _ => .call name.name_ne_empty fun _ h => nomatch h
  | .call name _ arguments, h => .call name.name_ne_empty (arguments.valid h)

theorem Arguments.valid : ∀ es : Arguments, es.Fits → ∀ e ∈ es.trees, e.Valid
  | .one d, hfits, e, h => by
    rw [List.mem_singleton.mp h]
    exact d.valid hfits
  | .snoc earlier d, hfits, e, h => by
    rcases List.mem_append.mp h with h | h
    · exact earlier.valid hfits.1 e h
    · rw [List.mem_singleton.mp h]
      exact d.valid hfits.2

end

/-! ## They need no more levels -/

theorem toNat_joinedBy_le {p q : Nat → Bool} (hpq : ∀ n, p n = true → q n = true)
    (e : Expression) : (e.joinedBy p).toNat ≤ (e.joinedBy q).toNat := by
  cases hp : e.joinedBy p with
  | false => exact Nat.zero_le _
  | true =>
    exact Nat.le_of_eq (congrArg Bool.toNat (joinedBy_mono hpq hp).symm)

theorem depthAll_append (es fs : List Expression) :
    depthAll (es ++ fs) = max (depthAll es) (depthAll fs) := by
  induction es with
  | nil => exact (Nat.zero_max _).symm
  | cons e es ih =>
    rw [List.cons_append, depthAll, depthAll, ih, Nat.max_assoc]

mutual

/-- **The tree of a derivation is written with no more levels.** -/
theorem Spaced.depth_lt : ∀ e : Spaced, e.tree.depth < e.levels
  | .mk _ sum _ => by
    have := sum.depth_lt
    rw [Spaced.tree, Spaced.levels]
    omega

/-- A sum on the left of `+` or `-` has the parentheses that it needs there. -/
theorem Sum.depth_lt : ∀ e : Sum,
    e.tree.depth + (e.tree.joinedBy (· < 2)).toNat < e.levels
  | .term x => by
    have hx := x.depth_lt
    have hle := toNat_joinedBy_le (p := (· < 2)) (q := (· < 3)) (by simp; omega) x.tree
    rw [Sum.tree, Sum.levels]
    omega
  | .join left _ o additive _ right => by
    have hl := left.depth_lt
    have hr := right.depth_lt
    have hle := toNat_joinedBy_le (p := (· ≤ 2)) (q := (· < 3)) (by simp; omega) right.tree
    have hp : o.precedence = 2 := by rcases additive with rfl | rfl <;> rfl
    rw [Sum.tree, Sum.levels, Expression.depth, joinedBy, hp]
    simp only [Nat.lt_irrefl, decide_false, Bool.toNat_false]
    omega

/-- A term on the left of `*` or `/` has the parentheses that it needs there. -/
theorem Term.depth_lt : ∀ e : Term,
    e.tree.depth + (e.tree.joinedBy (· < 3)).toNat < e.levels
  | .primary p => by
    have hp := p.depth_lt
    have hle := toNat_joinedBy_le (p := (· < 3)) (q := fun _ => true) (fun _ _ => rfl) p.tree
    rw [Term.tree, Term.levels]
    omega
  | .join left _ o multiplicative _ right => by
    have hl := left.depth_lt
    have hr := right.depth_lt
    have hle := toNat_joinedBy_le (p := (· ≤ 3)) (q := fun _ => true) (fun _ _ => rfl) right.tree
    have hp : o.precedence = 3 := by rcases multiplicative with rfl | rfl <;> rfl
    rw [Term.tree, Term.levels, Expression.depth, joinedBy, hp]
    simp only [Nat.lt_irrefl, decide_false, Bool.toNat_false]
    omega

/-- A primary has the parentheses that it needs anywhere. -/
theorem Primary.depth_lt : ∀ p : Primary,
    p.tree.depth + (p.tree.joinedBy fun _ => true).toNat < p.levels
  | .group inner => by
    have := inner.depth_lt
    have hle := Bool.toNat_le (inner.tree.joinedBy fun _ => true)
    rw [Primary.tree, Primary.levels]
    omega
  | .decimal _ | .hexadecimal _ _ | .reference _ | .emptyCall _ _ _ => Nat.zero_lt_one
  | .call name _ arguments => by
    have := arguments.depth_lt
    rw [Primary.tree, Primary.levels]
    -- empty lists have a production of their own, so the first case does not arise
    cases htrees : arguments.trees with
    | nil => exact Nat.succ_pos _
    | cons e es =>
      rw [htrees, depthAll] at this
      show max e.depth (depthAll es) + 1 + 0 < arguments.levels + 1
      omega

/-- Of arguments each one is written with no more levels. -/
theorem Arguments.depth_lt : ∀ es : Arguments, depthAll es.trees < es.levels
  | .one d => by
    have := d.depth_lt
    rw [Arguments.trees, Arguments.levels, depthAll, depthAll]
    omega
  | .snoc earlier d => by
    have hearlier := earlier.depth_lt
    have hlast := d.depth_lt
    rw [Arguments.trees, Arguments.levels, depthAll_append, depthAll, depthAll]
    omega

end

end Derivation

end Asm65816
