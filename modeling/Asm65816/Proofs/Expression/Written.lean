import Asm65816.Proofs.Expression.Canonical
import Asm65816.Proofs.Grammar.Derivation

/-!
# What is written is derived

The text of a canonical expression has a derivation with just that expression as its tree, which
takes one level more than the expression has depth. An operand is put in parentheses where the
grammar would not have it otherwise: on the left of `*` and `/` a sum, on the right of `+` and `-`
too, and on the right of `*` and `/` also a term that is no primary.
-/

namespace Asm65816

namespace Derivation

/-- A sum that is a text of an expression, of a certain depth. -/
def Sum.Writes (x : Sum) (s : List Char) (e : Expression) (depth : Nat) : Prop :=
  x.text = s ∧ x.tree = e ∧ x.levels = depth + 1 ∧ x.Fits

/-- A term that is a text of an expression, of a certain depth. -/
def Term.Writes (x : Term) (s : List Char) (e : Expression) (depth : Nat) : Prop :=
  x.text = s ∧ x.tree = e ∧ x.levels = depth + 1 ∧ x.Fits

/-- A primary that is a text of an expression, of a certain depth. -/
def Primary.Writes (p : Primary) (s : List Char) (e : Expression) (depth : Nat) : Prop :=
  p.text = s ∧ p.tree = e ∧ p.levels = depth + 1 ∧ p.Fits

variable {s : List Char} {e : Expression} {depth : Nat}

theorem Sum.Writes.group {x : Sum} (h : x.Writes s e depth) :
    (Primary.group (.mk .none x .none)).Writes ('(' :: s ++ [')']) e (depth + 1) := by
  obtain ⟨rfl, rfl, hlevels, hfits⟩ := h
  refine ⟨?_, rfl, congrArg (· + 1) hlevels, hfits⟩
  simp [Primary.text, Spaced.text, Blanks.none]

end Derivation

open Asm65816.Derivation

namespace Expression

/-- An expression whose text is derived, with no more parentheses than it needs. -/
structure Written (e : Expression) : Prop where
  /-- As a sum it needs none. -/
  sum : ∃ x : Sum, x.Writes e.chars e e.depth ∧ ¬x.IsGroup
  /-- As a term it needs none unless it adds or subtracts. -/
  term : e.joinedBy (· < 3) = false → ∃ x : Term, x.Writes e.chars e e.depth
  /-- As a primary it needs none unless there is an operator. -/
  primary : e.joinedBy (fun _ => true) = false → ∃ p : Primary, p.Writes e.chars e e.depth

variable {e : Expression}

theorem Written.of_primary {p : Primary} (h : p.Writes e.chars e e.depth)
    (hp : ∀ inner, p ≠ .group inner) : e.Written where
  sum := ⟨.term (.primary p), h, fun ⟨inner, hinner⟩ => hp inner (by cases hinner; rfl)⟩
  term := fun _ => ⟨.primary p, h⟩
  primary := fun _ => ⟨p, h⟩

/-! ## Operands -/

theorem Written.sum_parenthesized (h : e.Written) (needed : Bool) :
    ∃ x : Sum, x.Writes (parenthesized needed e.chars) e (e.depth + needed.toNat) := by
  cases needed with
  | false =>
    obtain ⟨x, hx, _⟩ := h.sum
    exact ⟨x, hx⟩
  | true =>
    obtain ⟨x, hx, _⟩ := h.sum
    exact ⟨.term (.primary (.group (.mk .none x .none))), hx.group⟩

theorem Written.term_parenthesized (h : e.Written) (needed : Bool)
    (hneeded : needed = false → e.joinedBy (· < 3) = false) :
    ∃ x : Term, x.Writes (parenthesized needed e.chars) e (e.depth + needed.toNat) := by
  cases needed with
  | false => exact h.term (hneeded rfl)
  | true =>
    obtain ⟨x, hx, _⟩ := h.sum
    exact ⟨.primary (.group (.mk .none x .none)), hx.group⟩

theorem Written.primary_parenthesized (h : e.Written) (needed : Bool)
    (hneeded : needed = false → e.joinedBy (fun _ => true) = false) :
    ∃ p : Primary, p.Writes (parenthesized needed e.chars) e (e.depth + needed.toNat) := by
  cases needed with
  | false => exact h.primary (hneeded rfl)
  | true =>
    obtain ⟨x, hx, _⟩ := h.sum
    exact ⟨_, hx.group⟩

/-! ## Forms of expressions -/

theorem written_number {value : Nat} {width : LiteralWidth} (hvalue : value ≤ maxNumber)
    (hwidth : width.Holds value) : (number value width).Written := by
  have hexadecimal : ∀ k, value < 16 ^ (k + 1) → .ofHexDigits (k + 1) = width →
      ∃ p : Primary, p.Writes ('$' :: Radix.hexadecimal.write (k + 1) value) (number value width)
        (number value width).depth ∧ ∀ inner, p ≠ .group inner := by
    intro k hk hw
    refine ⟨.hexadecimal .none (.written .hexadecimal (k + 1) value), ⟨rfl, ?_, rfl, ?_⟩,
      fun _ => nofun⟩
    · have hlength : (DigitRun.written .hexadecimal (k + 1) value).chars.length = k + 1 :=
        Radix.hexadecimal.length_write hk
      rw [Primary.tree, DigitRun.value_written, hlength, hw]
    · rwa [Primary.Fits, DigitRun.value_written]
  cases width with
  | none =>
    refine .of_primary (p := .decimal (.written .decimal 0 value)) ⟨rfl, ?_, rfl, ?_⟩ fun _ => nofun
    · rw [Primary.tree, DigitRun.value_written]
    · rwa [Primary.Fits, DigitRun.value_written]
  | oneByte =>
    obtain ⟨p, hp, hgroup⟩ := hexadecimal 1 (Nat.lt_succ_of_le hwidth) rfl
    exact .of_primary hp hgroup
  | twoBytes =>
    obtain ⟨p, hp, hgroup⟩ := hexadecimal 3 (Nat.lt_succ_of_le hwidth) rfl
    exact .of_primary hp hgroup

theorem IsName.exists_word {name : String} (h : IsName name) :
    ∃ word : Word, word.chars = name.toList ∧ word.name = name := by
  obtain ⟨word, rfl⟩ := h
  exact ⟨word, by simp [Word.name], rfl⟩

theorem written_reference {name : String} (h : IsName name) :
    (reference (.named name)).Written := by
  obtain ⟨word, hchars, rfl⟩ := IsName.exists_word h
  exact .of_primary (p := .reference word) ⟨hchars, rfl, rfl, trivial⟩ fun _ => nofun

theorem written_binary {operator : Operator} {left right : Expression}
    (ho : operator.IsWritten) (hl : left.Written) (hr : right.Written) :
    (binary operator left right).Written := by
  rcases ho with ho | ho
  · -- a term on the right
    have hp : operator.precedence = 2 := by rcases ho with rfl | rfl <;> rfl
    obtain ⟨x, hxs, rfl, hxl, hxf⟩ := hl.sum_parenthesized (left.joinedBy (· < operator.precedence))
    obtain ⟨y, hys, rfl, hyl, hyf⟩ :=
      hr.term_parenthesized (right.joinedBy (· ≤ operator.precedence)) <|
        joinedBy_eq_false fun n hn => by
          rw [decide_eq_true_iff] at hn ⊢
          omega
    refine ⟨⟨.join x .space operator ho .space y, ⟨?_, rfl, ?_, hxf, hyf⟩, nofun⟩, ?_, ?_⟩
    · rw [Sum.text, hxs, hys, chars]
      simp [Blanks.space]
    · rw [Sum.levels, hxl, hyl, depth]
      omega
    · intro h
      rw [joinedBy, hp] at h
      cases h
    · intro h
      cases h
  · -- a term on the left, and a primary on the right
    have hp : operator.precedence = 3 := by rcases ho with rfl | rfl <;> rfl
    obtain ⟨x, hxs, rfl, hxl, hxf⟩ :=
      hl.term_parenthesized (left.joinedBy (· < operator.precedence)) (by rw [hp]; exact id)
    obtain ⟨y, hys, rfl, hyl, hyf⟩ :=
      hr.primary_parenthesized (right.joinedBy (· ≤ operator.precedence)) <| by
        rw [hp, joinedBy_le_three]
        exact id
    have hterm : (Term.join x .space operator ho .space y).Writes
        (binary operator x.tree y.tree).chars (binary operator x.tree y.tree)
        (binary operator x.tree y.tree).depth := by
      refine ⟨?_, rfl, ?_, hxf, hyf⟩
      · rw [Term.text, hxs, hys, chars]
        simp [Blanks.space]
      · rw [Term.levels, hxl, hyl, depth]
        omega
    refine ⟨⟨.term _, hterm, nofun⟩, fun _ => ⟨_, hterm⟩, ?_⟩
    intro h
    cases h

theorem exists_arguments (earlier : Arguments) {es : List Expression} (h : ∀ e ∈ es, e.Written)
    {k : Nat} (hearlier : earlier.levels = k + 1) (hfits : earlier.Fits) :
    ∃ d : Arguments, d.text = earlier.text ++ moreChars es ∧ d.trees = earlier.trees ++ es ∧
      d.levels = max k (depthAll es) + 1 ∧ d.Fits := by
  induction es generalizing earlier k with
  | nil => exact ⟨earlier, by simp [moreChars], by simp, by simp [depthAll, hearlier], hfits⟩
  | cons e es ih =>
    obtain ⟨x, ⟨hxs, hxe, hxl, hxf⟩, _⟩ := (h e (by simp)).sum
    -- the list grows at its end, as the grammar has it
    have hnext : (Arguments.snoc earlier (.mk .space x .none)).levels = max k e.depth + 1 := by
      rw [Arguments.levels, Spaced.levels, hearlier, hxl]
      omega
    obtain ⟨d, hs, ht, hl, hf⟩ :=
      ih _ (fun f hf => h f (List.mem_cons_of_mem e hf)) hnext ⟨hfits, hxf⟩
    refine ⟨d, ?_, ?_, ?_, hf⟩
    · rw [hs, Arguments.text, Spaced.text, hxs]
      simp [moreChars, Blanks.space, Blanks.none]
    · rw [ht, Arguments.trees, Spaced.tree, hxe]
      simp
    · rw [hl, depthAll]
      omega

theorem written_call {name : String} {es : List Expression} (h : IsName name)
    (hes : ∀ e ∈ es, e.Written) : (call name es).Written := by
  obtain ⟨word, hchars, rfl⟩ := IsName.exists_word h
  cases es with
  | nil =>
    refine .of_primary (p := .emptyCall word .none .none) ⟨?_, rfl, rfl, trivial⟩
      (by rintro _ ⟨⟩)
    rw [Primary.text, hchars]
    simp [Blanks.none, chars, charsAll, List.intercalate]
  | cons e es =>
    obtain ⟨x, ⟨hxs, hxe, hxl, hxf⟩, _⟩ := (hes e (by simp)).sum
    obtain ⟨d, hs, ht, hl, hf⟩ := exists_arguments (.one (.mk .none x .none))
      (fun f hf => hes f (List.mem_cons_of_mem e hf)) hxl hxf
    refine .of_primary (p := .call word .none d) ⟨?_, ?_, ?_, hf⟩ (by rintro _ ⟨⟩)
    · rw [Primary.text, hchars, hs, chars, intercalate_charsAll, Arguments.text, Spaced.text, hxs]
      simp [Blanks.none]
    · rw [Primary.tree, ht, Arguments.trees, Spaced.tree, hxe]
      rfl
    · rw [Primary.levels, hl, depth]

/-- **The text of a canonical expression is derived**, as a term or a primary where no operator
forbids it. -/
theorem Canonical.written (h : e.Canonical) (hvalid : e.Valid) : e.Written := by
  induction h with
  | number hwidth =>
    cases hvalid with
    | number hvalue => exact written_number hvalue hwidth
  | reference hname => exact written_reference hname
  | binary ho _ _ ihl ihr =>
    cases hvalid with
    | binary hl hr => exact written_binary ho (ihl hl) (ihr hr)
  | call hname _ ih =>
    cases hvalid with
    | call _ hvalid => exact written_call hname fun e he => ih e he (hvalid e he)

end Expression

end Asm65816
