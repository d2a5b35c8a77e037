import Asm65816.Expression.Printer
import Asm65816.Proofs.Expression.Numeral

/-!
# Canonical expressions

A tree may hold more than a text can say: operators without a sign in the grammar, labels without a
name, names that are no words, literals too great for the width that they suggest. A tree without
any of these is **canonical**.

How deep the text of a tree nests can be told in two ways, by its parentheses and by the tree. For a
canonical tree both are the same.
-/

namespace Asm65816

/-- A string that is a name as a whole. -/
def IsName (name : String) : Prop := ∃ word : Word, word.name = name

/-- A value that is written with no more digits than a width asks for. -/
def LiteralWidth.Holds : LiteralWidth → Nat → Prop
  | none, _ => True
  | oneByte, value => value ≤ 0xff
  | twoBytes, value => value ≤ 0xffff

/-- An operator with a sign in the grammar. -/
def Operator.IsWritten (o : Operator) : Prop := (o = .add ∨ o = .sub) ∨ (o = .mul ∨ o = .div)

namespace Expression

/-- An expression that a text can say. -/
inductive Canonical : Expression → Prop where
  | number {value : Nat} {width : LiteralWidth} :
      width.Holds value → Canonical (.number value width)
  | reference {name : String} : IsName name → Canonical (.reference (.named name))
  | binary {operator : Operator} {left right : Expression} :
      operator.IsWritten → Canonical left → Canonical right →
      Canonical (.binary operator left right)
  | call {name : String} {arguments : List Expression} :
      IsName name → (∀ argument ∈ arguments, Canonical argument) →
      Canonical (.call name arguments)

/-! ## Nesting of the text -/

/-- The greatest number of parentheses that are open at one place of a text, where some are open in
front of it. An empty pair does not count. -/
def parenDepth : Nat → List Char → Nat
  | depth, [] => depth
  | depth, '(' :: ')' :: s => parenDepth depth s
  | depth, '(' :: s => parenDepth (depth + 1) s
  | depth, ')' :: s => max depth (parenDepth (depth - 1) s)
  | depth, _ :: s => parenDepth depth s

/-- The nesting of the text of an expression, where a text without parentheses has the nesting
one. -/
def nest (e : Expression) : Nat := 1 + parenDepth 0 e.chars

example : (call "f" [call "g" [], binary .sub (number 1 .none) (binary .add (number 2 .none)
    (number 3 .none))]).nest = 3 := by decide +kernel

/-! ## Nesting of the tree -/

mutual

/-- The greatest number of parentheses around a part of an expression when it is written. -/
def depth : Expression → Nat
  | number _ _ | reference _ => 0
  | binary operator left right =>
    max (left.depth + (left.joinedBy (· < operator.precedence)).toNat)
      (right.depth + (right.joinedBy (· ≤ operator.precedence)).toNat)
  | call _ [] => 0
  | call _ (e :: es) => max e.depth (depthAll es) + 1

/-- The greatest depth in a list of expressions. -/
def depthAll : List Expression → Nat
  | [] => 0
  | e :: es => max e.depth (depthAll es)

end

theorem joinedBy_mono {p q : Nat → Bool} (hpq : ∀ n, p n = true → q n = true) {e : Expression}
    (h : e.joinedBy p = true) : e.joinedBy q = true := by
  cases e with
  | binary operator _ _ => exact hpq _ h
  | number _ _ | reference _ | call _ _ => cases h

theorem joinedBy_eq_false {p q : Nat → Bool} (hpq : ∀ n, p n = true → q n = true) {e : Expression}
    (h : e.joinedBy q = false) : e.joinedBy p = false := by
  rw [Bool.eq_false_iff] at h ⊢
  exact fun hp => h (joinedBy_mono hpq hp)

/-- Every expression with an operator outside of parentheses is an operand that needs them behind
`*` and `/`. -/
theorem joinedBy_le_three (e : Expression) :
    e.joinedBy (fun n => decide (n ≤ 3)) = e.joinedBy fun _ => true := by
  cases e with
  | binary operator _ _ => cases operator <;> rfl
  | number _ _ | reference _ | call _ _ => rfl

/-! ## The text of a list of arguments -/

/-- The arguments behind the first one, each behind a comma and a space. -/
def moreChars (es : List Expression) : List Char := es.flatMap fun e => ',' :: ' ' :: e.chars

theorem intercalate_charsAll (e : Expression) (es : List Expression) :
    List.intercalate [',', ' '] (charsAll (e :: es)) = e.chars ++ moreChars es := by
  induction es generalizing e with
  | nil => simp [charsAll, moreChars, List.intercalate]
  | cons f es ih =>
    have h := ih f
    rw [charsAll] at h
    rw [charsAll, charsAll, List.intercalate_cons_cons, h]
    simp [moreChars]

end Expression

end Asm65816
