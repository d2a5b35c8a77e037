import Asm65816.Label
import Asm65816.Operator

/-!
# Expressions

The tree of an arithmetic expression. A binary operator has exactly two operands, so a chain such as
`1 + 2 + 3` nests to the left. Parentheses leave no trace in the tree.

A literal keeps the width that its digits suggest: some instructions share one code for a one byte
and a two byte operand, and the width of the literal is then what tells them apart.
-/

namespace Asm65816

/-- The number of bytes that a literal suggests by the way it is written. -/
inductive LiteralWidth where
  | none
  | oneByte
  | twoBytes
deriving DecidableEq, Repr

namespace LiteralWidth

/-- The widths in order of declaration. -/
def all : List LiteralWidth := [none, oneByte, twoBytes]

/-- The width of a hexadecimal literal with so many digits. -/
def ofHexDigits : Nat → LiteralWidth
  | 2 => oneByte
  | 4 => twoBytes
  | _ => none

end LiteralWidth

/-- The greatest value of a literal. -/
def maxNumber : Nat := 0xffffffff

/-- An arithmetic expression. -/
inductive Expression where
  /-- A literal. -/
  | number (value : Nat) (width : LiteralWidth)
  /-- The value of a label. -/
  | reference (label : Label)
  /-- Two operands joined by an operator. -/
  | binary (operator : Operator) (left right : Expression)
  /-- A function applied to arguments. -/
  | call (name : String) (arguments : List Expression)
deriving Repr

namespace Expression

/-- The literal of a value, unless the value has a sign or more than 32 bits. -/
def ofNumber (value : Int) (width : LiteralWidth) : Except Invalid Expression :=
  if 0 ≤ value ∧ value ≤ maxNumber then .ok (.number value.toNat width)
  else .error (.numberOutOfRange value)

/-- An expression that may be part of a tree: its names are not empty and its numbers fit. -/
inductive Valid : Expression → Prop where
  | number {value : Nat} {width : LiteralWidth} : value ≤ maxNumber → Valid (.number value width)
  | reference {label : Label} : label.Valid → Valid (.reference label)
  | binary {operator : Operator} {left right : Expression} :
      Valid left → Valid right → Valid (.binary operator left right)
  | call {name : String} {arguments : List Expression} :
      name ≠ "" → (∀ argument ∈ arguments, Valid argument) → Valid (.call name arguments)

theorem ofNumber_eq_ok_iff {value : Int} {width : LiteralWidth} {e : Expression} :
    ofNumber value width = .ok e ↔ ∃ n : Nat, n = value ∧ e = .number n width ∧ e.Valid := by
  unfold ofNumber
  split
  · rename_i h
    constructor
    · intro h'
      cases h'
      exact ⟨value.toNat, by omega, rfl, .number (by omega)⟩
    · rintro ⟨n, rfl, rfl, _⟩
      rfl
  · rename_i h
    constructor
    · intro h'
      cases h'
    · rintro ⟨n, rfl, rfl, h'⟩
      cases h' with
      | number hn => omega

/-! ## Equality -/

mutual

/-- Whether two expressions are the same tree. -/
def same : Expression → Expression → Bool
  | number v w, number v' w' => v == v' && w == w'
  | reference l, reference l' => l == l'
  | binary o l r, binary o' l' r' => o == o' && same l l' && same r r'
  | call n as, call n' as' => n == n' && sameAll as as'
  | _, _ => false

/-- Whether two lists of expressions are the same, tree by tree. -/
def sameAll : List Expression → List Expression → Bool
  | [], [] => true
  | a :: as, b :: bs => same a b && sameAll as bs
  | _, _ => false

end

mutual

theorem same_iff : ∀ (a b : Expression), same a b = true ↔ a = b
  | number _ _, b => by cases b <;> simp [same]
  | reference _, b => by cases b <;> simp [same]
  | binary _ l r, b => by cases b <;> simp [same, same_iff l, same_iff r, and_assoc]
  | call _ as, b => by cases b <;> simp [same, sameAll_iff as]

theorem sameAll_iff : ∀ (as bs : List Expression), sameAll as bs = true ↔ as = bs
  | [], bs => by cases bs <;> simp [sameAll]
  | a :: as, bs => by cases bs <;> simp [sameAll, same_iff a, sameAll_iff as]

end

instance : DecidableEq Expression := fun a b => decidable_of_iff _ (same_iff a b)

end Expression

end Asm65816
