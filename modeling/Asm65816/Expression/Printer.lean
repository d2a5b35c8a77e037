import Asm65816.Expression.Basic

/-!
# The text of an expression

An operand is put in parentheses exactly where it would otherwise be read as part of something else.
As chains nest to the left, an operand on the left needs them when its operator binds looser, and
one on the right also when its operator binds equally tight.

A literal is written so that reading it suggests the same width: with two or four hexadecimal digits
at least, or in decimal.
-/

namespace Asm65816.Expression

/-- The text of a literal. -/
def numberChars (value : Nat) : LiteralWidth → List Char
  | .none => Radix.decimal.write 0 value
  | .oneByte => '$' :: Radix.hexadecimal.write 2 value
  | .twoBytes => '$' :: Radix.hexadecimal.write 4 value

/-- Whether an expression is two operands joined by an operator whose precedence passes a test. -/
def joinedBy (p : Nat → Bool) : Expression → Bool
  | binary operator _ _ => p operator.precedence
  | _ => false

/-- A text, in parentheses if they are needed. -/
def parenthesized (needed : Bool) (s : List Char) : List Char :=
  if needed then '(' :: s ++ [')'] else s

mutual

/-- The text of an expression. -/
def chars : Expression → List Char
  | number value width => numberChars value width
  | reference label => label.chars
  | binary operator left right =>
    parenthesized (left.joinedBy (· < operator.precedence)) left.chars ++
      ' ' :: operator.symbol.toList ++
      ' ' :: parenthesized (right.joinedBy (· ≤ operator.precedence)) right.chars
  | call name arguments =>
    name.toList ++ '(' :: List.intercalate [',', ' '] (charsAll arguments) ++ [')']

/-- The texts of a list of expressions. -/
def charsAll : List Expression → List (List Char)
  | [] => []
  | e :: es => e.chars :: charsAll es

end

/-- The text of an expression. -/
def render (e : Expression) : String := String.ofList e.chars

example : (binary .mul (binary .add (number 1 .none) (number 2 .none)) (number 255 .oneByte)).render
    = "(1 + 2) * $FF" := by
  decide +kernel

end Asm65816.Expression
