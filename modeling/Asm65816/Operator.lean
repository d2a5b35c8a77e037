import Asm65816.Invalid

/-!
# Binary operators

Only the first four operators can be written in an expression; the others occur in trees that are
built by other means. An operator of higher precedence binds tighter.
-/

namespace Asm65816

/-- An operator between two expressions. -/
inductive Operator where
  | add
  | sub
  | mul
  | div
  | shl
  | shr
  | xor
  | and
  | or
deriving DecidableEq, Repr

namespace Operator

/-- The operators in order of declaration. -/
def all : List Operator := [add, sub, mul, div, shl, shr, xor, and, or]

/-- The sign of an operator. -/
def symbol : Operator → String
  | add => "+"
  | sub => "-"
  | mul => "*"
  | div => "/"
  | shl => "<<"
  | shr => ">>"
  | xor => "^"
  | and => "&"
  | or => "|"

/-- How tight an operator binds. -/
def precedence : Operator → Nat
  | mul | div => 3
  | add | sub => 2
  | shl | shr => 1
  | and | xor | or => 0

/-- The operator with a given sign. -/
def ofSymbol? (symbol : String) : Option Operator := all.find? (·.symbol == symbol)

/-- The operator with a given sign, or the reason why there is none. -/
def ofSymbol (symbol : String) : Except Invalid Operator :=
  match ofSymbol? symbol with
  | some operator => .ok operator
  | none => .error (.unknownOperator symbol)

/-- The operator that adds or subtracts, by its sign. -/
def additive? : Char → Option Operator
  | '+' => some add
  | '-' => some sub
  | _ => none

/-- The operator that multiplies or divides, by its sign. -/
def multiplicative? : Char → Option Operator
  | '*' => some mul
  | '/' => some div
  | _ => none

end Operator

end Asm65816
