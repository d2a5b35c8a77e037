import Asm65816.Rule.Expression
import Asm65816.Statement.Basic

/-!
# The grammar of operands

Each addressing mode has one written form. The forms share beginnings, and each is tried on its own
from where the operand begins; their order decides what an operand means that has several of them.

The form `(e)` refuses an operator behind it, so that `($19)+2` is read as the expression that it
looks like. The form `e,e` comes before `e`, so that the second address of a block move is not left
over.
-/

namespace Asm65816.Rule

/-- The operators that may not stand behind an operand in parentheses. -/
def operatorSigns : List Char := ['+', '-', '*', '/']

/-- Reads the register Y behind a comma. -/
def commaY : Rule Unit := do
  let _ ← expect [','] "','"
  let _ ← expect ['y', 'Y'] "index register Y"

/-- Reads an expression behind an opening parenthesis that belongs to the mode. -/
def openParenthesis (inner : Rule Expression) : Rule Expression := do
  let _ ← expect ['('] "'('"
  inner

/-- Reads the closing parenthesis that belongs to the mode. -/
def closeParenthesis : Rule Unit := do
  let _ ← expect [')'] "')'"

/-- Fails before an operator. -/
def noOperator : Rule Unit := do
  match ← peek with
  | some c => if c ∈ operatorSigns then fail fun _ => .operatorAfterIndirect c
  | none => return ()

/-- Reads an expression in brackets. -/
def brackets (inner : Rule Expression) : Rule Expression := do
  let _ ← expect ['['] "'['"
  let value ← inner
  let _ ← expect [']'] "']'"
  return value

/-- The expressions of an operand in a certain form: its value, and the second address that a block
move has. -/
def operandExpressions (inner : Rule Expression) :
    OperandForm → Rule (Expression × Option Expression)
  | .indirectY => do
    let value ← openParenthesis inner
    closeParenthesis
    commaY
    return (value, none)
  | .indirect => do
    let value ← openParenthesis inner
    closeParenthesis
    noOperator
    return (value, none)
  | .xIndirect => do
    let value ← openParenthesis inner
    let _ ← expect [','] "','"
    let _ ← expect ['x', 'X'] "index register X"
    closeParenthesis
    return (value, none)
  | .move => do
    let value ← inner
    let _ ← expect [','] "','"
    let second ← inner
    return (value, some second)
  | .address => do
    let value ← inner
    return (value, none)
  | .immediate => do
    let _ ← expect ['#'] "'#'"
    let value ← inner
    return (value, none)
  | .longIndirectY => do
    let value ← brackets inner
    commaY
    return (value, none)
  | .longIndirect => do
    let value ← brackets inner
    return (value, none)
  | .stackIndirectY => do
    let value ← openParenthesis inner
    let _ ← expect [','] "','"
    let _ ← expect ['s', 'S'] "stack register S"
    closeParenthesis
    commaY
    return (value, none)

/-- The rule for a form of an operand. -/
def operandForm (inner : Rule Expression) (form : OperandForm) : Rule Operand := do
  let (value, second) ← operandExpressions inner form
  return { mode := form.mode, value, second }

/-- A form of an operand as a branch of a choice. -/
def operandBranch (inner : Rule Expression) (form : OperandForm) : Branch Operand where
  form := .operand form
  rule := operandForm inner form

/-- An operand, in the first of the nine forms that the text has. -/
def operand (inner : Rule Expression) : Rule Operand :=
  firstOf (OperandForm.all.map (operandBranch inner)) (by simp [OperandForm.all])

end Asm65816.Rule
