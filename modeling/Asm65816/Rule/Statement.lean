import Asm65816.Rule.Operand

/-!
# The grammar of statements

An instruction is a mnemonic, perhaps the letter of a size behind a point, and an operand. Nothing
is known here of the mnemonics that the processor has, so any name will do.

An instruction is the only statement that is read where a statement may stand. An assignment is read
by a rule of its own.
-/

namespace Asm65816.Rule

/-- The size behind a mnemonic. A point without the letter of a size behind it is left over. -/
def size? : Rule (Option Size) := backIfNone do
  match ← token? (oneOf ['.']) with
  | some _ => token? Size.ofLetter?
  | none => return none

/-- An instruction of the processor. -/
def instruction (inner : Rule Expression) : Rule Instruction := do
  blanks
  let mnemonic ← identifier
  let size ← size?
  let operand ← operand inner
  record (.addressed mnemonic operand.mode)
  return { mnemonic, size, operand }

/-- A name given to the value of an expression. -/
def assignment (inner : Rule Expression) : Rule Statement := do
  blanks
  let name ← identifier
  let _ ← expect ['='] "'='"
  let value ← inner
  return .assignment name value

/-- The rule for a form of a statement. -/
def statementForm (inner : Rule Expression) : StatementForm → Rule Statement
  | .instruction => do
    return .instruction (← instruction inner)

/-- A form of a statement as a branch of a choice. -/
def statementBranch (inner : Rule Expression) (form : StatementForm) : Branch Statement where
  form := .statement form
  rule := statementForm inner form

/-- A statement. -/
def statement (inner : Rule Expression) : Rule Statement := do
  blanks
  firstOf (StatementForm.all.map (statementBranch inner)) (by simp [StatementForm.all])

end Asm65816.Rule
