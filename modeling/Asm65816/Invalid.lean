import Asm65816.Text.Quoted

/-!
# Why a tree is refused

A tree that does not come out of a text is built from its parts, and the parts are checked on the
way. These are the reasons for which they are refused.
-/

namespace Asm65816

/-- Why a part of a tree is refused. -/
inductive Invalid where
  /-- A variable or a function needs a name. -/
  | emptyName
  /-- A relative label counts at most as far as a signed word of 32 bits. -/
  | depthOutOfRange (depth : Int)
  /-- A number has at most 32 bits and no sign. -/
  | numberOutOfRange (value : Int)
  /-- An instruction needs a mnemonic. -/
  | emptyMnemonic
  /-- An instruction works on one, two or three bytes. -/
  | sizeOutOfRange (bytes : Int)
  /-- Only a block move has a second address, and it has one always. -/
  | secondOperand
  /-- There is no operator with that sign. -/
  | unknownOperator (symbol : String)
deriving DecidableEq, Repr

/-- The text that explains a refusal. -/
def Invalid.message : Invalid → String
  | emptyName => "variable name cannot be empty"
  | depthOutOfRange depth => "relative label depth " ++ toString depth ++ " does not fit in 32 bits"
  | numberOutOfRange value => "number " ++ toString value ++ " does not fit in 32 bits unsigned"
  | emptyMnemonic => "opcode name cannot be empty"
  | sizeOutOfRange bytes => "opcode width must be 1, 2 or 3, got " ++ toString bytes
  | secondOperand => "a second operand is required for MOVE and only for MOVE"
  | unknownOperator symbol => Text.quoted symbol ++ " is not a valid BinaryOperator"

/-- A name of a variable or a function, which must not be empty. -/
def checkName (name : String) : Except Invalid String :=
  if name = "" then .error .emptyName else .ok name

theorem checkName_eq_ok_iff {name checked : String} :
    checkName name = .ok checked ↔ checked = name ∧ name ≠ "" := by
  unfold checkName
  split
  · simp_all
  · simp_all [eq_comm]

end Asm65816
