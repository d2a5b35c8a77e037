import Asm65816.Expression.Printer
import Asm65816.Statement.Basic

/-!
# The text of a statement

Each addressing mode has its own written form, which holds the operand's expressions in place.
Registers are written in lower case and there are no blanks inside the form. Conditional blocks have
no text.
-/

namespace Asm65816

/-- The text of an operand. Where the mode is known from the mnemonic alone it may be empty. -/
def Operand.chars (o : Operand) : List Char :=
  match o.mode with
  | .implied => []
  | .immediate => '#' :: o.value.chars
  | .address => o.value.chars
  | .indirect => '(' :: o.value.chars ++ [')']
  | .xIndirect => '(' :: o.value.chars ++ [',', 'x', ')']
  | .indirectY => '(' :: o.value.chars ++ [')', ',', 'y']
  | .stackIndirectY => '(' :: o.value.chars ++ [',', 's', ')', ',', 'y']
  | .longIndirect => '[' :: o.value.chars ++ [']']
  | .longIndirectY => '[' :: o.value.chars ++ [']', ',', 'y']
  | .move => o.value.chars ++ ',' :: o.second.elim [] Expression.chars
  | .accumulator => ['A']

namespace Instruction

/-- The text of a size behind a mnemonic. -/
def sizeChars : Option Size → List Char
  | none => []
  | some size => ['.', size.letter]

/-- The text of an instruction. -/
def chars (i : Instruction) : List Char :=
  i.mnemonic.toList ++ sizeChars i.size ++
    if i.operand.chars = [] then [] else ' ' :: i.operand.chars

end Instruction

namespace Statement

/-- The text of a statement, if it has one. -/
def chars? : Statement → Option (List Char)
  | label l => some (l.chars ++ [':'])
  | instruction i => some i.chars
  | branches _ => none
  | assignment name value => some (name.toList ++ [' ', '=', ' '] ++ value.chars)

/-- The text of a statement, if it has one. -/
def render? (s : Statement) : Option String := s.chars?.map String.ofList

end Statement

end Asm65816
