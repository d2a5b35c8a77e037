/-!
# Addressing modes

How an instruction finds what it works on, and the bytes it works on. Two modes have no written
operand of their own: which instructions have them is known from the mnemonic alone.
-/

namespace Asm65816

/-- The addressing mode of an instruction. -/
inductive Mode where
  | implied
  | immediate
  | address
  | indirect
  | xIndirect
  | indirectY
  | stackIndirectY
  | longIndirect
  | longIndirectY
  | move
  | accumulator
deriving DecidableEq, Repr

namespace Mode

/-- The modes in order of declaration. -/
def all : List Mode :=
  [implied, immediate, address, indirect, xIndirect, indirectY, stackIndirectY, longIndirect,
    longIndirectY, move, accumulator]

/-- The name of a mode in messages. -/
def name : Mode → String
  | implied => "IMPLIED"
  | immediate => "IMMEDIATE"
  | address => "ADDRESS"
  | indirect => "INDIRECT"
  | xIndirect => "X_INDIRECT"
  | indirectY => "INDIRECT_Y"
  | stackIndirectY => "STACK_INDIRECT_Y"
  | longIndirect => "LONG_INDIRECT"
  | longIndirectY => "LONG_INDIRECT_Y"
  | move => "MOVE"
  | accumulator => "ACCUMULATOR"

end Mode

/-- The bytes an instruction works on, where the source says so. -/
inductive Size where
  | byte
  | word
  | long
deriving DecidableEq, Repr

namespace Size

/-- The number of bytes. -/
def bytes : Size → Nat
  | byte => 1
  | word => 2
  | long => 3

/-- The letter of a size. -/
def letter : Size → Char
  | byte => 'b'
  | word => 'w'
  | long => 'l'

/-- The size that a letter stands for, in either case. -/
def ofLetter? : Char → Option Size
  | 'b' | 'B' => some byte
  | 'w' | 'W' => some word
  | 'l' | 'L' => some long
  | _ => none

/-- The size of a number of bytes. -/
def ofBytes? : Int → Option Size
  | 1 => some byte
  | 2 => some word
  | 3 => some long
  | _ => none

@[simp] theorem ofLetter?_letter (s : Size) : ofLetter? s.letter = some s := by cases s <;> rfl

end Size

end Asm65816
