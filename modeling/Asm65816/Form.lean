import Asm65816.Statement.Mode

/-!
# Written forms

Where the grammar leaves a choice, it lists the forms that a text may have. They are tried in the
order of the list and the first that matches is taken, so the order is part of the grammar: the
operand `($19),y` also begins like `($19)`, and `$7E,$7F` like `$7E`.
-/

namespace Asm65816

/-- The forms of an expression without an operator outside of parentheses. -/
inductive PrimaryForm where
  /-- An expression in parentheses. -/
  | group
  /-- A decimal literal. -/
  | decimal
  /-- A hexadecimal literal. -/
  | hexadecimal
  /-- A name, or a function applied to arguments. -/
  | name
deriving DecidableEq, Repr

/-- The forms of an operand. Registers are written in either case. -/
inductive OperandForm where
  /-- The form `(e),y`. -/
  | indirectY
  /-- The form `(e)`, where no operator follows. -/
  | indirect
  /-- The form `(e,x)`. -/
  | xIndirect
  /-- The form `e,e`. -/
  | move
  /-- The form `e`. -/
  | address
  /-- The form `#e`. -/
  | immediate
  /-- The form `[e],y`. -/
  | longIndirectY
  /-- The form `[e]`. -/
  | longIndirect
  /-- The form `(e,s),y`. -/
  | stackIndirectY
deriving DecidableEq, Repr

/-- The forms of a statement. -/
inductive StatementForm where
  /-- An instruction. -/
  | instruction
deriving DecidableEq, Repr

namespace PrimaryForm

/-- The forms in the order in which they are tried. -/
def all : List PrimaryForm := [group, decimal, hexadecimal, name]

theorem mem_all (f : PrimaryForm) : f ∈ all := by cases f <;> decide

end PrimaryForm

namespace OperandForm

/-- The forms in the order in which they are tried. -/
def all : List OperandForm :=
  [indirectY, indirect, xIndirect, move, address, immediate, longIndirectY, longIndirect,
    stackIndirectY]

theorem mem_all (f : OperandForm) : f ∈ all := by cases f <;> decide

/-- The addressing mode that a form stands for. -/
def mode : OperandForm → Mode
  | indirectY => .indirectY
  | indirect => .indirect
  | xIndirect => .xIndirect
  | move => .move
  | address => .address
  | immediate => .immediate
  | longIndirectY => .longIndirectY
  | longIndirect => .longIndirect
  | stackIndirectY => .stackIndirectY

/-- Different forms stand for different modes. -/
theorem mode_injective {f g : OperandForm} (h : f.mode = g.mode) : f = g := by
  revert h
  cases f <;> cases g <;> decide

end OperandForm

namespace StatementForm

/-- The forms in the order in which they are tried. -/
def all : List StatementForm := [instruction]

end StatementForm

/-- A form that the grammar may choose. -/
inductive Form where
  | primary (form : PrimaryForm)
  | operand (form : OperandForm)
  | statement (form : StatementForm)
deriving DecidableEq, Repr

end Asm65816
