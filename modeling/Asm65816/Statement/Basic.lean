import Asm65816.Expression.Basic
import Asm65816.Statement.Mode

/-!
# Statements

The trees of which a program is a sequence. What is read from a text is an instruction or an
assignment; label declarations and conditional blocks complete the tree for those who build it by
other means.
-/

namespace Asm65816

/-- What an instruction works on: a mode, and the expressions that its written form holds. -/
structure Operand where
  /-- The addressing mode. -/
  mode : Mode
  /-- The expression of the operand; of a block move, the first address. -/
  value : Expression
  /-- The second address of a block move. -/
  second : Option Expression
deriving DecidableEq, Repr

/-- An instruction of the processor. -/
structure Instruction where
  /-- The mnemonic as it is written. -/
  mnemonic : String
  /-- The size that is written behind the mnemonic. -/
  size : Option Size
  /-- The operand. -/
  operand : Operand
deriving DecidableEq, Repr

namespace Operand

/-- An operand that may be part of a tree. A second address belongs to block moves, and to them
alone. -/
def Valid (o : Operand) : Prop :=
  o.value.Valid ∧ (∀ e, o.second = some e → e.Valid) ∧ (o.mode = .move ↔ o.second.isSome)

end Operand

namespace Instruction

/-- An instruction that may be part of a tree. -/
def Valid (i : Instruction) : Prop := i.mnemonic ≠ "" ∧ i.operand.Valid

/-- The instruction with the given parts, the size in bytes. The mnemonic is looked at first, then
the size, then the operand. -/
def ofParts (mnemonic : String) (bytes : Option Int) (operand : Operand) :
    Except Invalid Instruction := do
  if mnemonic = "" then throw .emptyMnemonic
  let size ← bytes.mapM fun n => (Size.ofBytes? n).elim (throw (.sizeOutOfRange n)) pure
  if (operand.mode = .move) ≠ operand.second.isSome then throw .secondOperand
  return { mnemonic, size, operand }

end Instruction

mutual

/-- A unit that stands by itself in a program. -/
inductive Statement where
  /-- The declaration of a label. -/
  | label (label : Label)
  /-- An instruction. -/
  | instruction (instruction : Instruction)
  /-- Alternative blocks, of which the first whose condition holds counts. -/
  | branches (conditions : List Condition)
  /-- A name given to the value of an expression. -/
  | assignment (name : String) (value : Expression)
deriving Repr

/-- A block of statements and the predicate it depends on, which a last block may lack. -/
inductive Condition where
  | block (predicate : Option Expression) (statements : List Statement)
deriving Repr

end

mutual

/-- A statement that may be part of a tree. -/
inductive Statement.Valid : Statement → Prop where
  | label {label : Label} : label.Valid → Statement.Valid (.label label)
  | instruction {instruction : Instruction} :
      instruction.Valid → Statement.Valid (.instruction instruction)
  | branches {conditions : List Condition} :
      (∀ c ∈ conditions, Condition.Valid c) → Statement.Valid (.branches conditions)
  | assignment {name : String} {value : Expression} :
      name ≠ "" → value.Valid → Statement.Valid (.assignment name value)

/-- A conditional block that may be part of a tree. -/
inductive Condition.Valid : Condition → Prop where
  | block {predicate : Option Expression} {statements : List Statement} :
      (∀ e, predicate = some e → e.Valid) → (∀ s ∈ statements, Statement.Valid s) →
      Condition.Valid (.block predicate statements)

end

/-! ## Equality -/

mutual

/-- Whether two statements are the same tree. -/
def Statement.same : Statement → Statement → Bool
  | .label l, .label l' => l == l'
  | .instruction i, .instruction i' => i == i'
  | .branches cs, .branches cs' => Condition.sameAll cs cs'
  | .assignment n v, .assignment n' v' => n == n' && v == v'
  | _, _ => false

/-- Whether two lists of statements are the same, tree by tree. -/
def Statement.sameAll : List Statement → List Statement → Bool
  | [], [] => true
  | s :: ss, t :: ts => Statement.same s t && Statement.sameAll ss ts
  | _, _ => false

/-- Whether two conditional blocks are the same tree. -/
def Condition.same : Condition → Condition → Bool
  | .block p ss, .block p' ss' => p == p' && Statement.sameAll ss ss'

/-- Whether two lists of conditional blocks are the same, tree by tree. -/
def Condition.sameAll : List Condition → List Condition → Bool
  | [], [] => true
  | c :: cs, d :: ds => Condition.same c d && Condition.sameAll cs ds
  | _, _ => false

end

mutual

theorem Statement.same_iff : ∀ (a b : Statement), a.same b = true ↔ a = b
  | .label _, b => by cases b <;> simp [Statement.same]
  | .instruction _, b => by cases b <;> simp [Statement.same]
  | .branches cs, b => by cases b <;> simp [Statement.same, Condition.sameAll_iff cs]
  | .assignment _ _, b => by cases b <;> simp [Statement.same]

theorem Statement.sameAll_iff : ∀ (as bs : List Statement), Statement.sameAll as bs = true ↔ as = bs
  | [], bs => by cases bs <;> simp [Statement.sameAll]
  | a :: as, bs => by
    cases bs <;> simp [Statement.sameAll, Statement.same_iff a, Statement.sameAll_iff as]

theorem Condition.same_iff : ∀ (a b : Condition), a.same b = true ↔ a = b
  | .block _ ss, .block _ _ => by simp [Condition.same, Statement.sameAll_iff ss]

theorem Condition.sameAll_iff : ∀ (as bs : List Condition), Condition.sameAll as bs = true ↔ as = bs
  | [], bs => by cases bs <;> simp [Condition.sameAll]
  | a :: as, bs => by
    cases bs <;> simp [Condition.sameAll, Condition.same_iff a, Condition.sameAll_iff as]

end

instance : DecidableEq Statement := fun a b => decidable_of_iff _ (Statement.same_iff a b)

instance : DecidableEq Condition := fun a b => decidable_of_iff _ (Condition.same_iff a b)

end Asm65816
