import Asm65816.Reading

/-!
# What a text can be read as

There are eight ways to read a text, two of which take it as a whole. Each of them is a rule, which
may depend on the limit on nesting.
-/

namespace Asm65816

/-- What a text can be read as, with the type of what comes of it. -/
inductive Entry : Type → Type where
  /-- A name in front of a text. -/
  | identifier : Entry String
  /-- A name in front of a text, as a reference to a label. -/
  | label : Entry Label
  /-- An expression in front of a text. -/
  | expression : Entry Expression
  /-- An assignment in front of a text. -/
  | assignment : Entry Statement
  /-- An instruction in front of a text. -/
  | instruction : Entry Instruction
  /-- A statement in front of a text. -/
  | statement : Entry Statement
  /-- An expression that is the whole text. -/
  | wholeExpression : Entry Expression
  /-- A statement that is the whole text. -/
  | wholeStatement : Entry Statement

namespace Entry

variable {α : Type} (limit : NestingLimit)

/-- The rule by which a text is read. -/
def rule : Entry α → Rule α
  | identifier => Rule.identifier
  | label => Rule.label
  | expression => limit.expression
  | assignment => Rule.assignment limit.expression
  | instruction => Rule.instruction limit.expression
  | statement => Rule.statement limit.expression
  | wholeExpression => limit.expression.whole
  | wholeStatement => (Rule.statement limit.expression).whole

/-- Reads a text. -/
def read (entry : Entry α) (text : String) : Reading α := (entry.rule limit).read text

end Entry

end Asm65816
