import Asm65816.Statement.Printer

/-!
# Nodes

Any part of a tree that can be looked at by itself. Nodes of different kinds are never equal.
-/

namespace Asm65816

/-- A part of a tree. -/
inductive Node where
  /-- The name of a variable or a function. -/
  | name (name : String)
  /-- A reference to a place in a program. -/
  | label (label : Label)
  /-- An expression. -/
  | expression (expression : Expression)
  /-- A statement. -/
  | statement (statement : Statement)
  /-- A block of statements under a condition. -/
  | condition (condition : Condition)
deriving DecidableEq, Repr

namespace Node

/-- The text of a node, if it has one. -/
def render? : Node → Option String
  | name n => some n
  | label l => some (String.ofList l.chars)
  | expression e => some e.render
  | statement s => s.render?
  | condition _ => none

end Node

end Asm65816
