import Asm65816.NestingLimit
import Asm65816.Rule.Statement

/-!
# Reading a text

A rule reads from the front of a text and leaves the rest over. It is for the caller to say what the
rest means: the next statement of a program, a comment, or an error. Two readings decide that there
must be no rest at all.

The positions in a report count the characters from the beginning of the text that was given.
-/

namespace Asm65816

/-- What comes of reading a text. -/
structure Reading (α : Type) where
  /-- The value that was read, or a report of the failure. -/
  result : Except Report α
  /-- The text that is left over. -/
  rest : String
  /-- What was recorded on the way. -/
  trace : List Event

/-- The report of a failure in a text. -/
def Failure.report (f : Failure) (source : String) : Report where
  diagnosis := f.fault.diagnosis
  position := some (source.length - f.rest.length)
  source := some source

namespace Rule

variable {α : Type}

/-- Applies a rule to a text. -/
def read (r : Rule α) (text : String) : Reading α :=
  let o := r.run text.toList
  { result := o.result.mapError (·.report text)
    rest := String.ofList o.rest
    trace := o.trace }

/-- A rule that must read the whole text. -/
def whole (r : Rule α) : Rule α := do
  let a ← r
  endOfText
  return a

/-- Applies a rule to a text, then to what is left over, and so on. Ends with a failure, when
nothing is left over, or after a number of readings. -/
def stream (r : Rule α) : Nat → String → List (Reading α)
  | 0, _ => []
  | count + 1, text =>
    let reading := r.read text
    match reading.result with
    | .error _ => [reading]
    | .ok _ => reading :: if reading.rest = "" then [] else stream r count reading.rest

end Rule

/-! ## What a text can be read as -/

variable (limit : NestingLimit)

/-- Reads a name. -/
def readIdentifier (text : String) : Reading String := Rule.identifier.read text

/-- Reads a name as a reference to a label. -/
def readLabel (text : String) : Reading Label := Rule.label.read text

/-- The rule for an expression at the outermost level. -/
def NestingLimit.expression : Rule Expression := Rule.nested limit.levels limit.levels

/-- Reads an expression. -/
def readExpression (text : String) : Reading Expression := limit.expression.read text

/-- Reads an assignment. -/
def readAssignment (text : String) : Reading Statement :=
  (Rule.assignment limit.expression).read text

/-- Reads an instruction. -/
def readInstruction (text : String) : Reading Instruction :=
  (Rule.instruction limit.expression).read text

/-- Reads a statement. -/
def readStatement (text : String) : Reading Statement :=
  (Rule.statement limit.expression).read text

/-- Reads a text that is an expression as a whole. -/
def parseExpression (text : String) : Except Report Expression :=
  (limit.expression.whole.read text).result

/-- Reads a text that is a statement as a whole. -/
def parseStatement (text : String) : Except Report Statement :=
  ((Rule.statement limit.expression).whole.read text).result

example : (parseStatement default "LDA ($19) , Y").toOption = some (.instruction
    { mnemonic := "LDA"
      size := none
      operand := { mode := .indirectY, value := .number 0x19 .oneByte, second := none } }) := by
  decide +kernel

end Asm65816
