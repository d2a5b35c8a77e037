import Asm65816.Fault
import Asm65816.Form

/-!
# The trace of a reading

While a text is read, a trace records every form that was tried in vain, and the addressing mode of
every instruction. A form stands in the trace after all that was tried inside of it.
-/

namespace Asm65816

/-- A step of a reading that is recorded. -/
inductive Event where
  /-- A form was tried, and the text does not have it. -/
  | rejected (form : Form) (fault : Fault)
  /-- The operand of an instruction was read. -/
  | addressed (mnemonic : String) (mode : Mode)
deriving DecidableEq, Repr

/-- The text of a step, with the given names for the forms. -/
def Event.message (nameOf : Form → String) : Event → String
  | rejected form fault => nameOf form ++ " rejected: " ++ fault.message
  | addressed mnemonic mode => mnemonic ++ ": " ++ mode.name ++ " addressing"

end Asm65816
