import Asm65816.Report

/-!
# Faults

Why a rule of the grammar does not match a text. A fault knows the character that was found where
another was required, but not the place: the place is the text that begins there.
-/

namespace Asm65816

/-- Why a rule does not match. -/
inductive Fault where
  /-- Something is missing, and a certain character or the end of the text stands in its place. -/
  | missing (what : String) (found : Option Char)
  /-- There is more text than there should be. -/
  | trailing (found : Char)
  /-- An operator makes an operand in parentheses a part of an expression. -/
  | operatorAfterIndirect (found : Char)
  /-- The value of a literal has more than 32 bits. -/
  | overflow (literal : String)
  /-- Expressions nest deeper than the limit. -/
  | tooDeep (limit : Nat)
deriving DecidableEq, Repr

namespace Fault

/-- What a fault says to the reader. -/
def diagnosis : Fault → Diagnosis
  | missing what none => .incomplete ("expected " ++ what ++ ", got end of input") none
  | missing what (some c) =>
    .unexpected ("expected " ++ what ++ ", got '" ++ c.toString ++ "'") none
  | trailing c => .unexpected ("unexpected '" ++ c.toString ++ "'") none
  | operatorAfterIndirect c =>
    .unexpected ("operator '" ++ c.toString ++ "' after indirect operand")
      (some "a parenthesized expression followed by an operator is an address")
  | overflow literal => .overflow literal
  | tooDeep limit => .tooDeep limit

/-- A fault in words. -/
def message (f : Fault) : String := f.diagnosis.message

/-- Whether expressions nest too deep. No other way of reading the text helps then. -/
def isTooDeep : Fault → Bool
  | tooDeep _ => true
  | _ => false

/-- Whether the text could still be read if less of it were taken. A literal that is too great is
never given back, so that no shorter text stands in for it; nor is an expression that nests too
deep. -/
def isSoft : Fault → Bool
  | overflow _ | tooDeep _ => false
  | _ => true

end Fault

end Asm65816
