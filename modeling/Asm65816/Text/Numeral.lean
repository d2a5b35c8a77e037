import Asm65816.Text.CharRange
import Asm65816.Text.DecimalDigit

/-!
# Numerals in running text

How a person may write a whole number in a setting: with a sign or without, in the decimal digits of
any script, with single underscores between digits and with white space around. A numeral of very
many digits is refused before its value is worked out.
-/

namespace Asm65816.Text

/-- The characters that may surround a numeral. -/
def spaceRanges : List CharRange :=
  [⟨0x9, 0xd⟩, ⟨0x20, 0x20⟩, ⟨0x85, 0x85⟩, ⟨0xa0, 0xa0⟩, ⟨0x1680, 0x1680⟩, ⟨0x2000, 0x200a⟩,
    ⟨0x2028, 0x2029⟩, ⟨0x202f, 0x202f⟩, ⟨0x205f, 0x205f⟩, ⟨0x3000, 0x3000⟩]

/-- Whether a character may surround a numeral. -/
def isSpace (c : Char) : Bool := CharRange.anyContains spaceRanges c

/-- A text without the white space around it. -/
def trim (s : List Char) : List Char :=
  ((s.dropWhile isSpace).reverse.dropWhile isSpace).reverse

namespace Numeral

/-- The greatest number of digits in a numeral, leading zeros included. -/
def maxDigits : Nat := 4300

/-- The digits of an unsigned numeral. An underscore stands between two digits or nowhere. -/
def digits? : List Char → Option (List Nat)
  | [] => none
  | c :: s => do
    let d ← decimalDigit? c
    match s with
    | [] => return [d]
    | '_' :: s => return d :: (← digits? s)
    | s => return d :: (← digits? s)

/-- The value of an unsigned numeral. -/
def toNat? (s : List Char) : Option Nat := do
  let ds ← digits? s
  if ds.length ≤ maxDigits then some (ds.foldl (fun n d => n * 10 + d) 0) else none

/-- The value of a numeral. -/
def toInt? (text : String) : Option Int :=
  match trim text.toList with
  | '+' :: s => (toNat? s).map Int.ofNat
  | '-' :: s => (toNat? s).map fun n => -Int.ofNat n
  | s => (toNat? s).map Int.ofNat

example : toInt? " 1_000 " = some 1000 ∧ toInt? "-٣1" = some (-31) ∧ toInt? "1__0" = none ∧
    toInt? "+ 5" = none := by
  decide +kernel

end Numeral

end Asm65816.Text
