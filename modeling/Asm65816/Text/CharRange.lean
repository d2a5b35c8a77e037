/-!
# Ranges of characters

A property of characters that a standard lays down by table is kept as a list of ranges of code
points. Looking a character up is a walk over the list.
-/

namespace Asm65816.Text

/-- The characters whose code points lie between two bounds, both included. -/
structure CharRange where
  /-- The least code point. -/
  first : Nat
  /-- The greatest code point. -/
  last : Nat
deriving DecidableEq, Repr

namespace CharRange

/-- Whether a character lies in a range. -/
def contains (r : CharRange) (c : Char) : Bool :=
  r.first ≤ c.toNat && c.toNat ≤ r.last

/-- Whether a character lies in one of the ranges. -/
def anyContains (table : List CharRange) (c : Char) : Bool :=
  table.any (·.contains c)

end CharRange

end Asm65816.Text
