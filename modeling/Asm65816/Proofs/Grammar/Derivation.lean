import Asm65816.Proofs.Grammar.Token

/-!
# The grammar of expressions

The grammar is stated by its derivations, without regard to how a text is read. There is one type
for each nonterminal and one constructor for each production:

* a **sum** is a term, or a sum and a term joined by `+` or `-`;
* a **term** is a primary, or a term and a primary joined by `*` or `/`;
* a **primary** is an expression in parentheses, a decimal or a hexadecimal literal, a name, or a
  name with arguments in parentheses;
* an **expression** is a sum with blanks around it.

A derivation has a text and a tree. It also has a number of levels: an expression that holds no
other one takes one level, and a group or an argument lies one level further down. Literals may be
of any value in a derivation; whether they fit is a condition on it.
-/

namespace Asm65816

namespace Derivation

mutual

/-- A sum with blanks around it. -/
inductive Spaced where
  | mk (before : Blanks) (sum : Sum) (after : Blanks)

/-- Terms joined by `+` and `-`. -/
inductive Sum where
  | term (term : Term)
  | join (left : Sum) (before : Blanks) (operator : Operator)
      (additive : operator = .add ∨ operator = .sub) (after : Blanks) (right : Term)

/-- Primaries joined by `*` and `/`. -/
inductive Term where
  | primary (primary : Primary)
  | join (left : Term) (before : Blanks) (operator : Operator)
      (multiplicative : operator = .mul ∨ operator = .div) (after : Blanks) (right : Primary)

/-- What stands on its own between operators. -/
inductive Primary where
  /-- An expression in parentheses. -/
  | group (inner : Spaced)
  /-- A decimal literal. -/
  | decimal (run : DigitRun .decimal)
  /-- A hexadecimal literal, with blanks between the sign and the digits. -/
  | hexadecimal (between : Blanks) (run : DigitRun .hexadecimal)
  /-- A name. -/
  | reference (name : Word)
  /-- A name with nothing but blanks in parentheses. -/
  | emptyCall (name : Word) (between inside : Blanks)
  /-- A name with arguments in parentheses. -/
  | call (name : Word) (between : Blanks) (arguments : Arguments)

/-- Expressions separated by commas. -/
inductive Arguments where
  | one (argument : Spaced)
  | snoc (earlier : Arguments) (argument : Spaced)

end

/-! ## The text of a derivation -/

mutual

/-- The text of a derivation. -/
def Spaced.text : Spaced → List Char
  | .mk before sum after => before.chars ++ sum.text ++ after.chars

def Sum.text : Sum → List Char
  | .term x => x.text
  | .join left before operator _ after right =>
    left.text ++ before.chars ++ operator.symbol.toList ++ after.chars ++ right.text

def Term.text : Term → List Char
  | .primary p => p.text
  | .join left before operator _ after right =>
    left.text ++ before.chars ++ operator.symbol.toList ++ after.chars ++ right.text

def Primary.text : Primary → List Char
  | .group inner => '(' :: inner.text ++ [')']
  | .decimal run => run.chars
  | .hexadecimal between run => '$' :: between.chars ++ run.chars
  | .reference name => name.chars
  | .emptyCall name between inside => name.chars ++ between.chars ++ '(' :: inside.chars ++ [')']
  | .call name between arguments => name.chars ++ between.chars ++ '(' :: arguments.text ++ [')']

def Arguments.text : Arguments → List Char
  | .one e => e.text
  | .snoc earlier e => earlier.text ++ ',' :: e.text

end

/-- The blanks behind an expression. -/
def Spaced.after : Spaced → Blanks
  | .mk _ _ after => after

/-- A sum that is a single expression in parentheses. -/
def Sum.IsGroup (x : Sum) : Prop := ∃ inner, x = .term (.primary (.group inner))

/-- An expression that is a single expression in parentheses. -/
def Spaced.IsGroup : Spaced → Prop
  | .mk _ sum _ => sum.IsGroup

/-! ## The tree of a derivation -/

mutual

/-- The tree of a derivation. -/
def Spaced.tree : Spaced → Expression
  | .mk _ sum _ => sum.tree

def Sum.tree : Sum → Expression
  | .term x => x.tree
  | .join left _ operator _ _ right => .binary operator left.tree right.tree

def Term.tree : Term → Expression
  | .primary p => p.tree
  | .join left _ operator _ _ right => .binary operator left.tree right.tree

/-- The tree of a derivation. Parentheses leave no trace in it. -/
def Primary.tree : Primary → Expression
  | .group inner => inner.tree
  | .decimal run => .number run.value .none
  | .hexadecimal _ run => .number run.value (.ofHexDigits run.chars.length)
  | .reference name => .reference (.named name.name)
  | .emptyCall name _ _ => .call name.name []
  | .call name _ arguments => .call name.name arguments.trees

/-- The trees of the arguments in order. -/
def Arguments.trees : Arguments → List Expression
  | .one e => [e.tree]
  | .snoc earlier e => earlier.trees ++ [e.tree]

end

/-! ## The levels of a derivation -/

mutual

/-- The number of levels that an expression takes, its own included. -/
def Spaced.levels : Spaced → Nat
  | .mk _ sum _ => sum.levels

/-- The number of levels that an expression takes which is this sum. -/
def Sum.levels : Sum → Nat
  | .term x => x.levels
  | .join left _ _ _ _ right => max left.levels right.levels

/-- The number of levels that an expression takes which is this term. -/
def Term.levels : Term → Nat
  | .primary p => p.levels
  | .join left _ _ _ _ right => max left.levels right.levels

/-- The number of levels that an expression takes which is this primary. -/
def Primary.levels : Primary → Nat
  | .group inner => inner.levels + 1
  | .decimal _ | .hexadecimal _ _ | .reference _ | .emptyCall _ _ _ => 1
  | .call _ _ arguments => arguments.levels + 1

/-- The number of levels that the arguments take. -/
def Arguments.levels : Arguments → Nat
  | .one e => e.levels
  | .snoc earlier e => max earlier.levels e.levels

end

/-! ## The values of the literals -/

mutual

/-- Every literal fits in 32 bits. -/
def Spaced.Fits : Spaced → Prop
  | .mk _ sum _ => sum.Fits

def Sum.Fits : Sum → Prop
  | .term x => x.Fits
  | .join left _ _ _ _ right => left.Fits ∧ right.Fits

def Term.Fits : Term → Prop
  | .primary p => p.Fits
  | .join left _ _ _ _ right => left.Fits ∧ right.Fits

def Primary.Fits : Primary → Prop
  | .group inner => inner.Fits
  | .decimal run => run.value ≤ maxNumber
  | .hexadecimal _ run => run.value ≤ maxNumber
  | .reference _ | .emptyCall _ _ _ => True
  | .call _ _ arguments => arguments.Fits

def Arguments.Fits : Arguments → Prop
  | .one e => e.Fits
  | .snoc earlier e => earlier.Fits ∧ e.Fits

end

end Derivation

/-- A text derives a tree within a number of levels if some derivation has that text and that tree,
takes no more levels, and all its literals fit. -/
def Derives (levels : Nat) (s : List Char) (e : Expression) : Prop :=
  ∃ d : Derivation.Spaced, d.text = s ∧ d.tree = e ∧ d.levels ≤ levels ∧ d.Fits

end Asm65816
