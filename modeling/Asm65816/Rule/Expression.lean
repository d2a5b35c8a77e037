import Asm65816.Rule.Choice
import Asm65816.Rule.Follow
import Asm65816.Rule.Literal

/-!
# The grammar of expressions

From the loosest to the tightest binding:

* an expression is a chain of terms joined by `+` and `-`;
* a term is a chain of primaries joined by `*` and `/`;
* a primary is an expression in parentheses, a literal, a name, or a function applied to arguments.

Chains nest to the left. An operator without an operand behind it does not belong to the chain.

A group and an argument hold an expression one level further down. The rules for the parts take the
rule for that inner expression as a parameter, and the rule for expressions is built from them by
recursion on the levels that are left. Below the last level there is only the failure of nesting too
deep.
-/

namespace Asm65816.Rule

/-- Operands joined by operators. An operand that fails softly is given back, and its operator
too. -/
def chain (operator? : Char → Option Operator) (operand : Rule Expression) : Rule Expression := do
  let first ← operand
  follow operator? (fun operator left => do
    match ← operand.attempt with
    | some right => return some (.binary operator left right)
    | none => return none) first

/-- An expression in parentheses, which leave no trace in the tree. -/
def group (inner : Rule Expression) : Rule Expression := do
  let _ ← expect ['('] "'('"
  let expression ← inner
  let _ ← expect [')'] "')' to close expression"
  return expression

/-- The arguments of a function behind the opening parenthesis, and the closing one. -/
def arguments (inner : Rule Expression) : Rule (List Expression) := do
  match ← token? (oneOf [')']) with
  | some _ => return []
  | none =>
    let first ← inner
    -- the latest argument stands in front until the list is complete
    let reversed ← follow (oneOf [',']) (fun _ earlier => do
      return some ((← inner) :: earlier)) [first]
    let _ ← expect [')'] "',' or ')' in argument list"
    return reversed.reverse

/-- A name, which an opening parenthesis makes a function. -/
def name (inner : Rule Expression) : Rule Expression := do
  blanks
  let identifier ← identifier
  match ← token? (oneOf ['(']) with
  | some _ => return .call identifier (← arguments inner)
  | none =>
    -- `token?` leaves even the blanks behind, but they belong to the name
    blanks
    return .reference (.named identifier)

/-- The rule for a form of a primary. -/
def primaryForm (inner : Rule Expression) : PrimaryForm → Rule Expression
  | .group => group inner
  | .decimal => decimal
  | .hexadecimal => hexadecimal
  | .name => name inner

/-- A form of a primary as a branch of a choice. -/
def primaryBranch (inner : Rule Expression) (form : PrimaryForm) : Branch Expression where
  form := .primary form
  rule := primaryForm inner form

/-- Whether a primary may begin with a character. -/
def beginsPrimary (c : Char) : Bool :=
  c == '(' || c == '$' || Radix.decimal.isDigit c || Text.isIdentifierStart c

/-- An expression without an operator outside of parentheses. -/
def primary (inner : Rule Expression) : Rule Expression := do
  blanks
  if (← peek).any beginsPrimary then
    firstOf (PrimaryForm.all.map (primaryBranch inner)) (by simp [PrimaryForm.all])
  else missing "expression"

/-- Primaries joined by `*` and `/`. -/
def term (inner : Rule Expression) : Rule Expression :=
  chain Operator.multiplicative? (primary inner)

/-- Terms joined by `+` and `-`. -/
def sum (inner : Rule Expression) : Rule Expression :=
  chain Operator.additive? (term inner)

/-- An expression with so many levels left, its own included. The limit is what a failure of nesting
too deep quotes. -/
def nested (limit : Nat) : Nat → Rule Expression
  | 0 => do
    blanks
    fail fun _ => .tooDeep limit
  | levels + 1 => do
    blanks
    sum (nested limit levels)

end Asm65816.Rule
