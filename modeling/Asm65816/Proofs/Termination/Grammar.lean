import Asm65816.Proofs.Session
import Asm65816.Proofs.Statement.Pieces
import Asm65816.Proofs.Termination.Budget

/-!
# The grammar on a budget

The rules that hold an expression or a repetition, once more, but with nothing that makes them end.
An expression calls itself for what stands in parentheses, counts how deep it is, and gives up when
that is too deep. Each such call takes one from the budget, and what is left of it bounds the rounds
of every repetition in the expression.

One more than the characters of the text and the levels together is always enough. A call further
down has a level less, a round has a character less, and all other rules call only rules for parts
of themselves.
-/

namespace Asm65816

namespace Budgeted

/-! ## Expressions -/

section

variable (budget : Nat) (inner : Budgeted Expression)

/-- Operands joined by operators. -/
def chain (operator? : Char → Option Operator) (operand : Budgeted Expression) :
    Budgeted Expression := do
  let first ← operand
  follow budget operator? (fun operator left => do
    match ← operand.attempt with
    | some right => return some (.binary operator left right)
    | none => return none) first

/-- An expression in parentheses. -/
def group : Budgeted Expression := do
  let _ ← Rule.expect ['('] "'('"
  let expression ← inner
  let _ ← Rule.expect [')'] "')' to close expression"
  return expression

/-- The arguments of a function behind the opening parenthesis, and the closing one. -/
def arguments : Budgeted (List Expression) := do
  match ← Rule.token? (oneOf [')']) with
  | some _ => return []
  | none =>
    let first ← inner
    let reversed ← follow budget (oneOf [',']) (fun _ earlier => do
      return some ((← inner) :: earlier)) [first]
    let _ ← Rule.expect [')'] "',' or ')' in argument list"
    return reversed.reverse

/-- A name, which an opening parenthesis makes a function. -/
def name : Budgeted Expression := do
  Rule.blanks
  let identifier ← Rule.identifier
  match ← Rule.token? (oneOf ['(']) with
  | some _ => return .call identifier (← arguments budget inner)
  | none =>
    Rule.blanks
    return .reference (.named identifier)

/-- A form of a primary. -/
def primaryForm : PrimaryForm → Budgeted Expression
  | .group => group inner
  | .decimal => Rule.decimal
  | .hexadecimal => Rule.hexadecimal
  | .name => name budget inner

/-- A form of a primary as a branch of a choice. -/
def primaryBranch (form : PrimaryForm) : Branch Expression where
  form := .primary form
  reading := primaryForm budget inner form

/-- An expression without an operator outside of parentheses. -/
def primary : Budgeted Expression := do
  Rule.blanks
  if (← Rule.peek).any Rule.beginsPrimary then
    firstOf (PrimaryForm.all.map (primaryBranch budget inner)) (by simp [PrimaryForm.all])
  else Rule.missing "expression"

/-- Primaries joined by `*` and `/`. -/
def term : Budgeted Expression := chain budget Operator.multiplicative? (primary budget inner)

/-- Terms joined by `+` and `-`. -/
def sum : Budgeted Expression := chain budget Operator.additive? (term budget inner)

end

/-- An expression in so many others. -/
def expression (limit : Nat) : Nat → Nat → Budgeted Expression
  | 0, _ => usedUp
  | budget + 1, depth => do
    Rule.blanks
    if limit < depth + 1 then
      Rule.fail fun _ => .tooDeep limit
    else
      sum budget (expression limit budget (depth + 1))

/-! ## Operands and statements -/

section

variable (inner : Budgeted Expression)

/-- The parts of a form one after the other. -/
def sequence : List Part → Budgeted (List Expression)
  | [] => return []
  | .token chars what :: parts => do
    let _ ← Rule.expect chars what
    sequence parts
  | .value :: parts => do
    let value ← inner
    let others ← sequence parts
    return value :: others

/-- A form of an operand, part by part. -/
def operandForm (form : OperandForm) : Budgeted Operand := do
  let values ← sequence inner form.production
  Rule.notBehind form
  match values with
  | value :: others => return { mode := form.mode, value, second := others.head? }
  | [] => Rule.missing "expression"

/-- A form of an operand as a branch of a choice. -/
def operandBranch (form : OperandForm) : Branch Operand where
  form := .operand form
  reading := operandForm inner form

/-- An operand, in the first of the nine forms that the text has. -/
def operand : Budgeted Operand :=
  firstOf (OperandForm.all.map (operandBranch inner)) (by simp [OperandForm.all])

/-- An instruction of the processor. -/
def instruction : Budgeted Instruction := do
  Rule.blanks
  let mnemonic ← Rule.identifier
  let size ← Rule.size?
  let operand ← operand inner
  Rule.record (.addressed mnemonic operand.mode)
  return { mnemonic, size, operand }

/-- A name given to the value of an expression. -/
def assignment : Budgeted Statement := do
  Rule.blanks
  let name ← Rule.identifier
  let _ ← Rule.expect ['='] "'='"
  let value ← inner
  return .assignment name value

/-- A form of a statement. -/
def statementForm : StatementForm → Budgeted Statement
  | .instruction => do
    return .instruction (← instruction inner)

/-- A form of a statement as a branch of a choice. -/
def statementBranch (form : StatementForm) : Branch Statement where
  form := .statement form
  reading := statementForm inner form

/-- A statement. -/
def statement : Budgeted Statement := do
  Rule.blanks
  firstOf (StatementForm.all.map (statementBranch inner)) (by simp [StatementForm.all])

end

/-- What must be the whole text. -/
def whole {α : Type} (b : Budgeted α) : Budgeted α := do
  let a ← b
  Rule.endOfText
  return a

/-! ## The budget is enough -/

section

variable {budget n : Nat} {inner : Budgeted Expression} {inner' : Rule Expression}

theorem completes_chain {operator? : Char → Option Operator} {operand : Budgeted Expression}
    {operand' : Rule Expression} (hn : n ≤ budget) (h : operand.Completes n operand') :
    (chain budget operator? operand).Completes n (Rule.chain operator? operand') := by
  refine h.bind fun first => .follow hn (fun operator left => h.attempt.bind fun right? => ?_) first
  cases right? with
  | some right => exact completes_pure _
  | none => exact completes_pure _

theorem completes_group (h : inner.Completes n inner') :
    (group inner).Completes n (Rule.group inner') :=
  (completes_lift _).bind fun _ => h.bind fun _ => (completes_lift _).bind fun _ => completes_pure _

theorem completes_arguments (hn : n ≤ budget) (h : inner.Completes n inner') :
    (arguments budget inner).Completes n (Rule.arguments inner') := by
  refine (completes_lift _).bind fun close? => ?_
  cases close? with
  | some _ => exact completes_pure _
  | none =>
    exact h.bind fun first =>
      (Completes.follow hn (fun _ earlier => h.bind fun _ => completes_pure _) [first]).bind
        fun _ => (completes_lift _).bind fun _ => completes_pure _

theorem completes_name (hn : n ≤ budget) (h : inner.Completes n inner') :
    (name budget inner).Completes n (Rule.name inner') := by
  refine (completes_lift _).bind fun _ => (completes_lift _).bind fun identifier =>
    (completes_lift _).bind fun open? => ?_
  cases open? with
  | some _ => exact (completes_arguments hn h).bind fun _ => completes_pure _
  | none => exact (completes_lift _).bind fun _ => completes_pure _

theorem completes_primaryBranch (hn : n ≤ budget) (h : inner.Completes n inner')
    (form : PrimaryForm) :
    (primaryBranch budget inner form).Completes n (Rule.primaryBranch inner' form) where
  form := rfl
  reading := by
    cases form with
    | group => exact completes_group h
    | decimal => exact completes_lift _
    | hexadecimal => exact completes_lift _
    | name => exact completes_name hn h

theorem completes_primary (hn : n ≤ budget) (h : inner.Completes n inner') :
    (primary budget inner).Completes n (Rule.primary inner') := by
  refine (completes_lift _).bind fun _ => (completes_lift _).bind fun c? => ?_
  cases hc : c?.any Rule.beginsPrimary with
  | true =>
    simp only [if_true]
    exact completes_firstOf (completes_primaryBranch hn h)
  | false => exact completes_lift _

theorem completes_term (hn : n ≤ budget) (h : inner.Completes n inner') :
    (term budget inner).Completes n (Rule.term inner') :=
  completes_chain hn (completes_primary hn h)

theorem completes_sum (hn : n ≤ budget) (h : inner.Completes n inner') :
    (sum budget inner).Completes n (Rule.sum inner') :=
  completes_chain hn (completes_term hn h)

theorem completes_sequence (h : inner.Completes n inner') (parts : List Part) :
    (sequence inner parts).Completes n (Rule.sequence inner' parts) := by
  induction parts with
  | nil => exact completes_pure _
  | cons part parts ih =>
    cases part with
    | token chars what => exact (completes_lift _).bind fun _ => ih
    | value => exact h.bind fun _ => ih.bind fun _ => completes_pure _

theorem completes_operandForm (h : inner.Completes n inner') (form : OperandForm) :
    (operandForm inner form).Completes n (Rule.operandForm inner' form) := by
  rw [Rule.operandForm_eq_sequence]
  refine (completes_sequence h _).bind fun values => (completes_lift _).bind fun _ => ?_
  cases values with
  | nil => exact completes_lift _
  | cons value others => exact completes_pure _

theorem completes_operand (h : inner.Completes n inner') :
    (operand inner).Completes n (Rule.operand inner') :=
  completes_firstOf fun form => { form := rfl, reading := completes_operandForm h form }

theorem completes_instruction (h : inner.Completes n inner') :
    (instruction inner).Completes n (Rule.instruction inner') :=
  (completes_lift _).bind fun _ => (completes_lift _).bind fun _ => (completes_lift _).bind fun _ =>
    (completes_operand h).bind fun _ => (completes_lift _).bind fun _ => completes_pure _

theorem completes_assignment (h : inner.Completes n inner') :
    (assignment inner).Completes n (Rule.assignment inner') :=
  (completes_lift _).bind fun _ => (completes_lift _).bind fun _ => (completes_lift _).bind fun _ =>
    h.bind fun _ => completes_pure _

theorem completes_statementBranch (h : inner.Completes n inner') (form : StatementForm) :
    (statementBranch inner form).Completes n (Rule.statementBranch inner' form) where
  form := rfl
  reading := by
    cases form with
    | instruction => exact (completes_instruction h).bind fun _ => completes_pure _

theorem completes_statement (h : inner.Completes n inner') :
    (statement inner).Completes n (Rule.statement inner') :=
  (completes_lift _).bind fun _ => completes_firstOf (completes_statementBranch h)

theorem completes_whole {α : Type} {b : Budgeted α} {r : Rule α} (h : b.Completes n r) :
    b.whole.Completes n r.whole :=
  h.bind fun _ => (completes_lift _).bind fun _ => completes_pure _

/-- The budget holds out for an expression if it holds a number of characters and the levels that
are left. -/
theorem completes_expression (limit : Nat) {depth : Nat} (h : n + (limit - depth) ≤ budget) :
    (expression limit budget depth).Completes n (Rule.nested limit (limit - depth)) := by
  induction budget generalizing depth with
  | zero =>
    intro s hs
    omega
  | succ budget ih =>
    rw [expression]
    by_cases hdepth : limit < depth + 1
    · have hnone : limit - depth = 0 := by omega
      rw [hnone, if_pos hdepth, Rule.nested]
      exact (completes_lift _).bind fun _ => completes_lift _
    · have hlevels : limit - depth = limit - (depth + 1) + 1 := by omega
      rw [hlevels, if_neg hdepth, Rule.nested]
      exact (completes_lift _).bind fun _ => completes_sum (by omega) (ih (by omega))

/-- Each parenthesis takes one from the budget, and so does the end of a chain. -/
example : ((expression 64 3 0).run "((1))".toList).isNone = true ∧
    ((expression 64 4 0).run "((1))".toList).isSome = true := by
  decide +kernel

end

end Budgeted

/-! ## Methods -/

open Budgeted

variable (limit : NestingLimit) (budget : Nat)

/-- An outermost expression on a budget. -/
def NestingLimit.budgeted : Budgeted Expression := Budgeted.expression limit.levels budget 0

/-- A reading on a budget. -/
def Entry.budgeted : {α : Type} → Entry α → Budgeted α
  | _, identifier => Rule.identifier
  | _, label => Rule.label
  | _, expression => limit.budgeted budget
  | _, assignment => Budgeted.assignment (limit.budgeted budget)
  | _, instruction => Budgeted.instruction (limit.budgeted budget)
  | _, statement => Budgeted.statement (limit.budgeted budget)
  | _, wholeExpression => (limit.budgeted budget).whole
  | _, wholeStatement => (Budgeted.statement (limit.budgeted budget)).whole

/-- A method on a budget. -/
def Method.budgeted : {α : Type} → Method α → Budgeted α
  | _, entry e => e.budgeted limit budget
  | _, term => Budgeted.term budget (limit.budgeted budget)
  | _, primary => Budgeted.primary budget (limit.budgeted budget)
  | _, group => Budgeted.group (limit.budgeted budget)
  | _, decimal => Rule.decimal
  | _, hexadecimal => Rule.hexadecimal
  | _, digits radix what lead => Rule.digits radix what lead
  | _, name => Budgeted.name budget (limit.budgeted budget)
  | _, arguments => Budgeted.arguments budget (limit.budgeted budget)
  | _, size => Rule.size?
  | _, operand => Budgeted.operand (limit.budgeted budget)
  | _, operandForm form => Budgeted.operandForm (limit.budgeted budget) form
  | _, blanks => Rule.blanks
  | _, endOfText => Rule.endOfText
  | _, peek => Rule.peek
  | _, standsBefore chars => Rule.standsBefore chars
  | _, takeWhile p => Rule.takeWhile p
  | _, token? chars => Rule.token? (oneOf chars)
  | _, expect chars what => Rule.expect chars what
  | _, missing what => Rule.missing what
  | _, chain operator? m => Budgeted.chain budget operator? (m.budgeted)
  | _, choice count form method =>
    Budgeted.firstOf ((List.finRange (count + 1)).map fun i =>
      { form := form i, reading := (method i).budgeted }) (by simp [List.finRange_succ])

variable {limit} {budget} {n : Nat}

theorem completes_budgeted (h : n + limit.levels ≤ budget) :
    (limit.budgeted budget).Completes n limit.expression := completes_expression limit.levels h

theorem Entry.completes_budgeted {α : Type} (e : Entry α) (h : n + limit.levels ≤ budget) :
    (e.budgeted limit budget).Completes n (e.rule limit) := by
  have hinner := Asm65816.completes_budgeted h
  cases e with
  | identifier | label => exact completes_lift _
  | expression => exact hinner
  | assignment => exact completes_assignment hinner
  | instruction => exact completes_instruction hinner
  | statement => exact completes_statement hinner
  | wholeExpression => exact completes_whole hinner
  | wholeStatement => exact completes_whole (completes_statement hinner)

theorem Method.completes_budgeted {α : Type} (m : Method α) (h : n + limit.levels ≤ budget) :
    (m.budgeted limit budget).Completes n (m.rule limit) := by
  have hinner := Asm65816.completes_budgeted h
  have hn : n ≤ budget := by omega
  induction m with
  | entry e => exact e.completes_budgeted h
  | term => exact completes_term hn hinner
  | primary => exact completes_primary hn hinner
  | group => exact completes_group hinner
  | name => exact completes_name hn hinner
  | arguments => exact completes_arguments hn hinner
  | operand => exact completes_operand hinner
  | operandForm form => exact completes_operandForm hinner form
  | decimal | hexadecimal | digits _ _ _ | size | blanks | endOfText | peek | standsBefore _
  | takeWhile _ | token? _ | expect _ _ | missing _ => exact completes_lift _
  | chain operator? m ih => exact completes_chain hn ih
  | choice count form method ih =>
    exact completes_firstOf fun i => { form := rfl, reading := ih i }

end Asm65816
