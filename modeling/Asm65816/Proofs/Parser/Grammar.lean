import Asm65816.Proofs.Parser.Choice
import Asm65816.Proofs.Session
import Asm65816.Proofs.Statement.Pieces

/-!
# The grammar of a parser

The methods of a parser for all that the grammar has rules for. A method for an expression counts up
when it begins, and fails when that is more than the limit; the number is the only thing that it
knows of the expressions around it. It may call itself for what stands in parentheses, for so many
levels that the number decides first.

Every method simulates the rule of the same name, from any place. So it depends on nothing in front
of the place, and leaves the number of expressions as it was.
-/

namespace Asm65816

namespace Parsing

/-! ## Names and literals -/

/-- A name: the longest word that begins here. -/
def identifier : Parsing String := do
  let start ← position
  if (← current).any Text.isIdentifierStart then
    advance
    let _ ← takeWhile Text.isIdentifierContinue
    return String.ofList (← since start)
  else missing "identifier"

/-- A name as a reference to a label. -/
def label : Parsing Label := do
  return .named (← identifier)

/-- The run of digits that begins here and its value. The first digit that takes the value over the
bound is where a greater one fails. -/
def digits (radix : Radix) (what : String) (lead : List Char) : Parsing (List Char × Nat) := do
  let start ← position
  let run ← takeWhile radix.isDigit
  if run = [] then missing what
  else
    match radix.read maxNumber run with
    | .ok value =>
      blanks
      return (run, value)
    | .error late =>
      raiseAt (start + (run.length - late.length)) (.overflow (String.ofList (lead ++ run)))

/-- A decimal literal. It suggests no width. -/
def decimal : Parsing Expression := do
  blanks
  let (_, value) ← digits .decimal "decimal digit" []
  return .number value .none

/-- A hexadecimal literal. The number of its digits suggests a width. -/
def hexadecimal : Parsing Expression := do
  let _ ← expect ['$'] "'$'"
  let (run, value) ← digits .hexadecimal "hexadecimal digit after '$'" ['$']
  return .number value (.ofHexDigits run.length)

/-! ## Expressions -/

section

variable (inner : Parsing Expression)

/-- Operands joined by operators. -/
def chain (operator? : Char → Option Operator) (operand : Parsing Expression) :
    Parsing Expression := do
  let first ← operand
  follow operator? (fun operator left => do
    match ← attempt operand with
    | some right => return some (.binary operator left right)
    | none => return none) first

/-- An expression in parentheses. -/
def group : Parsing Expression := do
  let _ ← expect ['('] "'('"
  let expression ← inner
  let _ ← expect [')'] "')' to close expression"
  return expression

/-- The arguments of a function behind the opening parenthesis, and the closing one. -/
def arguments : Parsing (List Expression) := do
  match ← token? (oneOf [')']) with
  | some _ => return []
  | none =>
    let first ← inner
    let reversed ← follow (oneOf [',']) (fun _ earlier => do
      return some ((← inner) :: earlier)) [first]
    let _ ← expect [')'] "',' or ')' in argument list"
    return reversed.reverse

/-- A name, which an opening parenthesis makes a function. -/
def name : Parsing Expression := do
  blanks
  let identifier ← identifier
  match ← token? (oneOf ['(']) with
  | some _ => return .call identifier (← arguments inner)
  | none =>
    blanks
    return .reference (.named identifier)

/-- A form of a primary. -/
def primaryForm : PrimaryForm → Parsing Expression
  | .group => group inner
  | .decimal => decimal
  | .hexadecimal => hexadecimal
  | .name => name inner

/-- A form of a primary as a branch of a choice. -/
def primaryBranch (form : PrimaryForm) : Branch Expression where
  form := .primary form
  method := primaryForm inner form

/-- An expression without an operator outside of parentheses. -/
def primary : Parsing Expression := do
  blanks
  if (← current).any Rule.beginsPrimary then firstOf (PrimaryForm.all.map (primaryBranch inner))
  else missing "expression"

/-- Primaries joined by `*` and `/`. -/
def term : Parsing Expression := chain Operator.multiplicative? (primary inner)

/-- Terms joined by `+` and `-`. -/
def sum : Parsing Expression := chain Operator.additive? (term inner)

end

/-- An expression that may call itself so many times over. -/
def expressionWithin : Nat → Parsing Expression
  | 0 => noOutcome
  | calls + 1 => inside do
    let p ← get
    if p.limit.levels < p.depth then
      blanks
      raise (.tooDeep p.limit.levels)
    else
      blanks
      sum (expressionWithin calls)

/-- An expression. One call more than there are levels is enough for the number to get too great. -/
def expression : Parsing Expression := do expressionWithin ((← get).limit.levels + 1)

/-! ## Operands and statements -/

/-- Fails before an operator. -/
def noOperator : Parsing Unit := do
  match ← current with
  | some c => if c ∈ Rule.operatorSigns then raise (.operatorAfterIndirect c)
  | none => return ()

/-- What must not follow a form. -/
def notBehind : OperandForm → Parsing Unit
  | .indirect => noOperator
  | _ => return ()

/-- The size behind a mnemonic. A point without the letter of a size behind it is given back. -/
def size? : Parsing (Option Size) := backIfNone do
  match ← token? (oneOf ['.']) with
  | some _ => token? Size.ofLetter?
  | none => return none

section

variable (inner : Parsing Expression)

/-- The parts of a form one after the other. -/
def sequence : List Part → Parsing (List Expression)
  | [] => return []
  | .token chars what :: parts => do
    let _ ← expect chars what
    sequence parts
  | .value :: parts => do
    let value ← inner
    let others ← sequence parts
    return value :: others

/-- A form of an operand, part by part. -/
def operandForm (form : OperandForm) : Parsing Operand := do
  let values ← sequence inner form.production
  notBehind form
  match values with
  | value :: others => return { mode := form.mode, value, second := others.head? }
  | [] => missing "expression"

/-- A form of an operand as a branch of a choice. -/
def operandBranch (form : OperandForm) : Branch Operand where
  form := .operand form
  method := operandForm inner form

/-- An operand, in the first of the nine forms that the text has. -/
def operand : Parsing Operand := firstOf (OperandForm.all.map (operandBranch inner))

/-- An instruction of the processor. -/
def instruction : Parsing Instruction := do
  blanks
  let mnemonic ← identifier
  let size ← size?
  let operand ← operand inner
  record (.addressed mnemonic operand.mode)
  return { mnemonic, size, operand }

/-- A name given to the value of an expression. -/
def assignment : Parsing Statement := do
  blanks
  let name ← identifier
  let _ ← expect ['='] "'='"
  let value ← inner
  return .assignment name value

/-- A form of a statement. -/
def statementForm : StatementForm → Parsing Statement
  | .instruction => do
    return .instruction (← instruction inner)

/-- A form of a statement as a branch of a choice. -/
def statementBranch (form : StatementForm) : Branch Statement where
  form := .statement form
  method := statementForm inner form

/-- A statement. -/
def statement : Parsing Statement := do
  blanks
  firstOf (StatementForm.all.map (statementBranch inner))

end

/-- What must be the whole text. -/
def whole {α : Type} (x : Parsing α) : Parsing α := do
  let a ← x
  endOfText
  return a

/-! ## Simulation -/

section

open Asm65816.Parser

variable {limit : NestingLimit} {depth : Nat} {inner : Parsing Expression}
  {inner' : Rule Expression}

theorem run_identifier_of_not_start {s : List Char}
    (h : s.head?.any Text.isIdentifierStart = false) :
    Rule.identifier.run s = (Rule.missing "identifier" : Rule String).run s := by
  cases s with
  | nil => rfl
  | cons c t =>
    have hfirst : (Rule.satisfy Text.isIdentifierStart "identifier").run (c :: t) =
        (Rule.missing "identifier").run (c :: t) := if_neg (Bool.not_eq_true _ ▸ h)
    rw [Rule.identifier, Rule.run_bind, hfirst]
    rfl

theorem run_identifier_cons {c : Char} (hc : Text.isIdentifierStart c = true) (t : List Char) :
    Rule.identifier.run (c :: t) =
      { result := .ok (String.ofList (c :: t.takeWhile Text.isIdentifierContinue))
        rest := t.dropWhile Text.isIdentifierContinue
        trace := [] } := by
  have hfirst : (Rule.satisfy Text.isIdentifierStart "identifier").run (c :: t) =
      { result := .ok c, rest := t, trace := [] } := if_pos hc
  rw [Rule.identifier, Rule.run_bind, hfirst]
  rfl

/-- A name is what stands between its first character and the first that does not continue it. -/
theorem simulates_identifier : identifier.Simulates limit depth Rule.identifier := by
  intro p hp
  rw [identifier, run_bind_of_ok (run_position p), run_bind_of_ok (run_current p)]
  cases hc : p.rest.head?.any Text.isIdentifierStart with
  | false =>
    rw [run_identifier_of_not_start hc]
    exact simulates_missing _ p hp
  | true =>
    obtain ⟨c, hhead, hstart⟩ := (Option.any_eq_true _ _).mp hc
    obtain ⟨t, hs⟩ := List.head?_eq_some_iff.mp hhead
    have hbehind : (p.before t).rest = t := rest_before (hs ▸ List.suffix_cons c t)
    have hword : p.rest = (c :: t.takeWhile Text.isIdentifierContinue) ++
        t.dropWhile Text.isIdentifierContinue := by
      rw [hs, List.cons_append, List.takeWhile_append_dropWhile]
    rw [if_pos rfl, run_bind_of_ok (run_advance hs),
      run_bind_of_ok (run_takeWhile (hp.before t) _), hbehind, before_before,
      run_bind_of_ok (run_since hp hword), run_pure, hs, run_identifier_cons hstart, ending_ok]

theorem simulates_label : label.Simulates limit depth Rule.label :=
  simulates_identifier.bind fun _ => simulates_pure _

/-- The digits in front of a late one are those of the run that are not behind it. -/
theorem simulates_digits (radix : Radix) (what : String) (lead : List Char) :
    (digits radix what lead).Simulates limit depth (Rule.digits radix what lead) := by
  intro p hp
  have hsplit := List.takeWhile_append_dropWhile (p := radix.isDigit) (l := p.rest)
  have hbehind := rest_before (p := p) (List.dropWhile_suffix (l := p.rest) radix.isDigit)
  rw [digits, run_bind_of_ok (run_position p), run_bind_of_ok (run_takeWhile hp _)]
  simp only [Rule.digits]
  generalize p.rest.takeWhile radix.isDigit = run at hsplit
  generalize p.rest.dropWhile radix.isDigit = rest at hsplit hbehind
  split
  · rename_i hrun
    rw [hrun, List.nil_append] at hsplit
    rw [hsplit, hp.before_rest]
    exact simulates_missing what p hp
  · cases hread : radix.read maxNumber run with
    | ok value =>
      dsimp only
      rw [run_bind_of_ok (run_blanks (hp.before rest)), hbehind, before_before, run_pure, ending_ok]
    | error late =>
      have hlate := (Radix.readFrom_suffix hread).length_le
      have hlength := congrArg List.length hsplit
      have hrest : p.rest.length = p.text.length - p.position := List.length_drop
      have hposition : p.position + (run.length - late.length) =
          p.text.length - (late ++ rest).length := by
        have := hp.position_le
        simp only [List.length_append] at hlength ⊢
        omega
      dsimp only
      rw [ending_error, raised, ← hposition]
      rfl

theorem simulates_decimal : decimal.Simulates limit depth Rule.decimal :=
  simulates_blanks.bind fun _ => (simulates_digits _ _ _).bind fun _ => simulates_pure _

theorem simulates_hexadecimal : hexadecimal.Simulates limit depth Rule.hexadecimal :=
  (simulates_expect _ _).bind fun _ => (simulates_digits _ _ _).bind fun _ => simulates_pure _

theorem simulates_chain {operator? : Char → Option Operator} {operand : Parsing Expression}
    {operand' : Rule Expression} (h : operand.Simulates limit depth operand') :
    (chain operator? operand).Simulates limit depth (Rule.chain operator? operand') := by
  refine h.bind fun first => .follow (fun operator left => h.attempt.bind fun right? => ?_) first
  cases right? with
  | some right => exact simulates_pure _
  | none => exact simulates_pure _

theorem simulates_group (h : inner.Simulates limit depth inner') :
    (group inner).Simulates limit depth (Rule.group inner') :=
  (simulates_expect _ _).bind fun _ => h.bind fun _ =>
    (simulates_expect _ _).bind fun _ => simulates_pure _

theorem simulates_arguments (h : inner.Simulates limit depth inner') :
    (arguments inner).Simulates limit depth (Rule.arguments inner') := by
  refine (simulates_token? _).bind fun close? => ?_
  cases close? with
  | some _ => exact simulates_pure _
  | none =>
    exact h.bind fun first =>
      (Simulates.follow (fun _ earlier => h.bind fun _ => simulates_pure _) [first]).bind
        fun _ => (simulates_expect _ _).bind fun _ => simulates_pure _

theorem simulates_name (h : inner.Simulates limit depth inner') :
    (name inner).Simulates limit depth (Rule.name inner') := by
  refine simulates_blanks.bind fun _ => simulates_identifier.bind fun identifier =>
    (simulates_token? _).bind fun open? => ?_
  cases open? with
  | some _ => exact (simulates_arguments h).bind fun _ => simulates_pure _
  | none => exact simulates_blanks.bind fun _ => simulates_pure _

theorem simulates_primaryBranch (h : inner.Simulates limit depth inner') (form : PrimaryForm) :
    (primaryBranch inner form).Simulates limit depth (Rule.primaryBranch inner' form) where
  form := rfl
  method := by
    cases form with
    | group => exact simulates_group h
    | decimal => exact simulates_decimal
    | hexadecimal => exact simulates_hexadecimal
    | name => exact simulates_name h

theorem simulates_primary (h : inner.Simulates limit depth inner') :
    (primary inner).Simulates limit depth (Rule.primary inner') := by
  refine simulates_blanks.bind fun _ => simulates_current.bind fun c? => ?_
  cases hc : c?.any Rule.beginsPrimary with
  | true =>
    simp only [if_true]
    exact simulates_firstOf (simulates_primaryBranch h)
  | false => exact simulates_missing _

theorem simulates_term (h : inner.Simulates limit depth inner') :
    (term inner).Simulates limit depth (Rule.term inner') :=
  simulates_chain (simulates_primary h)

theorem simulates_sum (h : inner.Simulates limit depth inner') :
    (sum inner).Simulates limit depth (Rule.sum inner') :=
  simulates_chain (simulates_term h)

/-- **The number of expressions around the place stands for the levels that are left.** -/
theorem simulates_expressionWithin {calls levels : Nat} (hlevels : depth + levels = limit.levels)
    (hcalls : levels < calls) :
    (expressionWithin calls).Simulates limit depth (Rule.nested limit.levels levels) := by
  induction calls generalizing depth levels with
  | zero => exact absurd hcalls (Nat.not_lt_zero _)
  | succ calls ih =>
    refine Simulates.inside fun p hp => ?_
    rw [run_bind_of_ok (run_get p), hp.limit_eq, hp.depth_eq]
    cases levels with
    | zero =>
      rw [if_pos (by omega), Rule.nested]
      exact simulates_blanks.bind (fun _ => simulates_raise _) p hp
    | succ levels =>
      rw [if_neg (by omega), Rule.nested]
      exact simulates_blanks.bind (fun _ => simulates_sum (ih (by omega) (by omega))) p hp

/-- An outermost expression. -/
theorem simulates_expression : expression.Simulates limit 0 limit.expression := by
  intro p hp
  rw [expression, run_bind_of_ok (run_get p), hp.limit_eq]
  exact simulates_expressionWithin (Nat.zero_add _) (Nat.lt_succ_self _) p hp

/-- A failure two expressions further down is raised through both. -/
example : ((Parser.new "((1))" { levels := 1 }).run expression).map
    (fun y => (y.2.position, y.2.depth)) = some (1, 0) := by
  decide +kernel

theorem simulates_noOperator : noOperator.Simulates limit depth Rule.noOperator := by
  refine simulates_current.bind fun c? => ?_
  cases c? with
  | none => exact simulates_pure ()
  | some c =>
    dsimp only
    split
    · exact simulates_raise _
    · exact simulates_pure ()

theorem simulates_notBehind (form : OperandForm) :
    (notBehind form).Simulates limit depth (Rule.notBehind form) := by
  cases form with
  | indirect => exact simulates_noOperator
  | _ => exact simulates_pure ()

theorem simulates_size? : size?.Simulates limit depth Rule.size? := by
  refine Simulates.backIfNone ((simulates_token? _).bind fun point? => ?_)
  cases point? with
  | some _ => exact simulates_token? _
  | none => exact simulates_pure _

theorem simulates_sequence (h : inner.Simulates limit depth inner') (parts : List Part) :
    (sequence inner parts).Simulates limit depth (Rule.sequence inner' parts) := by
  induction parts with
  | nil => exact simulates_pure _
  | cons part parts ih =>
    cases part with
    | token chars what => exact (simulates_expect _ _).bind fun _ => ih
    | value => exact h.bind fun _ => ih.bind fun _ => simulates_pure _

theorem simulates_operandForm (h : inner.Simulates limit depth inner') (form : OperandForm) :
    (operandForm inner form).Simulates limit depth (Rule.operandForm inner' form) := by
  rw [Rule.operandForm_eq_sequence]
  refine (simulates_sequence h _).bind fun values => (simulates_notBehind form).bind fun _ => ?_
  cases values with
  | nil => exact simulates_missing _
  | cons value others => exact simulates_pure _

theorem simulates_operand (h : inner.Simulates limit depth inner') :
    (operand inner).Simulates limit depth (Rule.operand inner') :=
  simulates_firstOf fun form => { form := rfl, method := simulates_operandForm h form }

theorem simulates_instruction (h : inner.Simulates limit depth inner') :
    (instruction inner).Simulates limit depth (Rule.instruction inner') :=
  simulates_blanks.bind fun _ => simulates_identifier.bind fun _ => simulates_size?.bind fun _ =>
    (simulates_operand h).bind fun _ => (simulates_record _).bind fun _ => simulates_pure _

theorem simulates_assignment (h : inner.Simulates limit depth inner') :
    (assignment inner).Simulates limit depth (Rule.assignment inner') :=
  simulates_blanks.bind fun _ => simulates_identifier.bind fun _ =>
    (simulates_expect _ _).bind fun _ => h.bind fun _ => simulates_pure _

theorem simulates_statementBranch (h : inner.Simulates limit depth inner') (form : StatementForm) :
    (statementBranch inner form).Simulates limit depth (Rule.statementBranch inner' form) where
  form := rfl
  method := by
    cases form with
    | instruction => exact (simulates_instruction h).bind fun _ => simulates_pure _

theorem simulates_statement (h : inner.Simulates limit depth inner') :
    (statement inner).Simulates limit depth (Rule.statement inner') :=
  simulates_blanks.bind fun _ => simulates_firstOf (simulates_statementBranch h)

theorem simulates_whole {α : Type} {x : Parsing α} {r : Rule α} (h : x.Simulates limit depth r) :
    (whole x).Simulates limit depth r.whole :=
  h.bind fun _ => simulates_endOfText.bind fun _ => simulates_pure _

end

end Parsing

/-! ## Methods -/

/-- The method for a reading. -/
def Entry.program : {α : Type} → Entry α → Parsing α
  | _, identifier => Parsing.identifier
  | _, label => Parsing.label
  | _, expression => Parsing.expression
  | _, assignment => Parsing.assignment Parsing.expression
  | _, instruction => Parsing.instruction Parsing.expression
  | _, statement => Parsing.statement Parsing.expression
  | _, wholeExpression => Parsing.whole Parsing.expression
  | _, wholeStatement => Parsing.whole (Parsing.statement Parsing.expression)

/-- What a method does. -/
def Method.program : {α : Type} → Method α → Parsing α
  | _, entry e => e.program
  | _, term => Parsing.term Parsing.expression
  | _, primary => Parsing.primary Parsing.expression
  | _, group => Parsing.group Parsing.expression
  | _, decimal => Parsing.decimal
  | _, hexadecimal => Parsing.hexadecimal
  | _, digits radix what lead => Parsing.digits radix what lead
  | _, name => Parsing.name Parsing.expression
  | _, arguments => Parsing.arguments Parsing.expression
  | _, size => Parsing.size?
  | _, operand => Parsing.operand Parsing.expression
  | _, operandForm form => Parsing.operandForm Parsing.expression form
  | _, blanks => Parsing.blanks
  | _, endOfText => Parsing.endOfText
  | _, peek => Parsing.current
  | _, standsBefore chars => Parsing.standsBefore chars
  | _, takeWhile p => Parsing.takeWhile p
  | _, token? chars => Parsing.token? (oneOf chars)
  | _, expect chars what => Parsing.expect chars what
  | _, missing what => Parsing.missing what
  | _, chain operator? m => Parsing.chain operator? m.program
  | _, choice count form method =>
    Parsing.firstOf ((List.finRange (count + 1)).map fun i =>
      { form := form i, method := (method i).program })

variable {limit : NestingLimit} {α : Type}

theorem Entry.simulates (e : Entry α) : e.program.Simulates limit 0 (e.rule limit) := by
  have hinner : Parsing.expression.Simulates limit 0 limit.expression :=
    Parsing.simulates_expression
  cases e with
  | identifier => exact Parsing.simulates_identifier
  | label => exact Parsing.simulates_label
  | expression => exact hinner
  | assignment => exact Parsing.simulates_assignment hinner
  | instruction => exact Parsing.simulates_instruction hinner
  | statement => exact Parsing.simulates_statement hinner
  | wholeExpression => exact Parsing.simulates_whole hinner
  | wholeStatement => exact Parsing.simulates_whole (Parsing.simulates_statement hinner)

/-- **Every method does what its rule does with the text that is left over.** -/
theorem Method.simulates (m : Method α) : m.program.Simulates limit 0 (m.rule limit) := by
  have hinner : Parsing.expression.Simulates limit 0 limit.expression :=
    Parsing.simulates_expression
  induction m with
  | entry e => exact e.simulates
  | term => exact Parsing.simulates_term hinner
  | primary => exact Parsing.simulates_primary hinner
  | group => exact Parsing.simulates_group hinner
  | decimal => exact Parsing.simulates_decimal
  | hexadecimal => exact Parsing.simulates_hexadecimal
  | digits radix what lead => exact Parsing.simulates_digits radix what lead
  | name => exact Parsing.simulates_name hinner
  | arguments => exact Parsing.simulates_arguments hinner
  | size => exact Parsing.simulates_size?
  | operand => exact Parsing.simulates_operand hinner
  | operandForm form => exact Parsing.simulates_operandForm hinner form
  | blanks => exact Parsing.simulates_blanks
  | endOfText => exact Parsing.simulates_endOfText
  | peek => exact Parsing.simulates_current
  | standsBefore chars => exact Parsing.simulates_standsBefore chars
  | takeWhile p => exact Parsing.simulates_takeWhile p
  | token? chars => exact Parsing.simulates_token? _
  | expect chars what => exact Parsing.simulates_expect chars what
  | missing what => exact Parsing.simulates_missing what
  | chain operator? m ih => exact Parsing.simulates_chain ih
  | choice count form method ih =>
    exact Parsing.simulates_firstOf fun i => { form := rfl, method := ih i }

end Asm65816
