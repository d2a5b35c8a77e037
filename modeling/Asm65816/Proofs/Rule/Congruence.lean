import Asm65816.Proofs.Entry

/-!
# Relations that the grammar keeps

Two grammars that differ in a rule deep inside differ everywhere. To carry a relation between the
two rules through to the whole grammar it is enough to carry it through each way of building a rule.
What that makes of the grammar is proved here once, for all such relations.
-/

namespace Asm65816

namespace Rule

variable {α β : Type}

/-- A relation between rules that holds of rules built in the same way from related ones. -/
structure Congruence (R : ∀ {α : Type}, Rule α → Rule α → Prop) : Prop where
  /-- Every rule is related to itself. -/
  refl {α : Type} (r : Rule α) : R r r
  /-- One rule after the other. -/
  bind {α β : Type} {r r' : Rule α} {next next' : α → Rule β} :
    R r r' → (∀ a, R (next a) (next' a)) → R (r >>= next) (r' >>= next')
  /-- Rules that are given back where they fail softly. -/
  attempt {α : Type} {r r' : Rule α} : R r r' → R r.attempt r'.attempt
  /-- Repetition behind tokens. -/
  follow {α β : Type} {meaning : Char → Option β} {step step' : β → α → Rule (Option α)} :
    (∀ b a, R (step b a) (step' b a)) → ∀ a, R (follow meaning step a) (follow meaning step' a)
  /-- Choice between the same forms. -/
  firstOf {α γ : Type} {branch branch' : γ → Branch α} {forms : List γ}
    {hne : forms.map branch ≠ []} {hne' : forms.map branch' ≠ []} :
    (∀ form, (branch' form).form = (branch form).form) →
    (∀ form, R (branch form).rule (branch' form).rule) →
    R (firstOf (forms.map branch) hne) (firstOf (forms.map branch') hne')

namespace Congruence

variable {R : ∀ {α : Type}, Rule α → Rule α → Prop} (hR : Congruence R)
include hR

/-- What comes first is the same rule. -/
theorem behind (r : Rule α) {next next' : α → Rule β} (hnext : ∀ a, R (next a) (next' a)) :
    R (r >>= next) (r >>= next') :=
  hR.bind (hR.refl r) hnext

/-- What comes last is the same rule. -/
theorem before {r r' : Rule α} (h : R r r') (next : α → Rule β) : R (r >>= next) (r' >>= next) :=
  hR.bind h fun a => hR.refl (next a)

theorem whole {r r' : Rule α} (h : R r r') : R r.whole r'.whole := hR.before h _

/-! ## Expressions -/

theorem chain (operator? : Char → Option Operator) {operand operand' : Rule Expression}
    (h : R operand operand') : R (chain operator? operand) (chain operator? operand') :=
  hR.bind h fun first => hR.follow (fun _ _ => hR.before (hR.attempt h) _) first

variable {inner inner' : Rule Expression} (h : R inner inner')
include h

theorem group : R (group inner) (group inner') := hR.behind _ fun _ => hR.before h _

theorem arguments : R (arguments inner) (arguments inner') := by
  refine hR.behind _ fun close => ?_
  cases close with
  | some _ => exact hR.refl _
  | none => exact hR.bind h fun first => hR.before (hR.follow (fun _ _ => hR.before h _) [first]) _

theorem name : R (name inner) (name inner') := by
  refine hR.behind _ fun _ => hR.behind _ fun identifier => hR.behind _ fun opening => ?_
  cases opening with
  | some _ => exact hR.before (hR.arguments h) _
  | none => exact hR.refl _

theorem primaryForm (form : PrimaryForm) :
    R (primaryForm inner form) (primaryForm inner' form) := by
  cases form with
  | group => exact hR.group h
  | decimal => exact hR.refl decimal
  | hexadecimal => exact hR.refl hexadecimal
  | name => exact hR.name h

theorem primary : R (primary inner) (primary inner') := by
  refine hR.behind _ fun _ => hR.behind _ fun c? => ?_
  split
  · exact hR.firstOf (fun _ => rfl) (hR.primaryForm h)
  · exact hR.refl _

theorem term : R (term inner) (term inner') := hR.chain Operator.multiplicative? (hR.primary h)

theorem sum : R (sum inner) (sum inner') := hR.chain Operator.additive? (hR.term h)

/-! ## Operands and statements -/

theorem openParenthesis : R (openParenthesis inner) (openParenthesis inner') :=
  hR.behind _ fun _ => h

theorem brackets : R (brackets inner) (brackets inner') := hR.behind _ fun _ => hR.before h _

theorem operandExpressions (form : OperandForm) :
    R (operandExpressions inner form) (operandExpressions inner' form) := by
  cases form with
  | indirectY | indirect | xIndirect | stackIndirectY => exact hR.before (hR.openParenthesis h) _
  | move => exact hR.bind h fun _ => hR.behind _ fun _ => hR.before h _
  | address => exact hR.before h _
  | immediate => exact hR.behind _ fun _ => hR.before h _
  | longIndirectY | longIndirect => exact hR.before (hR.brackets h) _

theorem operandForm (form : OperandForm) : R (operandForm inner form) (operandForm inner' form) :=
  hR.before (hR.operandExpressions h form) _

theorem operand : R (operand inner) (operand inner') :=
  hR.firstOf (fun _ => rfl) (hR.operandForm h)

theorem instruction : R (instruction inner) (instruction inner') :=
  hR.behind _ fun _ => hR.behind _ fun _ => hR.behind _ fun _ => hR.before (hR.operand h) _

theorem assignment : R (assignment inner) (assignment inner') :=
  hR.behind _ fun _ => hR.behind _ fun _ => hR.behind _ fun _ => hR.before h _

theorem statementForm (form : StatementForm) :
    R (statementForm inner form) (statementForm inner' form) := by
  cases form with
  | instruction => exact hR.before (hR.instruction h) _

theorem statement : R (statement inner) (statement inner') :=
  hR.behind _ fun _ => hR.firstOf (fun _ => rfl) (hR.statementForm h)

end Congruence

end Rule

/-! ## Readings -/

namespace Entry

variable {α : Type}

/-- The rule by which a text is read, given the rule for expressions. -/
def ruleWith (inner : Rule Expression) : Entry α → Rule α
  | identifier => Rule.identifier
  | label => Rule.label
  | expression => inner
  | assignment => Rule.assignment inner
  | instruction => Rule.instruction inner
  | statement => Rule.statement inner
  | wholeExpression => inner.whole
  | wholeStatement => (Rule.statement inner).whole

theorem rule_eq_ruleWith (entry : Entry α) (limit : NestingLimit) :
    entry.rule limit = entry.ruleWith limit.expression := by
  cases entry <;> rfl

end Entry

theorem Rule.Congruence.entry {R : ∀ {α : Type}, Rule α → Rule α → Prop} (hR : Congruence R)
    {inner inner' : Rule Expression} (h : R inner inner') {α : Type} (entry : Entry α) :
    R (entry.ruleWith inner) (entry.ruleWith inner') := by
  cases entry with
  | identifier => exact hR.refl Rule.identifier
  | label => exact hR.refl Rule.label
  | expression => exact h
  | assignment => exact hR.assignment h
  | instruction => exact hR.instruction h
  | statement => exact hR.statement h
  | wholeExpression => exact hR.whole h
  | wholeStatement => exact hR.whole (hR.statement h)

end Asm65816
