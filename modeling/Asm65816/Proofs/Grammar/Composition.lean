import Asm65816.Proofs.Rule.Trace

/-!
# What all ways of building rules keep

The grammar builds its rules in few ways: one rule after the other, an attempt, a repetition, a
choice. A property that all of these keep is one of the whole grammar as soon as the smallest rules
have it. Where the property tells whether blanks have been read, a small rule is one together with
the blanks in front of it.

The look ahead for an operator stands apart. A choice between the forms of an operand may make up
for it, so that the property need not hold of the form `(e)` by itself. That choice, and the record
of the mode that it comes to, may lack the property even where all the rest has it.
-/

namespace Asm65816.Rule

variable {α β : Type}

/-! ## Rules that never fail -/

/-- A rule that never fails. -/
def Total (r : Rule α) : Prop := r.Fails fun _ => False

theorem total_pure (a : α) : (pure a : Rule α).Total := fails_pure a

theorem total_blanks : blanks.Total := fails_of_ok fun s => ⟨_, parse_blanks s⟩

theorem total_peek : peek.Total := fails_of_ok fun s => ⟨_, parse_peek s⟩

theorem total_takeWhile (p : Char → Bool) : (takeWhile p).Total :=
  fails_of_ok fun s => ⟨_, parse_takeWhile p s⟩

theorem total_record (event : Event) : (record event).Total :=
  fails_of_ok fun s => ⟨_, parse_record event s⟩

theorem total_token? (meaning : Char → Option β) : (token? meaning).Total := by
  refine fails_of_ok fun s => ?_
  cases h : nextToken? meaning s with
  | none => exact ⟨_, parse_token?_of_none h⟩
  | some x => exact ⟨_, parse_token?_of_some h⟩

/-- A size is never missed. -/
theorem total_size? : size?.Total := by
  refine Fails.backIfNone ((total_token? _).bind fun point => ?_)
  cases point with
  | some _ => exact total_token? _
  | none => exact total_pure _

theorem total_standsBefore (chars : List Char) : (standsBefore chars).Total := by
  refine total_peek.bind fun c? => ?_
  cases c? with
  | some _ => exact total_pure _
  | none => exact total_pure _

theorem Total.fails {r : Rule α} (h : r.Total) (P : Failure → Prop) : r.Fails P :=
  h.mono fun _ => False.elim

/-! ## The grammar -/

/-- A property of rules that all ways of building them keep, and that the smallest rules have. -/
structure Compositional (C : ∀ {α : Type}, Rule α → Prop) : Prop where
  /-- A rule that never fails and records nothing. -/
  total {α : Type} {r : Rule α} : r.Total → r.Silent → C r
  /-- One rule after the other. -/
  bind {α β : Type} {r : Rule α} {next : α → Rule β} : C r → (∀ a, C (next a)) → C (r >>= next)
  /-- An attempt. -/
  attempt {α : Type} {r : Rule α} : C r → C r.attempt
  /-- A repetition. -/
  follow {α β : Type} {meaning : Char → Option β} {step : β → α → Rule (Option α)} :
    (∀ b a, C (step b a)) → ∀ a, C (follow meaning step a)
  /-- A choice between other forms than those of an operand. -/
  firstOf {α : Type} {branches : List (Branch α)} {hne : branches ≠ []} :
    (∀ b ∈ branches, C b.rule ∧ ∀ form, b.form ≠ .operand form) → C (firstOf branches hne)
  /-- A token that must be there. -/
  expect (chars : List Char) (what : String) : C (expect chars what)
  /-- A name that must be there. -/
  identifier {β : Type} {next : String → Rule β} :
    (∀ name, C (next name)) → C (blanks >>= fun _ => identifier >>= next)
  /-- A decimal literal. -/
  decimal : C decimal
  /-- A hexadecimal literal. -/
  hexadecimal : C hexadecimal
  /-- Something that must begin with a certain character. -/
  beginning {α : Type} {begins : Option Char → Bool} {what : String} {r : Rule α} :
    C r → C (blanks >>= fun _ => peek >>= fun c? => if begins c? then r else missing what)
  /-- An expression below the last level. -/
  tooDeep (limit : Nat) : C (nested limit 0)

namespace Compositional

variable {C : ∀ {α : Type}, Rule α → Prop} (hC : Compositional @C)

include hC

theorem pure (a : α) : C (pure a : Rule α) := hC.total (total_pure a) (silent_pure a)

theorem blanks : C blanks := hC.total total_blanks silent_blanks

theorem token? (meaning : Char → Option β) : C (token? meaning) :=
  hC.total (total_token? meaning) (silent_token? meaning)

variable {inner : Rule Expression} (h : C inner)

include h

theorem chain (operator? : Char → Option Operator) : C (chain operator? inner) := by
  refine hC.bind h fun first => hC.follow (fun _ _ => hC.bind (hC.attempt h) fun right => ?_) first
  cases right with
  | some _ => exact hC.pure _
  | none => exact hC.pure _

theorem group : C (group inner) :=
  hC.bind (hC.expect _ _) fun _ => hC.bind h fun _ => hC.bind (hC.expect _ _) fun _ => hC.pure _

theorem arguments : C (arguments inner) := by
  refine hC.bind (hC.token? _) fun close => ?_
  cases close with
  | some _ => exact hC.pure _
  | none =>
    refine hC.bind h fun first => hC.bind ?_ fun _ => hC.bind (hC.expect _ _) fun _ => hC.pure _
    exact hC.follow (fun _ _ => hC.bind h fun _ => hC.pure _) [first]

theorem name : C (name inner) := by
  refine hC.identifier fun _ => hC.bind (hC.token? _) fun opening => ?_
  cases opening with
  | some _ => exact hC.bind (hC.arguments h) fun _ => hC.pure _
  | none => exact hC.bind hC.blanks fun _ => hC.pure _

theorem primary : C (primary inner) := by
  refine hC.beginning (hC.firstOf fun b hb => ?_)
  obtain ⟨form, _, rfl⟩ := List.mem_map.mp hb
  refine ⟨?_, fun _ => nofun⟩
  cases form with
  | group => exact hC.group h
  | decimal => exact hC.decimal
  | hexadecimal => exact hC.hexadecimal
  | name => exact hC.name h

theorem sum : C (sum inner) := hC.chain (hC.chain (hC.primary h) _) _

omit h in
/-- **What all ways of building rules keep holds of expressions.** -/
theorem nested (limit n : Nat) : C (nested limit n) := by
  induction n with
  | zero => exact hC.tooDeep limit
  | succ n ih => exact hC.bind hC.blanks fun _ => hC.sum ih

/-- The form `(e)` alone looks ahead for an operator. -/
theorem operandForm {form : OperandForm} (hoperator : form = .indirect → C noOperator) :
    C (operandForm inner form) := by
  refine hC.bind ?_ fun _ => hC.pure _
  have hcommaY : C commaY :=
    hC.bind (hC.expect _ _) fun _ => hC.bind (hC.expect _ _) fun _ => hC.pure _
  have hopen : C (openParenthesis inner) := hC.bind (hC.expect _ _) fun _ => h
  have hclose : C closeParenthesis := hC.bind (hC.expect _ _) fun _ => hC.pure _
  have hbrackets : C (brackets inner) := hC.bind (hC.expect _ _) fun _ => hC.bind h fun _ =>
    hC.bind (hC.expect _ _) fun _ => hC.pure _
  cases form with
  | indirect =>
    exact hC.bind hopen fun _ => hC.bind hclose fun _ => hC.bind (hoperator rfl) fun _ => hC.pure _
  | indirectY =>
    exact hC.bind hopen fun _ => hC.bind hclose fun _ => hC.bind hcommaY fun _ => hC.pure _
  | xIndirect =>
    exact hC.bind hopen fun _ => hC.bind (hC.expect _ _) fun _ => hC.bind (hC.expect _ _) fun _ =>
      hC.bind hclose fun _ => hC.pure _
  | move =>
    exact hC.bind h fun _ => hC.bind (hC.expect _ _) fun _ => hC.bind h fun _ => hC.pure _
  | address => exact hC.bind h fun _ => hC.pure _
  | immediate => exact hC.bind (hC.expect _ _) fun _ => hC.bind h fun _ => hC.pure _
  | longIndirectY => exact hC.bind hbrackets fun _ => hC.bind hcommaY fun _ => hC.pure _
  | longIndirect => exact hC.bind hbrackets fun _ => hC.pure _
  | stackIndirectY =>
    exact hC.bind hopen fun _ => hC.bind (hC.expect _ _) fun _ => hC.bind (hC.expect _ _) fun _ =>
      hC.bind hclose fun _ => hC.bind hcommaY fun _ => hC.pure _

theorem assignment : C (assignment inner) :=
  hC.identifier fun _ => hC.bind (hC.expect _ _) fun _ => hC.bind h fun _ => hC.pure _

omit h in
theorem instruction (hoperand : C (operand inner))
    (hrecord : ∀ mnemonic mode, C (record (.addressed mnemonic mode))) : C (instruction inner) :=
  hC.identifier fun _ => hC.bind (hC.total total_size? silent_size?) fun _ =>
    hC.bind hoperand fun _ => hC.bind (hrecord _ _) fun _ => hC.pure _

omit h in
theorem statement (hoperand : C (operand inner))
    (hrecord : ∀ mnemonic mode, C (record (.addressed mnemonic mode))) : C (statement inner) := by
  refine hC.bind hC.blanks fun _ => hC.firstOf fun b hb => ?_
  obtain rfl := List.mem_singleton.mp hb
  exact ⟨hC.bind (hC.instruction hoperand hrecord) fun _ => hC.pure _, fun _ => nofun⟩

end Compositional

end Asm65816.Rule
