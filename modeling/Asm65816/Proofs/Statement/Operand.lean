import Asm65816.Proofs.Expression.RoundTrip
import Asm65816.Proofs.Rule.Choice

/-!
# What is read as an operand

An operand is read in one of the nine forms, and the forms in front of that one refuse the text. Its
expressions are those of the grammar, with one exception in the number of their levels: the form
`(e,s),y` begins like a group, and before its turn comes the text is tried as `e,e`. There the inner
expression stands one level further down. Had it no room there, the text would fail by its nesting.
-/

namespace Asm65816

open Rule

/-- The sign with which a form begins, unless it begins with an expression. -/
def OperandForm.sign? : OperandForm → Option Char
  | .indirectY | .indirect | .xIndirect | .stackIndirectY => some '('
  | .immediate => some '#'
  | .longIndirectY | .longIndirect => some '['
  | .move | .address => none

/-- The levels that are left for the expression inside of a form. -/
def OperandForm.levelsInside (n : Nat) : OperandForm → Nat
  | .stackIndirectY => n - 1
  | _ => n

theorem OperandForm.levelsInside_le (n : Nat) (form : OperandForm) : form.levelsInside n ≤ n := by
  cases form <;> first | exact Nat.le_refl n | exact Nat.sub_le n 1

/-- A form is tried before another. -/
def OperandForm.Before (f g : OperandForm) : Prop := all.idxOf f < all.idxOf g

instance (f g : OperandForm) : Decidable (f.Before g) := Nat.decLt _ _

theorem OperandForm.before_move_iff {form : OperandForm} :
    form.Before .move ↔ form = .indirectY ∨ form = .indirect ∨ form = .xIndirect := by
  cases form <;> decide

/-- An operand that is read from its text within a number of levels. -/
inductive Operand.Readable (n : Nat) : Operand → Prop where
  | single {form : OperandForm} {value : Expression} :
      form ≠ .move → value.Readable (form.levelsInside n) →
      Operand.Readable n { mode := form.mode, value, second := none }
  | move {value second : Expression} :
      value.Readable n → second.Readable n →
      Operand.Readable n { mode := .move, value, second := some second }

/-- An operand is read from its text if its expressions are, with the levels that its form leaves
for them. -/
theorem Operand.readable_of_parts {n : Nat} {o : Operand} {form : OperandForm}
    (hform : o.mode = form.mode) (hmove : o.mode = .move ↔ o.second.isSome)
    (hvalue : o.value.Readable (form.levelsInside n))
    (hsecond : ∀ e, o.second = some e → e.Readable n) : o.Readable n := by
  obtain ⟨mode, value, second⟩ := o
  simp only at hform hmove hvalue hsecond
  subst hform
  -- a second address belongs to block moves alone
  by_cases hm : form = .move
  · subst hm
    obtain ⟨e, rfl⟩ := Option.isSome_iff_exists.mp (hmove.mp rfl)
    exact .move hvalue (hsecond e rfl)
  · have hnone : second = none := by
      rw [← Option.not_isSome_iff_eq_none, ← hmove]
      exact fun hmode => hm (OperandForm.mode_injective (g := .move) hmode)
    subst hnone
    exact .single hm hvalue

namespace Rule

variable {inner : Rule Expression} {form : OperandForm} {s t : List Char} {o : Operand}

/-! ## The form that is taken -/

theorem skipsBlanks_operandExpressions (h : inner.SkipsBlanks) (form : OperandForm) :
    (operandExpressions inner form).SkipsBlanks := by
  cases form with
  | indirectY | indirect | xIndirect | stackIndirectY | longIndirectY | longIndirect =>
    exact ((skipsBlanks_expect _ _).bind _).bind _
  | immediate => exact (skipsBlanks_expect _ _).bind _
  | move | address => exact h.bind _

theorem skipsBlanks_operand (h : inner.SkipsBlanks) : (operand inner).SkipsBlanks := by
  refine SkipsBlanks.firstOf ?_
  intro b hb
  obtain ⟨form, _, rfl⟩ := List.mem_map.mp hb
  exact (skipsBlanks_operandExpressions h form).bind _

theorem parse_operandForm_eq_ok_iff :
    (operandForm inner form).parse s = .ok (o, t) ↔
      ∃ value second, (operandExpressions inner form).parse s = .ok ((value, second), t) ∧
        o = { mode := form.mode, value, second } := by
  rw [operandForm, parse_bind_eq_ok_iff]
  constructor
  · rintro ⟨⟨value, second⟩, u, hparts, h⟩
    obtain ⟨rfl, rfl⟩ := eq_of_parse_pure h
    exact ⟨value, second, hparts, rfl⟩
  · rintro ⟨value, second, hparts, rfl⟩
    exact ⟨(value, second), t, hparts, rfl⟩

/-- To give the parts the name of their mode changes no failure. -/
theorem rejects_operandBranch_iff :
    (operandBranch inner form).Rejects s ↔ (operandExpressions inner form).Refuses s :=
  exists_congr fun _ => and_congr_left' parse_bind_pure_eq_error_iff

/-- **An operand is read in the first form that does not refuse the text.** -/
theorem parse_operand_eq_ok_iff :
    (operand inner).parse s = .ok (o, t) ↔
      ∃ form, (∀ g, g.Before form → (operandExpressions inner g).Refuses s) ∧
        ∃ value second, (operandExpressions inner form).parse s = .ok ((value, second), t) ∧
          o = { mode := form.mode, value, second } := by
  rw [operand, parse_firstOf_eq_ok_iff]
  constructor
  · rintro ⟨b, hb, hparse⟩
    obtain ⟨form, _, rfl, hbefore⟩ := reached_map_iff.mp hb
    refine ⟨form, fun g hg => ?_, parse_operandForm_eq_ok_iff.mp hparse⟩
    exact rejects_operandBranch_iff.mp (hbefore g (OperandForm.mem_all g) hg)
  · rintro ⟨form, hbefore, hparts⟩
    refine ⟨operandBranch inner form, reached_map_iff.mpr ⟨form, OperandForm.mem_all form, rfl, ?_⟩,
      parse_operandForm_eq_ok_iff.mpr hparts⟩
    intro g _ hg
    exact rejects_operandBranch_iff.mpr (hbefore g hg)

/-- An operand is what the first form makes of the text that does not refuse it. -/
theorem parse_operand_of_form (hbefore : ∀ g, g.Before form → (operandForm inner g).Refuses s)
    (hform : ¬(operandForm inner form).Refuses s) :
    (operand inner).parse s = (operandForm inner form).parse s :=
  parse_firstOf_of_reached (b := operandBranch inner form)
    (reached_map_iff.mpr ⟨form, form.mem_all, rfl, fun g _ => hbefore g⟩) hform

/-- A form that begins with an expression fails where the expression does. -/
theorem parse_operandForm_of_value_error {f : Failure} (hsign : form.sign? = none)
    (h : inner.parse s = .error f) : (operandForm inner form).parse s = .error f := by
  cases form with
  | move | address => exact parse_bind_of_error (parse_bind_of_error h)
  | indirectY | indirect | xIndirect | immediate | longIndirectY | longIndirect
  | stackIndirectY => cases hsign

/-- An operand fails as one of its forms does if the others fail so too, or not so far in the
text. -/
theorem parse_operand_of_furthest (form : OperandForm) {f : Failure}
    (hd : f.fault.isTooDeep = false)
    (hform : (operandForm inner form).parse s = .error f)
    (hall : ∀ g, ∃ f', (operandForm inner g).parse s = .error f' ∧ f'.fault.isTooDeep = false ∧
      (f' = f ∨ f.rest.length < f'.rest.length)) : (operand inner).parse s = .error f := by
  refine parse_firstOf_of_furthest ⟨_, List.mem_map_of_mem form.mem_all, hform, hd⟩ fun b hb => ?_
  obtain ⟨g, _, rfl⟩ := List.mem_map.mp hb
  obtain ⟨f', hf', hd', hor⟩ := hall g
  exact ⟨f', ⟨hf', hd'⟩, hor⟩

/-! ## The expressions of a form -/

theorem gives_openParenthesis {P : Expression → Prop} (h : inner.Gives P) :
    (openParenthesis inner).Gives P := gives_then fun _ => h

theorem gives_brackets {P : Expression → Prop} (h : inner.Gives P) : (brackets inner).Gives P :=
  gives_then fun _ => h.bind fun _ he => gives_then fun _ => gives_pure he

/-- Every form but the block move holds one expression. -/
theorem gives_operandExpressions {P : Expression → Prop} (h : inner.Gives P)
    (hform : form ≠ .move) :
    (operandExpressions inner form).Gives fun x => P x.1 ∧ x.2 = none := by
  cases form with
  | indirectY | indirect =>
    exact (gives_openParenthesis h).bind fun _ he =>
      gives_then fun _ => gives_then fun _ => gives_pure ⟨he, rfl⟩
  | xIndirect =>
    exact (gives_openParenthesis h).bind fun _ he =>
      gives_then fun _ => gives_then fun _ => gives_then fun _ => gives_pure ⟨he, rfl⟩
  | stackIndirectY =>
    exact (gives_openParenthesis h).bind fun _ he => gives_then fun _ => gives_then fun _ =>
      gives_then fun _ => gives_then fun _ => gives_pure ⟨he, rfl⟩
  | move => exact absurd rfl hform
  | address => exact h.bind fun _ he => gives_pure ⟨he, rfl⟩
  | immediate => exact gives_then fun _ => h.bind fun _ he => gives_pure ⟨he, rfl⟩
  | longIndirectY =>
    exact (gives_brackets h).bind fun _ he => gives_then fun _ => gives_pure ⟨he, rfl⟩
  | longIndirect => exact (gives_brackets h).bind fun _ he => gives_pure ⟨he, rfl⟩

/-- A block move holds two expressions. -/
theorem gives_move {P : Expression → Prop} (h : inner.Gives P) :
    (operandExpressions inner .move).Gives fun x => P x.1 ∧ ∃ e, x.2 = some e ∧ P e :=
  h.bind fun _ hvalue => gives_then fun _ => h.bind fun e he => gives_pure ⟨hvalue, e, rfl, he⟩

/-! ## The group that an expression begins with -/

section

variable {limit n : Nat} {u r t : List Char} {e : Expression} {f : Failure}

/-- A group that fails makes an expression fail that begins with it. -/
theorem parse_nested_of_group_error (h : (group (nested limit n)).parse ('(' :: u) = .error f) :
    (nested limit (n + 1)).parse ('(' :: u) = .error f := by
  rw [parse_nested_succ, sum, chain_eq, term, chain_eq, bind_assoc]
  exact parse_bind_of_error (parse_primary_open.trans h)

theorem parse_nested_open_of_error (h : (nested limit n).parse u = .error f) :
    (nested limit (n + 1)).parse ('(' :: u) = .error f := by
  refine parse_nested_of_group_error ?_
  rw [group, parse_bind_of_ok (parse_expect_sign (by decide))]
  exact parse_bind_of_error ((skipsBlanks_nested limit n u).trans h)

theorem parse_nested_open_of_not_close (he : (nested limit n).parse u = .ok (e, r))
    (hclose : (expect [')'] "')' to close expression").parse r = .error f) :
    (nested limit (n + 1)).parse ('(' :: u) = .error f := by
  refine parse_nested_of_group_error ?_
  rw [group, parse_bind_of_ok (parse_expect_sign (by decide)),
    parse_bind_of_ok ((skipsBlanks_nested limit n u).trans he)]
  exact parse_bind_of_error hclose

theorem parse_primary_of_close {c : Char} (he : (nested limit n).parse u = .ok (e, r))
    (hclose : (expect [')'] "')' to close expression").parse r = .ok (c, t)) :
    (primary (nested limit n)).parse ('(' :: u) = .ok (e, t) := by
  rw [parse_primary_open, group, parse_bind_of_ok (parse_expect_sign (by decide)),
    parse_bind_of_ok ((skipsBlanks_nested limit n u).trans he), parse_bind_of_ok hclose, parse_pure]

end

/-! ## Nesting too deep -/

/-- Where a text is refused as a block move, what stands in parentheses in front of it does not nest
too deep for a group. -/
theorem not_tooDeep_of_move {limit n : Nat} {s u : List Char} {f : Failure}
    (hs : Text.skipBlanks s = '(' :: u)
    (hmove : (operandExpressions (nested limit (n + 1)) .move).Refuses s)
    (hf : (nested limit n).parse (Text.skipBlanks u) = .error f) : f.fault.isTooDeep = false := by
  rw [skipsBlanks_nested] at hf
  have hopen := parse_nested_open_of_error hf
  rw [← hs, skipsBlanks_nested] at hopen
  have hfail : (operandExpressions (nested limit (n + 1)) .move).parse s = .error f :=
    parse_bind_of_error hopen
  obtain ⟨g, hg, hdeep⟩ := hmove
  rw [hfail] at hg
  cases hg
  exact hdeep

/-- Where a text is refused as a block move, an expression between a parenthesis and a comma has
room for another level. -/
theorem levels_le_of_move {limit n : Nat} {s u : List Char} {w : Blanks} {e : Derivation.Spaced}
    (hs : Text.skipBlanks s = '(' :: (w.chars ++ (e.text ++ ',' :: u))) (hfits : e.Fits)
    (hmove : (operandExpressions (nested limit (n + 1)) .move).Refuses s) : e.levels ≤ n := by
  cases hf : e.fault? limit n (',' :: u) with
  | none => exact ((e.fault?_eq_none_iff n (',' :: u)).mp hf).1
  | some f =>
    -- then the text has failed as a block move, in the group that it begins like
    have hend : ',' ∈ endSigns := by decide
    have hinner : (nested limit n).parse (e.text ++ ',' :: u) = _ :=
      e.parse_text n (follows_endSign e.after u hend) (noOperator_endSign u hend)
    rw [hf, ← (skipsBlanks_nested limit n).parse_append w, ← skipsBlanks_nested] at hinner
    have hdeep := not_tooDeep_of_move hs hmove hinner
    rw [Derivation.Spaced.tooDeep_of_fault? hf hfits] at hdeep
    cases hdeep

/-- Where the form `(e,s),y` is read, the text was refused as a group, and not for its nesting. -/
theorem readable_of_stackIndirectY {limit n : Nat} {s t : List Char}
    {x : Expression × Option Expression}
    (h : (operandExpressions (nested limit n) .stackIndirectY).parse s = .ok (x, t))
    (hmove : (operandExpressions (nested limit n) .move).Refuses s) :
    x.1.Readable (n - 1) := by
  obtain ⟨value, u, hvalue, h⟩ := parse_bind_eq_ok_iff.mp h
  obtain ⟨comma, w, hcomma, h⟩ := parse_bind_eq_ok_iff.mp h
  obtain ⟨_, _, _, h⟩ := parse_bind_eq_ok_iff.mp h
  obtain ⟨_, _, _, h⟩ := parse_bind_eq_ok_iff.mp h
  obtain ⟨_, _, _, h⟩ := parse_bind_eq_ok_iff.mp h
  obtain ⟨rfl, _⟩ := eq_of_parse_pure h
  obtain ⟨c, v, hopen, hvalue⟩ := parse_bind_eq_ok_iff.mp hvalue
  obtain ⟨v, hs, hc, rfl⟩ := parse_expect_eq_ok_iff.mp hopen
  rw [skipsBlanks_nested] at hvalue
  obtain ⟨d, rfl, rfl, hlevels, hfits, hu⟩ := (Derivation.reads_nested limit n).derives hvalue
  obtain ⟨u, rfl, hmem, _⟩ := hu.eq_cons_of_parse_expect hcomma
  obtain ⟨n, rfl⟩ : ∃ m, n = m + 1 := Nat.exists_eq_succ_of_ne_zero (by
    have := d.levels_pos
    omega)
  rw [Nat.add_sub_cancel]
  rw [List.mem_singleton.mp hc] at hs
  rw [List.mem_singleton.mp hmem] at hs
  have hle := levels_le_of_move (w := .none) hs hfits hmove
  exact Expression.readable_of_derives ⟨d, rfl, rfl, hle, hfits⟩

/-- **An operand that is read is readable**, in the same form and within the same levels. -/
theorem readable_of_parse_operand {limit n : Nat} {s t : List Char} {o : Operand}
    (h : (operand (nested limit n)).parse s = .ok (o, t)) : o.Readable n := by
  have hinner : (nested limit n).Gives (·.Readable n) := fun _ _ _ => Expression.readable_of_parse
  obtain ⟨form, hbefore, value, second, hparts, rfl⟩ := parse_operand_eq_ok_iff.mp h
  by_cases hmove : form = .move
  · subst hmove
    obtain ⟨hvalue, e, rfl, he⟩ := gives_move hinner hparts
    exact .move hvalue he
  · obtain ⟨hvalue, rfl⟩ := gives_operandExpressions hinner hmove hparts
    refine .single hmove ?_
    by_cases hstack : form = .stackIndirectY
    · subst hstack
      exact readable_of_stackIndirectY hparts (hbefore .move (by decide))
    · cases form <;> first | exact hvalue | exact absurd rfl hstack

end Rule

end Asm65816
