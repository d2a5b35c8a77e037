import Asm65816.Proofs.Grammar.Primary
import Asm65816.Proofs.Reading
import Asm65816.Proofs.Rule.Alike
import Asm65816.Proofs.Rule.Standing
import Asm65816.Proofs.Session

/-!
# The order of the forms of a primary

The order of the forms is part of the grammar where one text may have several of them. The forms of
a primary are not of that kind. No two of them begin with the same character, so that at most one
gets behind its first character, and if it fails, its failure is further than those of the others.
Whoever tries the forms in another order reads the same, or fails in the same way, and stands in
the same place. Only the trace tells the difference.

Nothing in the grammar looks at the trace, so this goes for the expressions inside a primary as
well, and for all that has expressions in it: one list may be put in the place of another
throughout.
-/

namespace Asm65816

namespace Rule

variable {inner : Rule Expression} {s : List Char}

/-- A primary whose forms are tried in a certain order. -/
def primaryInOrder (inner : Rule Expression) (forms : List PrimaryForm)
    (horder : forms.Perm PrimaryForm.all) : Rule Expression := do
  blanks
  if (← peek).any beginsPrimary then
    firstOf (forms.map (primaryBranch inner)) (by
      rw [Ne, List.map_eq_nil_iff]
      rintro rfl
      cases horder.symm.eq_nil)
  else missing "expression"

/-- The grammar tries the forms in one of the orders. -/
theorem primaryInOrder_all (inner : Rule Expression) :
    primaryInOrder inner PrimaryForm.all (.refl _) = primary inner := rfl

/-- All forms occur in every order, and none of them twice. -/
theorem nodup_of_perm_all {forms : List PrimaryForm} (horder : forms.Perm PrimaryForm.all) :
    forms.Nodup := horder.nodup_iff.mpr (by decide)

/-- What the forms amount to does not depend on their order. -/
theorem alike_primaryInOrder {forms forms' : List PrimaryForm}
    (horder : forms.Perm PrimaryForm.all) (horder' : forms'.Perm PrimaryForm.all) :
    (primaryInOrder inner forms horder).Alike (primaryInOrder inner forms' horder') := by
  intro s
  rw [primaryInOrder, primaryInOrder, run_blanks_then, run_blanks_then, run_peek_then,
    run_peek_then]
  rcases begins_or beginsPrimary (Text.skipBlanks s) with ⟨c, t, hs, hbegins⟩ | hnot
  · obtain ⟨form, hform⟩ := beginsPrimary_iff.mp hbegins
    rw [hs, List.head?_cons, Option.any_some, hbegins, if_pos rfl, if_pos rfl]
    obtain ⟨hresult, hrest⟩ := run_firstOf_congr
      (only_of_begins (horder.mem_iff.mpr form.mem_all) (nodup_of_perm_all horder) hform)
      (only_of_begins (horder'.mem_iff.mpr form.mem_all) (nodup_of_perm_all horder') hform)
      fun _ hf => primaryForm_failure_lt hform hf
    exact Prod.ext hresult hrest
  · have hany : (Text.skipBlanks s).head?.any beginsPrimary = false := by
      rw [Option.any_eq_false]
      exact fun c hc => hnot c hc
    rw [hany]
    rfl

/-! ## The order at every level -/

section

variable (forms : List PrimaryForm) (horder : forms.Perm PrimaryForm.all)

/-- Primaries joined by `*` and `/`. -/
def termInOrder (inner : Rule Expression) : Rule Expression :=
  chain Operator.multiplicative? (primaryInOrder inner forms horder)

/-- An expression with so many levels left, on each of which the forms are tried in the same
order. -/
def nestedInOrder (limit : Nat) : Nat → Rule Expression
  | 0 => nested limit 0
  | levels + 1 => do
    blanks
    chain Operator.additive? (termInOrder forms horder (nestedInOrder limit levels))

variable {inner' : Rule Expression} (h : inner.Alike inner')
include h

theorem Alike.primaryInOrder : (primaryInOrder inner forms horder).Alike (primary inner') :=
  (alike_primaryInOrder horder (.refl _)).trans (congruence_alike.primary h)

theorem Alike.termInOrder : (termInOrder forms horder inner).Alike (term inner') :=
  congruence_alike.chain _ (h.primaryInOrder forms horder)

omit h in
theorem alike_nestedInOrder (limit levels : Nat) :
    (nestedInOrder forms horder limit levels).Alike (nested limit levels) := by
  induction levels with
  | zero => exact .refl _
  | succ levels ih =>
    exact congruence_alike.behind _ fun _ =>
      congruence_alike.chain _ (ih.termInOrder forms horder)

end

end Rule

open Rule

section

variable (limit : NestingLimit) (forms : List PrimaryForm)
  (horder : forms.Perm PrimaryForm.all)

/-- An outermost expression with the forms in a certain order. -/
def NestingLimit.expressionInOrder : Rule Expression :=
  nestedInOrder forms horder limit.levels limit.levels

/-- The rule of a method, with the forms of every primary in a certain order. -/
def Method.ruleInOrder : {α : Type} → Method α → Rule α
  | _, entry e => e.ruleWith (limit.expressionInOrder forms horder)
  | _, term => termInOrder forms horder (limit.expressionInOrder forms horder)
  | _, primary => primaryInOrder (limit.expressionInOrder forms horder) forms horder
  | _, group => Rule.group (limit.expressionInOrder forms horder)
  | _, name => Rule.name (limit.expressionInOrder forms horder)
  | _, arguments => Rule.arguments (limit.expressionInOrder forms horder)
  | _, operand => Rule.operand (limit.expressionInOrder forms horder)
  | _, operandForm form => Rule.operandForm (limit.expressionInOrder forms horder) form
  | _, chain operator? m => Rule.chain operator? m.ruleInOrder
  | _, choice count form method =>
    firstOf ((List.finRange (count + 1)).map fun i =>
      { form := form i, rule := (method i).ruleInOrder }) (by simp [List.finRange_succ])
  -- the other methods have no expressions in them
  | _, m => m.rule limit

theorem Method.alike_ruleInOrder {α : Type} (m : Method α) :
    (m.ruleInOrder limit forms horder).Alike (m.rule limit) := by
  have hinner : (limit.expressionInOrder forms horder).Alike limit.expression :=
    alike_nestedInOrder forms horder limit.levels limit.levels
  induction m with
  | entry e =>
    rw [Method.rule, e.rule_eq_ruleWith]
    exact congruence_alike.entry hinner e
  | term => exact hinner.termInOrder forms horder
  | primary => exact hinner.primaryInOrder forms horder
  | group => exact congruence_alike.group hinner
  | name => exact congruence_alike.name hinner
  | arguments => exact congruence_alike.arguments hinner
  | operand => exact congruence_alike.operand hinner
  | operandForm form => exact congruence_alike.operandForm hinner form
  | chain operator? m ih => exact congruence_alike.chain operator? ih
  | choice count form method ih => exact congruence_alike.firstOf (fun _ => rfl) ih
  | decimal | hexadecimal | digits _ _ _ | size | blanks | endOfText | peek | standsBefore _
  | takeWhile _ | token? _ | expect _ _ | missing _ => exact .refl _

end

namespace Session

variable {α : Type}

/-- A session only sees the result of a rule, and where it stands. -/
theorem step_congr {r r' : Rule α} (h : r.Alike r') (s : Session) : s.step r = s.step r' := by
  obtain ⟨hresult, hrest⟩ := Prod.mk.inj (h s.rest)
  simp only [step, hresult, hrest]

/-- **The forms of a primary may be listed in any order.** Whatever a session is asked for, and
however many primaries there are in it, what comes of it is the same, and so is the place. -/
theorem step_ruleInOrder (limit : NestingLimit) (forms : List PrimaryForm)
    (horder : forms.Perm PrimaryForm.all) (s : Session) (m : Method α) :
    s.step (m.ruleInOrder limit forms horder) = s.call limit m :=
  step_congr (m.alike_ruleInOrder limit forms horder) s

/-- **The forms of a primary may be tried in any order.** Wherever a session stands, and however
deep it is nested, what comes of it is the same, and so is the place. And where a primary is given
up because of its first character, none of the forms is there. -/
theorem step_primaryInOrder (limit : NestingLimit) (levels : Nat) (s : Session)
    (forms : List PrimaryForm) (horder : forms.Perm PrimaryForm.all) :
    s.step (primaryInOrder (nested limit.levels levels) forms horder) =
        s.step (primary (nested limit.levels levels)) ∧
      ((s.step blanks).2.rest.head?.any beginsPrimary = false → ∀ form : PrimaryForm,
        ∃ report, ((s.step blanks).2.step (primaryForm (nested limit.levels levels) form)).1 =
          .error report) := by
  constructor
  · rw [← primaryInOrder_all]
    exact step_congr (alike_primaryInOrder horder (.refl _)) s
  · intro hany form
    have hnot : ∀ c ∈ (Text.skipBlanks s.rest).head?, form.begins c = false := by
      intro c hc
      have hbegins : beginsPrimary c = false := (Option.any_eq_false _ _).mp hany c hc
      rw [Bool.eq_false_iff] at hbegins ⊢
      exact mt (fun hform => beginsPrimary_iff.mpr ⟨form, hform⟩) hbegins
    obtain ⟨_, hf, _⟩ := rejectsAtOnce_of_not_begins (unspaced_skipBlanks s.rest) hnot
    exact ⟨_, step_of_error hf.1⟩

/-- With the names in front, a group of two expressions still fails at the comma, and a bracket is
still no primary. -/
theorem step_primaryInOrder_backwards :
    (start " ((x, y)").step (primaryInOrder (nested 3 2) [.name, .hexadecimal, .decimal, .group]
        (by decide)) = (start " ((x, y)").step (primary (nested 3 2)) ∧
      ((start " ((x, y)").step (primary (nested 3 2))).1 = .error
        { diagnosis := .unexpected "expected ')' to close expression, got ','" none
          position := some 4
          source := some " ((x, y)" } ∧
      ∃ report, (((start " ]").step blanks).2.step (primaryForm (nested 3 2) .name)).1 =
        .error report :=
  ⟨(step_primaryInOrder { levels := 3 } 2 (start " ((x, y)") _ (by decide)).1,
    eq_error_of_error? (by decide +kernel),
    (step_primaryInOrder { levels := 3 } 2 (start " ]") [.name, .hexadecimal, .decimal, .group]
      (by decide)).2 (by decide) .name⟩

end Session

end Asm65816
