import Asm65816.Rule.Basic

/-!
# Choice between forms

The forms are tried in order from the same place, and the first that matches is taken. When none
does, the failure that got furthest into the text says most about it, so that one is the failure of
the choice; of several at one place it is the first. The choice then stands where it began.

A failure because of too deep nesting ends the choice at once.
-/

namespace Asm65816

/-- A form and the rule that reads it. -/
structure Branch (α : Type) where
  /-- The form. -/
  form : Form
  /-- The rule for the form. -/
  rule : Rule α

/-- The one of two failures that is further into the text; the first, if they are at one place. -/
def Failure.further (f g : Failure) : Failure := if g.rest.length < f.rest.length then g else f

theorem Failure.further_eq_or (f g : Failure) : f.further g = f ∨ f.further g = g := by
  unfold Failure.further
  split <;> simp

variable {α : Type}

/-- The outcome of a choice after the failure of its first form. -/
def Outcome.afterFailure (o : Outcome α) (f : Failure) : Outcome α :=
  match o.result with
  | .ok _ => o
  | .error g => if g.fault.isTooDeep then o else { o with result := .error (f.further g) }

/-- Tries one form. Where the text does not have it this is recorded, and the reading goes on with
the failure and all that was recorded so far. -/
def Branch.tryOn (b : Branch α) (s : List Char) (goOn : Failure → List Event → Outcome α) :
    Outcome α :=
  let o := b.rule.run s
  match o.result with
  | .ok _ => o
  | .error f =>
    -- nesting too deep is not recorded as a rejection
    if f.fault.isTooDeep then o else goOn f (o.trace ++ [.rejected b.form f.fault])

/-- Tries a form, and then the others in order. -/
def tryForms (s : List Char) : Branch α → List (Branch α) → Outcome α
  | b, [] => b.tryOn s fun f trace => { result := .error f, rest := s, trace }
  | b, next :: others =>
    b.tryOn s fun f trace => ((tryForms s next others).afterFailure f).after trace

theorem Branch.tryOn_within {b : Branch α} {s : List Char}
    {goOn : Failure → List Event → Outcome α}
    (h : ∀ f trace, f.rest <:+ s → (goOn f trace).Within s) : (b.tryOn s goOn).Within s := by
  unfold Branch.tryOn
  dsimp only
  split
  · exact b.rule.within s
  · rename_i f hf
    split
    · exact b.rule.within s
    · exact h f _ ((b.rule.within s).failure_suffix f hf)

theorem Outcome.Within.afterFailure {o : Outcome α} {s : List Char} {f : Failure}
    (h : o.Within s) (hf : f.rest <:+ s) : (o.afterFailure f).Within s := by
  unfold Outcome.afterFailure
  split
  · exact h
  · rename_i g hg
    split
    · exact h
    · refine .of_error h.rest_suffix ?_
      -- the failure of the choice is the failure of one of its forms
      rcases f.further_eq_or g with e | e <;> rw [e]
      · exact hf
      · exact h.failure_suffix g hg

theorem tryForms_within (s : List Char) (b : Branch α) (others : List (Branch α)) :
    (tryForms s b others).Within s := by
  induction others generalizing b with
  | nil =>
    exact Branch.tryOn_within fun f _ hf => .of_error (List.suffix_refl s) hf
  | cons next others ih =>
    exact Branch.tryOn_within fun f trace hf => ((ih next).afterFailure hf).after trace

/-- Reads the first of the forms that the text has. There must be one to choose from. -/
def Rule.firstOf : (branches : List (Branch α)) → branches ≠ [] → Rule α
  | first :: others, _ =>
    { run := fun s => tryForms s first others
      within := fun s => tryForms_within s first others }

end Asm65816
