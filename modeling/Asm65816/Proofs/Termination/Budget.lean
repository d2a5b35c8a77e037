import Asm65816.Rule.Statement

/-!
# Readings on a budget

The rules end because they were built so that they must: an expression has fewer levels left than
the one that it stands in, and every round of a repetition leaves a shorter text. Here nothing of
this is taken for granted. A reading on a budget has no measure of its own. A repetition goes on for
as many rounds as the budget has, and where the budget is used up there is no outcome.

A rule comes to an end, then, if on some budget there is an outcome. It must be the outcome of the
rule.
-/

namespace Asm65816

variable {α β : Type}

/-- A reading that has no outcome where its budget is used up. -/
structure Budgeted (α : Type) where
  /-- Reads a text. -/
  run : List Char → Option (Outcome α)

namespace Budgeted

instance : Monad Budgeted where
  pure a := { run := fun s => some { result := .ok a, rest := s, trace := [] } }
  bind b next :=
    { run := fun s => (b.run s).bind fun o =>
        match o.result with
        | .ok a => ((next a).run o.rest).map (·.after o.trace)
        | .error f => some { result := .error f, rest := o.rest, trace := o.trace } }

/-- A rule that takes nothing from the budget. -/
instance : MonadLift Rule Budgeted where
  monadLift r := { run := fun s => some (r.run s) }

/-- There is nothing left. -/
def usedUp : Budgeted α := { run := fun _ => none }

/-- Answers `none` where a reading fails softly. -/
def attempt (b : Budgeted α) : Budgeted (Option α) where
  run s := (b.run s).map fun o =>
    match o.result with
    | .ok a => { result := .ok (some a), rest := o.rest, trace := o.trace }
    | .error f =>
      { result := if f.fault.isSoft then .ok none else .error f, rest := o.rest, trace := o.trace }

/-- Goes on from a value while a token with a meaning follows, for so many rounds at most. -/
def followFrom (meaning : Char → Option β) (step : β → α → Budgeted (Option α)) :
    Nat → α → List Char → Option (Outcome α)
  | 0, _, _ => none
  | rounds + 1, a, s =>
    match nextToken? meaning s with
    | none => some { result := .ok a, rest := s, trace := [] }
    | some (b, t) =>
      ((step b a).run t).bind fun o =>
        match o.result with
        | .error f => some { result := .error f, rest := o.rest, trace := o.trace }
        | .ok none => some { result := .ok a, rest := s, trace := o.trace }
        | .ok (some a') => (followFrom meaning step rounds a' o.rest).map (·.after o.trace)

/-- Goes on from a value while a token with a meaning follows. -/
def follow (budget : Nat) (meaning : Char → Option β) (step : β → α → Budgeted (Option α)) (a : α) :
    Budgeted α where
  run := followFrom meaning step budget a

/-- A form and the reading of it. -/
structure Branch (α : Type) where
  /-- The form. -/
  form : Form
  /-- The reading of the form. -/
  reading : Budgeted α

/-- Tries one form. -/
def Branch.tryOn (b : Branch α) (s : List Char)
    (goOn : Failure → List Event → Option (Outcome α)) : Option (Outcome α) :=
  (b.reading.run s).bind fun o =>
    match o.result with
    | .ok _ => some o
    | .error f =>
      if f.fault.isTooDeep then some o else goOn f (o.trace ++ [.rejected b.form f.fault])

/-- Tries a form, and then the others in order. -/
def tryForms (s : List Char) : Branch α → List (Branch α) → Option (Outcome α)
  | b, [] => b.tryOn s fun f trace => some { result := .error f, rest := s, trace }
  | b, next :: others =>
    b.tryOn s fun f trace =>
      (tryForms s next others).map fun o => (o.afterFailure f).after trace

/-- Reads the first of the forms that the text has. -/
def firstOf : (branches : List (Branch α)) → branches ≠ [] → Budgeted α
  | first :: others, _ => { run := fun s => tryForms s first others }

/-! ## Completion -/

/-- A text that is shorter than a number of characters is read as a rule reads it. -/
def Completes (b : Budgeted α) (n : Nat) (r : Rule α) : Prop :=
  ∀ s : List Char, s.length < n → b.run s = some (r.run s)

variable {n : Nat} {b : Budgeted α} {r : Rule α}

theorem completes_pure (a : α) : (pure a : Budgeted α).Completes n (pure a) := fun _ _ => rfl

/-- What takes nothing from the budget. -/
theorem completes_lift (r : Rule α) : (liftM r : Budgeted α).Completes n r := fun _ _ => rfl

theorem Completes.bind {next : α → Budgeted β} {next' : α → Rule β} (h : b.Completes n r)
    (hnext : ∀ a, (next a).Completes n (next' a)) : (b >>= next).Completes n (r >>= next') := by
  intro s hs
  show (b.run s).bind _ = some ((r.run s).andThen _)
  rw [h s hs, Option.bind_some, Outcome.andThen]
  cases hr : (r.run s).result with
  | error f => rfl
  | ok a =>
    have hrest := (r.within s).rest_suffix.length_le
    dsimp only
    rw [hnext a _ (by omega), Option.map_some]

theorem Completes.attempt (h : b.Completes n r) : b.attempt.Completes n r.attempt := by
  intro s hs
  show (b.run s).map _ = some _
  rw [h s hs, Option.map_some]
  cases hr : (r.run s).result with
  | ok a => simp only [Rule.attempt, hr]
  | error f => simp only [Rule.attempt, hr]

/-- Every round leaves a shorter text, so that there are no more rounds than characters. -/
theorem Completes.follow {budget : Nat} {meaning : Char → Option β}
    {step : β → α → Budgeted (Option α)} {step' : β → α → Rule (Option α)} (hn : n ≤ budget)
    (h : ∀ b a, (step b a).Completes n (step' b a)) (a : α) :
    (follow budget meaning step a).Completes n (Rule.follow meaning step' a) := by
  intro s hs
  show followFrom meaning step budget a s = some (Asm65816.followFrom meaning step' a s)
  have hlt : s.length < budget := Nat.lt_of_lt_of_le hs hn
  clear hn
  induction budget generalizing a s with
  | zero => exact absurd hlt (Nat.not_lt_zero _)
  | succ rounds ih =>
    rw [followFrom]
    cases ht : nextToken? meaning s with
    | none => rw [followFrom_of_none ht]
    | some x =>
      obtain ⟨c, t⟩ := x
      have htoken := (nextToken?_suffix ht).2
      have hrest := ((step' c a).within t).rest_suffix.length_le
      dsimp only
      rw [followFrom_of_some ht, h c a t (by omega), Option.bind_some]
      dsimp only
      cases hround : ((step' c a).run t).result with
      | error f => rfl
      | ok a? =>
        cases a? with
        | none => rfl
        | some a' =>
          dsimp only
          rw [ih a' _ (by omega) (by omega), Option.map_some]

section Choice

/-- The reading of a form completes as the rule for it does. -/
structure Branch.Completes (b : Branch α) (n : Nat) (b' : Asm65816.Branch α) : Prop where
  /-- The form is the same. -/
  form : b.form = b'.form
  /-- The reading completes. -/
  reading : b.reading.Completes n b'.rule

theorem Branch.Completes.tryOn {b : Branch α} {b' : Asm65816.Branch α} {s : List Char}
    {goOn : Failure → List Event → Option (Outcome α)} {goOn' : Failure → List Event → Outcome α}
    (h : b.Completes n b') (hs : s.length < n)
    (hgoOn : ∀ f trace, goOn f trace = some (goOn' f trace)) :
    b.tryOn s goOn = some (b'.tryOn s goOn') := by
  unfold Branch.tryOn Asm65816.Branch.tryOn
  rw [h.reading s hs, Option.bind_some, h.form]
  dsimp only
  cases (b'.rule.run s).result with
  | ok a => rfl
  | error f =>
    dsimp only
    split
    · rfl
    · exact hgoOn _ _

variable {ι : Type} {f : ι → Branch α} {f' : ι → Asm65816.Branch α}

theorem completes_tryForms (h : ∀ i, (f i).Completes n (f' i)) {s : List Char} (hs : s.length < n)
    (i : ι) (others : List ι) :
    tryForms s (f i) (others.map f) = some (Asm65816.tryForms s (f' i) (others.map f')) := by
  induction others generalizing i with
  | nil => exact (h i).tryOn hs fun _ _ => rfl
  | cons j others ih =>
    refine (h i).tryOn hs fun g trace => ?_
    rw [ih j, Option.map_some]

theorem completes_firstOf {l : List ι} {hne : l.map f ≠ []} {hne' : l.map f' ≠ []}
    (h : ∀ i, (f i).Completes n (f' i)) :
    (firstOf (l.map f) hne).Completes n (Rule.firstOf (l.map f') hne') := by
  cases l with
  | nil => exact absurd rfl hne
  | cons i others => exact fun s hs => completes_tryForms h hs i others

end Choice

end Budgeted

end Asm65816
