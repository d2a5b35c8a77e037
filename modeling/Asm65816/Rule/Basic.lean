import Asm65816.Trace

/-!
# Rules of a grammar

A rule reads from the front of a text and stands, when it is done, before a part of the text that it
has left over. That is all it knows: a rule does not see the text that others have read before it,
and the place where it stands is given by what is left. A rule that fails stands somewhere too, and
that need not be the place of the failure.

Every rule comes with a proof that it only ever goes forward: what it leaves over, and the text at
the place of a failure, are suffixes of the text that it began with. A repetition ends for that
reason.
-/

namespace Asm65816

/-- A failed reading. -/
structure Failure where
  /-- Why the text does not match. -/
  fault : Fault
  /-- The text from the place of the failure on. -/
  rest : List Char
deriving DecidableEq, Repr

/-- What comes of applying a rule to a text. -/
structure Outcome (α : Type) where
  /-- The value that was read, or why there is none. -/
  result : Except Failure α
  /-- The text before which the rule stands afterwards. -/
  rest : List Char
  /-- What was recorded on the way. -/
  trace : List Event

namespace Outcome

variable {α β : Type}

/-- An outcome lies within a text if the rule went only forward in it. -/
structure Within (o : Outcome α) (s : List Char) : Prop where
  /-- What is left over is a suffix of the text. -/
  rest_suffix : o.rest <:+ s
  /-- The place of a failure is in the text. -/
  failure_suffix : ∀ f, o.result = .error f → f.rest <:+ s

/-- A success lies within a text if what it leaves over does. -/
theorem Within.of_ok {a : α} {rest s : List Char} {trace : List Event} (h : rest <:+ s) :
    ({ result := .ok a, rest, trace } : Outcome α).Within s :=
  ⟨h, fun _ hf => nomatch hf⟩

/-- A failure lies within a text if its place does, and what it leaves over. -/
theorem Within.of_error {f : Failure} {rest s : List Char} {trace : List Event} (h : rest <:+ s)
    (hf : f.rest <:+ s) : ({ result := .error f, rest, trace } : Outcome α).Within s :=
  ⟨h, fun _ hg => by cases hg; exact hf⟩

theorem Within.mono {o : Outcome α} {s t : List Char} (h : o.Within s) (hst : s <:+ t) :
    o.Within t :=
  ⟨h.rest_suffix.trans hst, fun f hf => (h.failure_suffix f hf).trans hst⟩

/-- The outcome with something recorded before it. -/
def after (o : Outcome α) (trace : List Event) : Outcome α := { o with trace := trace ++ o.trace }

/-- Goes on after a success. A failure stays as it is. -/
def andThen (o : Outcome α) (next : α → List Char → Outcome β) : Outcome β :=
  match o.result with
  | .ok a => (next a o.rest).after o.trace
  | .error f => { result := .error f, rest := o.rest, trace := o.trace }

@[simp] theorem after_nil (o : Outcome α) : o.after [] = o := rfl

@[simp] theorem andThen_ok (a : α) (rest : List Char) (trace : List Event)
    (next : α → List Char → Outcome β) :
    ({ result := .ok a, rest, trace } : Outcome α).andThen next = (next a rest).after trace := rfl

@[simp] theorem andThen_error (f : Failure) (rest : List Char) (trace : List Event)
    (next : α → List Char → Outcome β) :
    ({ result := .error f, rest, trace } : Outcome α).andThen next =
      { result := .error f, rest, trace } := rfl

theorem after_andThen (o : Outcome α) (trace : List Event) (next : α → List Char → Outcome β) :
    (o.after trace).andThen next = (o.andThen next).after trace := by
  obtain ⟨result, rest, trace'⟩ := o
  cases result with
  | ok a => simp [after, List.append_assoc]
  | error f => rfl

theorem andThen_assoc {γ : Type} (o : Outcome α) (next : α → List Char → Outcome β)
    (last : β → List Char → Outcome γ) :
    (o.andThen next).andThen last = o.andThen fun a s => (next a s).andThen last := by
  obtain ⟨result, rest, trace⟩ := o
  cases result with
  | ok a => exact after_andThen (next a rest) trace last
  | error f => rfl

/-- Nothing is done after a success. -/
theorem andThen_pure (o : Outcome α) :
    (o.andThen fun a s => { result := .ok a, rest := s, trace := [] }) = o := by
  obtain ⟨result, rest, trace⟩ := o
  cases result with
  | ok a => simp [after]
  | error f => rfl

theorem Within.after {o : Outcome α} {s : List Char} (h : o.Within s) (trace : List Event) :
    (o.after trace).Within s :=
  ⟨h.rest_suffix, h.failure_suffix⟩

theorem Within.andThen {o : Outcome α} {s : List Char} {next : α → List Char → Outcome β}
    (h : o.Within s) (hn : ∀ a t, (next a t).Within t) : (o.andThen next).Within s := by
  unfold Outcome.andThen
  split
  · exact ((hn _ _).mono h.rest_suffix).after _
  · rename_i f hf
    exact .of_error h.rest_suffix (h.failure_suffix f hf)

end Outcome

/-- A rule of a grammar. -/
structure Rule (α : Type) where
  /-- Applies the rule to a text. -/
  run : List Char → Outcome α
  /-- The rule only goes forward. -/
  within : ∀ s, (run s).Within s

namespace Rule

variable {α β : Type}

instance : Monad Rule where
  pure a :=
    { run := fun s => { result := .ok a, rest := s, trace := [] }
      within := fun s => .of_ok (List.suffix_refl s) }
  bind r next :=
    { run := fun s => (r.run s).andThen fun a => (next a).run
      within := fun s => (r.within s).andThen fun a => (next a).within }

@[simp] theorem run_pure (a : α) (s : List Char) :
    (pure a : Rule α).run s = { result := .ok a, rest := s, trace := [] } := rfl

theorem run_bind (r : Rule α) (next : α → Rule β) (s : List Char) :
    (r >>= next).run s = (r.run s).andThen fun a => (next a).run := rfl

/-- A rule is what it does. -/
theorem eq_of_run {r r' : Rule α} (h : ∀ s, r.run s = r'.run s) : r = r' := by
  cases r
  cases r'
  congr
  exact funext h

instance : LawfulMonad Rule :=
  LawfulMonad.mk' Rule
    (fun r => eq_of_run fun s => Outcome.andThen_pure (r.run s))
    (fun _ _ => rfl)
    (fun r _ _ => eq_of_run fun s => Outcome.andThen_assoc (r.run s) _ _)

/-! ## Failing, recording, looking ahead -/

/-- Fails where the text stands, for a reason that depends on the next character. -/
def fail (fault : Option Char → Fault) : Rule α where
  run s := { result := .error ⟨fault s.head?, s⟩, rest := s, trace := [] }
  within s := .of_error (List.suffix_refl s) (List.suffix_refl s)

@[simp] theorem run_fail (fault : Option Char → Fault) (s : List Char) :
    (fail fault : Rule α).run s = { result := .error ⟨fault s.head?, s⟩, rest := s, trace := [] } :=
  rfl

/-- Fails because something is missing. -/
def missing (what : String) : Rule α := fail (.missing what)

@[simp] theorem run_missing (what : String) (s : List Char) :
    (missing what : Rule α).run s =
      { result := .error ⟨.missing what s.head?, s⟩, rest := s, trace := [] } := rfl

/-- Records a step. -/
def record (event : Event) : Rule Unit where
  run s := { result := .ok (), rest := s, trace := [event] }
  within s := .of_ok (List.suffix_refl s)

@[simp] theorem run_record (event : Event) (s : List Char) :
    (record event).run s = { result := .ok (), rest := s, trace := [event] } := rfl

/-- The next character, which is not read. -/
def peek : Rule (Option Char) where
  run s := { result := .ok s.head?, rest := s, trace := [] }
  within s := .of_ok (List.suffix_refl s)

@[simp] theorem run_peek (s : List Char) :
    peek.run s = { result := .ok s.head?, rest := s, trace := [] } := rfl

/-! ## Going back -/

/-- Answers `none` where a rule fails softly. The rule still stands wherever it failed. -/
def attempt (r : Rule α) : Rule (Option α) where
  run s :=
    let o := r.run s
    match o.result with
    | .ok a => { result := .ok (some a), rest := o.rest, trace := o.trace }
    | .error f =>
      { result := if f.fault.isSoft then .ok none else .error f, rest := o.rest, trace := o.trace }
  within s := by
    have h := r.within s
    dsimp only
    split
    · exact .of_ok h.rest_suffix
    · rename_i f hf
      refine ⟨h.rest_suffix, fun g hg => ?_⟩
      dsimp only at hg
      split at hg
      · cases hg
      · cases hg
        exact h.failure_suffix f hf

/-- Goes back to the beginning where a rule answers `none`. -/
def backIfNone (r : Rule (Option α)) : Rule (Option α) where
  run s :=
    let o := r.run s
    match o.result with
    | .ok none => { result := .ok none, rest := s, trace := o.trace }
    | _ => o
  within s := by
    dsimp only
    split
    · exact .of_ok (List.suffix_refl s)
    · exact r.within s

end Rule

end Asm65816
