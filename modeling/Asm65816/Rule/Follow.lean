import Asm65816.Rule.Token

/-!
# Repetition behind tokens

Some rules go on as long as a certain token follows: a chain of operands behind operators, a list
behind commas. Every round reads the token at least, so what is left gets shorter and the repetition
ends.
-/

namespace Asm65816

variable {α β : Type}

/-- Goes on from a value while a token with a meaning follows. A round that answers `none` is given
back together with its token, and ends the repetition. -/
def followFrom (meaning : Char → Option β) (step : β → α → Rule (Option α)) (a : α)
    (s : List Char) : Outcome α :=
  match _ : nextToken? meaning s with
  | none => { result := .ok a, rest := s, trace := [] }
  | some (b, t) =>
    let o := (step b a).run t
    match o.result with
    | .error f => { result := .error f, rest := o.rest, trace := o.trace }
    -- the round goes back to before its token, but what it recorded stays
    | .ok none => { result := .ok a, rest := s, trace := o.trace }
    | .ok (some a') => (followFrom meaning step a' o.rest).after o.trace
termination_by s.length
decreasing_by
  -- the token alone makes the rest shorter, and the round only goes on from there
  rename_i h
  have h₁ := ((step b a).within t).rest_suffix.length_le
  have h₂ := (nextToken?_suffix h).2
  omega

/-- Without a token the repetition is over. -/
theorem followFrom_of_none {meaning : Char → Option β} {s : List Char}
    (h : nextToken? meaning s = none) (step : β → α → Rule (Option α)) (a : α) :
    followFrom meaning step a s = { result := .ok a, rest := s, trace := [] } := by
  rw [followFrom]
  split
  · rfl
  · rename_i h'
    rw [h] at h'
    cases h'

/-- A token leads to a round. -/
theorem followFrom_of_some {meaning : Char → Option β} {s t : List Char} {b : β}
    (h : nextToken? meaning s = some (b, t)) (step : β → α → Rule (Option α)) (a : α) :
    followFrom meaning step a s =
      let o := (step b a).run t
      match o.result with
      | .error f => { result := .error f, rest := o.rest, trace := o.trace }
      | .ok none => { result := .ok a, rest := s, trace := o.trace }
      | .ok (some a') => (followFrom meaning step a' o.rest).after o.trace := by
  rw [followFrom]
  split
  · rename_i h'
    rw [h] at h'
    cases h'
  · rename_i h'
    rw [h] at h'
    cases h'
    rfl

theorem followFrom_within (meaning : Char → Option β) (step : β → α → Rule (Option α)) (a : α)
    (s : List Char) : (followFrom meaning step a s).Within s := by
  fun_induction followFrom meaning step a s with
  | case1 => exact .of_ok (List.suffix_refl _)
  | case2 a s b t h o f hf =>
    have ho := ((step b a).within t).mono (nextToken?_suffix h).1
    exact .of_error ho.rest_suffix (ho.failure_suffix f hf)
  | case3 => exact .of_ok (List.suffix_refl _)
  | case4 a s b t h o a' ha ih =>
    have ho := ((step b a).within t).mono (nextToken?_suffix h).1
    exact (ih.mono ho.rest_suffix).after _

/-- Goes on from a value while a token with a meaning follows. -/
def Rule.follow (meaning : Char → Option β) (step : β → α → Rule (Option α)) (a : α) : Rule α where
  run := followFrom meaning step a
  within := followFrom_within meaning step a

end Asm65816
