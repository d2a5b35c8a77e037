import Asm65816.Proofs.Parser.Simulation
import Asm65816.Proofs.Rule.Trace

/-!
# Choice on a parser

A parser tries one form after the other and keeps the furthest failure as it goes. The choice
between rules is told from the other end: a form that is passed over has its failure compared to
that of all the others together. It comes to the same, because of three failures the furthest is
found in either way.
-/

namespace Asm65816

variable {α : Type}

/-! ## Failures of several forms -/

theorem Failure.further_further (f g h : Failure) :
    (f.further g).further h = f.further (g.further h) := by
  unfold Failure.further
  grind

theorem Outcome.after_afterFailure (o : Outcome α) (f : Failure) (trace : List Event) :
    (o.after trace).afterFailure f = (o.afterFailure f).after trace := by
  obtain ⟨result, rest, trace'⟩ := o
  cases result with
  | ok a => rfl
  | error g =>
    simp only [afterFailure, after]
    split
    · rfl
    · rfl

/-- Two failures in front are compared to each other first. -/
theorem Outcome.afterFailure_afterFailure (o : Outcome α) {f g : Failure}
    (hg : g.fault.isTooDeep = false) :
    (o.afterFailure g).afterFailure f = o.afterFailure (f.further g) := by
  obtain ⟨result, rest, trace⟩ := o
  cases result with
  | ok a => rfl
  | error h =>
    cases hh : h.fault.isTooDeep with
    | true => simp [afterFailure, hh]
    | false =>
      have hgh : (g.further h).fault.isTooDeep = false := by
        rcases g.further_eq_or h with e | e <;> rw [e]
        · exact hg
        · exact hh
      simp [afterFailure, hh, hgh, f.further_further]

/-- A form that is not passed over is not compared to the failures in front. -/
theorem Branch.afterFailure_tryOn (b : Branch α) (s : List Char) (f : Failure)
    (goOn : Failure → List Event → Outcome α) :
    (b.tryOn s goOn).afterFailure f = b.tryOn s fun g trace => (goOn g trace).afterFailure f := by
  by_cases hb : b.Rejects s
  · obtain ⟨g, hg⟩ := hb
    rw [tryOn_of_rejectsWith hg, tryOn_of_rejectsWith hg]
  · rw [tryOn_of_not_rejects hb, tryOn_of_not_rejects hb]
    exact afterFailure_of_not_rejects hb [] f

/-- What becomes of a choice behind forms that were passed over, given the furthest of their
failures. -/
def tryOthers (s : List Char) (f : Failure) : List (Branch α) → Outcome α
  | [] => { result := .error f, rest := s, trace := [] }
  | b :: others => (tryForms s b others).afterFailure f

theorem tryForms_eq (s : List Char) (b : Branch α) (others : List (Branch α)) :
    tryForms s b others = b.tryOn s fun f trace => (tryOthers s f others).after trace := by
  cases others with
  | nil => simp only [tryForms, tryOthers, Outcome.after, List.append_nil]
  | cons next others => rfl

/-- One more failure in front is compared to the one that is given. -/
theorem afterFailure_tryOthers {s : List Char} {f g : Failure} (hg : g.fault.isTooDeep = false)
    (others : List (Branch α)) :
    (tryOthers s g others).afterFailure f = tryOthers s (f.further g) others := by
  cases others with
  | nil => simp [tryOthers, Outcome.afterFailure, hg]
  | cons b others => exact Outcome.afterFailure_afterFailure _ hg

namespace Parsing

open Asm65816.Parser

variable {limit : NestingLimit} {depth : Nat} {p q : Parser}

/-! ## One form -/

/-- A form is read by the method as by the rule. -/
structure Branch.Simulates (b : Branch α) (limit : NestingLimit) (depth : Nat)
    (b' : Asm65816.Branch α) : Prop where
  /-- The form is the same. -/
  form : b.form = b'.form
  /-- The method simulates the rule. -/
  method : b.method.Simulates limit depth b'.rule

/-- A form is tried from where the choice began, wherever the parser stands. If it is passed over,
that is recorded, and its failure is kept if it is further. -/
theorem run_tryForms_cons {b : Branch α} {b' : Asm65816.Branch α} {furthest : Option Raised}
    {others : List (Branch α)} {goOn : Failure → List Event → Outcome α}
    (h : b.Simulates limit depth b') (hp : p.At limit depth)
    (hq : { q with position := p.position } = p)
    (hgoOn : ∀ f, b'.RejectsWith p.rest f → ∀ (trace : List Event) (q' : Parser),
      { q' with position := p.position } = { p with log := p.log ++ trace } →
      q'.run (tryForms p.position (some (Raised.furthest furthest (p.raised f))) others) =
        some (p.ending (goOn f trace))) :
    q.run (tryForms p.position furthest (b :: others)) =
      some (p.ending (b'.tryOn p.rest goOn)) := by
  rw [tryForms, run_bind_of_ok (run_moveTo q p.position), hq]
  by_cases hb : b'.Rejects p.rest
  · obtain ⟨f, hf⟩ := hb
    have hr := h.method.run_of_error hp (Rule.parse_eq_error_iff.mp hf.1)
    have hd : ¬f.fault.isTooDeep = true := Bool.eq_false_iff.mp hf.2
    rw [run_tryCatch_of_error hr, Branch.tryOn_of_rejectsWith hf]
    show Parser.run _ (if f.fault.isTooDeep then _ else _) = _
    rw [if_neg hd, record, run_bind_of_ok (run_modify _ _), h.form]
    refine hgoOn f hf _ _ ?_
    rw [← List.append_assoc]
    rfl
  · rw [Branch.tryOn_of_not_rejects hb, ending]
    cases hr : (b'.rule.run p.rest).result with
    | ok a =>
      rw [run_tryCatch_of_ok (h.method.run_of_ok hp hr)]
      rfl
    | error f =>
      have hd : f.fault.isTooDeep = true :=
        Bool.of_not_eq_false fun hd => hb ⟨f, Rule.parse_eq_error_iff.mpr hr, hd⟩
      rw [run_tryCatch_of_error (h.method.run_of_error hp hr)]
      show Parser.run _ (if f.fault.isTooDeep then _ else _) = _
      rw [if_pos hd]
      rfl

/-! ## All forms -/

/-- What is further into the text has the greater place. -/
theorem furthest_raised {f g : Failure} (hf : f.rest <:+ p.text) (hg : g.rest <:+ p.text) :
    Raised.furthest (some (p.raised f)) (p.raised g) = p.raised (f.further g) := by
  have hflength := hf.length_le
  have hglength := hg.length_le
  by_cases h : g.rest.length < f.rest.length
  · have hposition : (p.raised f).position < (p.raised g).position :=
      Nat.sub_lt_sub_left (by omega) h
    rw [Raised.furthest, Failure.further, if_pos h, if_pos hposition]
  · have hposition : ¬(p.raised f).position < (p.raised g).position :=
      Nat.not_lt.mpr (Nat.sub_le_sub_left (Nat.not_lt.mp h) _)
    rw [Raised.furthest, Failure.further, if_neg h, if_neg hposition]

variable {ι : Type} {branch : ι → Branch α} {branch' : ι → Asm65816.Branch α}

/-- Behind forms that were passed over it is the furthest of all failures that is raised. -/
theorem run_tryForms_behind (h : ∀ i, (branch i).Simulates limit depth (branch' i))
    (hp : p.At limit depth) (hq : { q with position := p.position } = p) {f : Failure}
    (hf : f.rest <:+ p.rest) (l : List ι) :
    q.run (tryForms p.position (some (p.raised f)) (l.map branch)) =
      some (p.ending (tryOthers p.rest f (l.map branch'))) := by
  induction l generalizing f p q with
  | nil =>
    rw [List.map_nil, List.map_nil, tryOthers, ending_error, hp.before_rest, ← hq]
    rfl
  | cons i others ih =>
    rw [List.map_cons, List.map_cons, tryOthers, tryForms_eq, Branch.afterFailure_tryOn]
    refine run_tryForms_cons (h i) hp hq fun g hg trace q' hq' => ?_
    have hgrest := ((branch' i).rule.within p.rest).failure_suffix g
      (Rule.parse_eq_error_iff.mp hg.1)
    have hfurther : (f.further g).rest <:+ p.rest := by
      rcases f.further_eq_or g with e | e <;> rw [e]
      · exact hf
      · exact hgrest
    rw [furthest_raised (hf.trans p.rest_suffix) (hgrest.trans p.rest_suffix),
      Outcome.after_afterFailure, afterFailure_tryOthers hg.2, ← ending_recorded]
    exact ih (hp.recorded trace) hq' hfurther

/-- **A choice simulates the choice between the rules of its forms.** -/
theorem simulates_firstOf {l : List ι} {hne : l.map branch' ≠ []}
    (h : ∀ i, (branch i).Simulates limit depth (branch' i)) :
    (firstOf (l.map branch)).Simulates limit depth (Rule.firstOf (l.map branch') hne) := by
  intro p hp
  rw [firstOf, run_bind_of_ok (run_position p)]
  cases l with
  | nil => exact absurd rfl hne
  | cons i others =>
    show _ = some (p.ending (Asm65816.tryForms p.rest (branch' i) (others.map branch')))
    rw [List.map_cons, tryForms_eq]
    refine run_tryForms_cons (h i) hp rfl fun f hf trace q' hq' => ?_
    have hrest := ((branch' i).rule.within p.rest).failure_suffix f
      (Rule.parse_eq_error_iff.mp hf.1)
    rw [← ending_recorded]
    exact run_tryForms_behind h (hp.recorded trace) hq' hrest others

end Parsing

end Asm65816
