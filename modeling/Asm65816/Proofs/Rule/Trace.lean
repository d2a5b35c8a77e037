import Asm65816.Proofs.Rule.Choice
import Asm65816.Proofs.Rule.Repetition

/-!
# What is recorded

Only a choice records that a form is rejected, and only an instruction its addressing mode. All
other rules hand on what their parts record, in the order in which they are applied. So what a rule
records is known from the choices that it is built from.

The record of a choice lists the forms that it passes over, each behind what was recorded while it
was tried. The form that ends the choice comes last and is not rejected.
-/

namespace Asm65816

variable {α β : Type}

namespace Rule

/-- Everything that a rule records has a property. -/
def Records (r : Rule α) (P : Event → Prop) : Prop := ∀ s, ∀ e ∈ (r.run s).trace, P e

/-- A rule that records nothing. -/
def Silent (r : Rule α) : Prop := r.Records fun _ => False

theorem silent_of_trace {r : Rule α} (h : ∀ s, (r.run s).trace = []) : r.Silent := by
  intro s e he
  rw [h s] at he
  cases he

theorem Silent.trace {r : Rule α} (h : r.Silent) (s : List Char) : (r.run s).trace = [] :=
  List.eq_nil_iff_forall_not_mem.mpr (h s)

theorem Silent.records {r : Rule α} (h : r.Silent) (P : Event → Prop) : r.Records P :=
  fun s e he => (h s e he).elim

/-! ## The smallest rules -/

theorem silent_pure (a : α) : (pure a : Rule α).Silent := silent_of_trace fun _ => rfl

theorem silent_fail (fault : Option Char → Fault) : (fail fault : Rule α).Silent :=
  silent_of_trace fun _ => rfl

theorem silent_peek : peek.Silent := silent_of_trace fun _ => rfl

theorem silent_blanks : blanks.Silent := silent_of_trace fun _ => rfl

theorem silent_takeWhile (p : Char → Bool) : (takeWhile p).Silent := silent_of_trace fun _ => rfl

theorem silent_satisfy (p : Char → Bool) (what : String) : (satisfy p what).Silent := by
  refine silent_of_trace fun s => ?_
  cases s with
  | nil => rfl
  | cons c rest =>
    unfold satisfy
    dsimp only
    split <;> rfl

theorem silent_token? (meaning : Char → Option β) : (token? meaning).Silent := by
  refine silent_of_trace fun s => ?_
  cases h : nextToken? meaning s with
  | none => rw [run_token?_of_none h]
  | some x => rw [run_token?_of_some h]

theorem silent_expect (chars : List Char) (what : String) : (expect chars what).Silent := by
  refine silent_of_trace fun s => ?_
  cases h : nextToken? (oneOf chars) s with
  | none => rw [run_expect_of_none h]
  | some x => rw [run_expect_of_some h]

theorem silent_digits (radix : Radix) (what : String) (lead : List Char) :
    (digits radix what lead).Silent := by
  refine silent_of_trace fun s => ?_
  unfold digits
  dsimp only
  split
  · rfl
  · split <;> rfl

/-! ## Rules that are built from others -/

section Records

variable {P : Event → Prop}

theorem Records.bind {r : Rule α} {next : α → Rule β} (h : r.Records P)
    (hnext : ∀ a, (next a).Records P) : (r >>= next).Records P := by
  intro s e he
  rw [run_bind, Outcome.andThen] at he
  split at he
  · rcases List.mem_append.mp he with he | he
    · exact h s e he
    · exact hnext _ _ e he
  · exact h s e he

theorem Records.attempt {r : Rule α} (h : r.Records P) : r.attempt.Records P := by
  intro s e he
  unfold Rule.attempt at he
  dsimp only at he
  split at he <;> exact h s e he

theorem Records.backIfNone {r : Rule (Option α)} (h : r.Records P) : r.backIfNone.Records P := by
  intro s e he
  unfold Rule.backIfNone at he
  dsimp only at he
  split at he <;> exact h s e he

theorem Records.follow {meaning : Char → Option β} {step : β → α → Rule (Option α)}
    (h : ∀ b a, (step b a).Records P) (a : α) : (follow meaning step a).Records P := by
  intro s e he
  change e ∈ (followFrom meaning step a s).trace at he
  fun_induction followFrom meaning step a s with
  | case1 => cases he
  | case2 a s b t => exact h b a t e he
  | case3 a s b t => exact h b a t e he
  | case4 a s b t _ _ _ _ ih =>
    rcases List.mem_append.mp he with he | he
    · exact h b a t e he
    · exact ih he

end Records

/-! ## Rules without a choice -/

theorem silent_identifier : identifier.Silent :=
  (silent_satisfy _ _).bind fun _ => (silent_takeWhile _).bind fun _ => silent_pure _

theorem silent_decimal : decimal.Silent :=
  silent_blanks.bind fun _ => (silent_digits _ _ _).bind fun _ => silent_pure _

theorem silent_hexadecimal : hexadecimal.Silent :=
  (silent_expect _ _).bind fun _ => (silent_digits _ _ _).bind fun _ => silent_pure _

theorem silent_noOperator : noOperator.Silent := by
  refine silent_peek.bind fun c? => ?_
  cases c? with
  | none => exact silent_pure ()
  | some c =>
    dsimp only
    split
    · exact silent_fail _
    · exact silent_pure ()

theorem silent_size? : size?.Silent := by
  refine Records.backIfNone ((silent_token? _).bind fun point => ?_)
  cases point with
  | some _ => exact silent_token? _
  | none => exact silent_pure _

end Rule

/-! ## Choice -/

/-- What is recorded while forms are passed over one after the other: all that was tried in vain
inside of a form, and then the form itself. -/
inductive PassedOver (s : List Char) : List (Branch α) → List Event → Prop where
  | nil : PassedOver s [] []
  | cons {b : Branch α} {others : List (Branch α)} {f : Failure} {trace : List Event} :
      b.RejectsWith s f → PassedOver s others trace →
      PassedOver s (b :: others) ((b.rule.run s).trace ++ .rejected b.form f.fault :: trace)

/-- What is recorded while forms are passed over is what they record, and that they are rejected. -/
theorem PassedOver.forall_mem {P : Event → Prop} {s : List Char} {branches : List (Branch α)}
    {trace : List Event} (h : PassedOver s branches trace)
    (hrule : ∀ b ∈ branches, b.rule.Records P)
    (hform : ∀ b ∈ branches, ∀ fault, P (.rejected b.form fault)) : ∀ e ∈ trace, P e := by
  induction h with
  | nil => exact fun _ => nofun
  | @cons b others f trace _ _ ih =>
    intro e he
    rcases List.mem_append.mp he with he | he
    · exact hrule b List.mem_cons_self s e he
    rcases List.mem_cons.mp he with rfl | he
    · exact hform b List.mem_cons_self f.fault
    · exact ih (fun c hc => hrule c (List.mem_cons_of_mem b hc))
        (fun c hc => hform c (List.mem_cons_of_mem b hc)) e he

/-- How a choice comes out, with what it records. -/
inductive Chosen (s : List Char) (branches : List (Branch α)) : Outcome α → Prop where
  /-- A form is not passed over. It is the last that is tried, and has the last word. -/
  | stopped {b : Branch α} {earlier later : List (Branch α)} {trace : List Event} :
      branches = earlier ++ b :: later → PassedOver s earlier trace → ¬b.Rejects s →
      Chosen s branches ((b.rule.run s).after trace)
  /-- All forms are passed over. -/
  | exhausted {f : Failure} {trace : List Event} :
      PassedOver s branches trace → f.fault.isTooDeep = false →
      Chosen s branches { result := .error f, rest := s, trace }

/-- What ends a choice is not compared to the failures in front of it. -/
theorem Branch.afterFailure_of_not_rejects {b : Branch α} {s : List Char} (h : ¬b.Rejects s)
    (trace : List Event) (f : Failure) :
    ((b.rule.run s).after trace).afterFailure f = (b.rule.run s).after trace := by
  unfold Outcome.afterFailure
  split
  · rfl
  · rename_i g hg
    rw [if_pos]
    exact Bool.of_not_eq_false fun hd => h ⟨g, Rule.parse_eq_error_iff.mpr hg, hd⟩

theorem Outcome.after_after (o : Outcome α) (trace trace' : List Event) :
    (o.after trace').after trace = o.after (trace ++ trace') := by
  simp only [after, List.append_assoc]

/-- One more form in front of a choice is passed over. -/
theorem Chosen.cons {s : List Char} {b : Branch α} {branches : List (Branch α)} {o : Outcome α}
    {f : Failure} (hb : b.RejectsWith s f) (h : Chosen s branches o) :
    Chosen s (b :: branches)
      ((o.afterFailure f).after ((b.rule.run s).trace ++ [.rejected b.form f.fault])) := by
  cases h with
  | stopped hsplit hearlier hc =>
    rw [Branch.afterFailure_of_not_rejects hc, Outcome.after_after, List.append_assoc]
    exact .stopped (congrArg (b :: ·) hsplit) (.cons hb hearlier) hc
  | @exhausted g trace hpassed hd =>
    have hafter : ({ result := .error g, rest := s, trace } : Outcome α).afterFailure f =
        { result := .error (f.further g), rest := s, trace } := by
      simp only [Outcome.afterFailure, hd, Bool.false_eq_true, if_false]
    rw [hafter, Outcome.after, List.append_assoc]
    refine .exhausted (.cons hb hpassed) ?_
    rcases f.further_eq_or g with e | e <;> rw [e]
    · exact hb.2
    · exact hd

theorem chosen_tryForms (s : List Char) (first : Branch α) (others : List (Branch α)) :
    Chosen s (first :: others) (tryForms s first others) := by
  induction others generalizing first with
  | nil =>
    rw [tryForms]
    by_cases h : first.Rejects s
    · obtain ⟨f, hf⟩ := h
      rw [Branch.tryOn_of_rejectsWith hf]
      exact .exhausted (.cons hf .nil) hf.2
    · rw [Branch.tryOn_of_not_rejects h]
      exact .stopped (List.nil_append _).symm .nil h
  | cons next others ih =>
    rw [tryForms]
    by_cases h : first.Rejects s
    · obtain ⟨f, hf⟩ := h
      rw [Branch.tryOn_of_rejectsWith hf]
      exact (ih next).cons hf
    · rw [Branch.tryOn_of_not_rejects h]
      exact .stopped (List.nil_append _).symm .nil h

namespace Rule

/-- **A choice tries its forms up to the first that is not passed over**, and records each of them
that is. -/
theorem chosen_firstOf (branches : List (Branch α)) (hne : branches ≠ []) (s : List Char) :
    Chosen s branches ((firstOf branches hne).run s) := by
  cases branches with
  | nil => exact absurd rfl hne
  | cons first others => exact chosen_tryForms s first others

/-- A choice records what its forms record, and that forms are rejected. -/
theorem Records.firstOf {P : Event → Prop} {branches : List (Branch α)} {hne : branches ≠ []}
    (hrule : ∀ b ∈ branches, b.rule.Records P)
    (hform : ∀ b ∈ branches, ∀ fault, P (.rejected b.form fault)) :
    (Rule.firstOf branches hne).Records P := by
  intro s e he
  have hchosen := chosen_firstOf branches hne s
  generalize (Rule.firstOf branches hne).run s = o at hchosen he
  cases hchosen with
  | @stopped b earlier later trace hsplit hearlier _ =>
    subst hsplit
    have hmem : ∀ c ∈ earlier, c ∈ earlier ++ b :: later := fun c hc => List.mem_append_left _ hc
    rcases List.mem_append.mp he with he | he
    · exact hearlier.forall_mem (fun c hc => hrule c (hmem c hc)) (fun c hc => hform c (hmem c hc))
        e he
    · exact hrule b (List.mem_append_right _ List.mem_cons_self) s e he
  | exhausted hpassed _ => exact hpassed.forall_mem hrule hform e he

end Rule

end Asm65816
