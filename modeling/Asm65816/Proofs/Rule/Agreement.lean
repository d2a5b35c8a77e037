import Asm65816.Proofs.Rule.Congruence

/-!
# Rules that agree

A rule with more levels left does what a rule with fewer levels does, as long as the latter does not
find nesting too deep. What is proved of two rules is therefore that the second one agrees with the
first wherever the first does not fail for that reason: then value, rest, place, failure and record
are all the same.

Every way of building a rule keeps agreement, because none of them hides that one failure. It is not
soft, so no attempt gives it back, and it ends a choice at once, without a record.
-/

namespace Asm65816

variable {α β : Type}

/-- An outcome is a failure of nesting too deep. -/
def Outcome.IsTooDeep (o : Outcome α) : Prop := ∃ f, o.result = .error f ∧ f.fault.isTooDeep = true

namespace Outcome

/-- What was recorded before does not matter. -/
theorem isTooDeep_after_iff {o : Outcome α} {trace : List Event} :
    (o.after trace).IsTooDeep ↔ o.IsTooDeep := Iff.rfl

/-- The failure of the later forms ends a choice if it is of that kind. -/
theorem IsTooDeep.afterFailure {o : Outcome α} (h : o.IsTooDeep) (f : Failure) :
    (o.afterFailure f).IsTooDeep := by
  obtain ⟨g, hg, hd⟩ := h
  unfold Outcome.afterFailure
  rw [hg]
  exact ⟨g, by simp [hd, hg], hd⟩

end Outcome

namespace Rule

/-- A rule agrees with a first one wherever the first one does not find nesting too deep. -/
def Agrees (r r' : Rule α) : Prop := ∀ s, ¬(r.run s).IsTooDeep → r'.run s = r.run s

theorem Agrees.refl (r : Rule α) : r.Agrees r := fun _ _ => rfl

/-! ## One rule after the other -/

theorem Agrees.bind {r r' : Rule α} {next next' : α → Rule β} (h : r.Agrees r')
    (hnext : ∀ a, (next a).Agrees (next' a)) : (r >>= next).Agrees (r' >>= next') := by
  intro s hs
  rw [run_bind, Outcome.andThen] at hs
  rw [run_bind, run_bind, Outcome.andThen, Outcome.andThen]
  cases hr : (r.run s).result with
  | error f =>
    rw [hr] at hs
    have hf : ¬(r.run s).IsTooDeep := by
      rintro ⟨g, hg, hd⟩
      rw [hr] at hg
      cases hg
      exact hs ⟨f, rfl, hd⟩
    rw [h s hf, hr]
  | ok a =>
    rw [hr] at hs
    have ha : ¬(r.run s).IsTooDeep := by
      rintro ⟨g, hg, _⟩
      rw [hr] at hg
      cases hg
    rw [h s ha, hr]
    dsimp only
    rw [hnext a _ (mt Outcome.isTooDeep_after_iff.mpr hs)]

/-! ## Going back -/

/-- Nesting too deep is never given back. -/
theorem Agrees.attempt {r r' : Rule α} (h : r.Agrees r') : r.attempt.Agrees r'.attempt := by
  intro s hs
  have hr : ¬(r.run s).IsTooDeep := by
    rintro ⟨f, hf, hd⟩
    have hsoft : f.fault.isSoft = false := by
      cases hfault : f.fault <;> simp_all [Fault.isTooDeep, Fault.isSoft]
    exact hs ⟨f, by simp [Rule.attempt, hf, hsoft], hd⟩
  simp only [Rule.attempt, h s hr]

/-! ## Repetition -/

theorem Agrees.follow {meaning : Char → Option β} {step step' : β → α → Rule (Option α)}
    (h : ∀ b a, (step b a).Agrees (step' b a)) (a : α) :
    (follow meaning step a).Agrees (follow meaning step' a) := by
  intro s
  show ¬(followFrom meaning step a s).IsTooDeep →
    followFrom meaning step' a s = followFrom meaning step a s
  -- every round leaves a shorter text
  generalize hn : s.length = n
  induction n using Nat.strongRecOn generalizing a s with
  | ind n ih =>
    cases ht : nextToken? meaning s with
    | none =>
      intro _
      rw [followFrom_of_none ht, followFrom_of_none ht]
    | some x =>
      obtain ⟨b, t⟩ := x
      rw [followFrom_of_some ht, followFrom_of_some ht]
      dsimp only
      intro hs
      have hround : ¬((step b a).run t).IsTooDeep := by
        rintro ⟨f, hf, hd⟩
        rw [hf] at hs
        exact hs ⟨f, rfl, hd⟩
      rw [h b a t hround]
      cases ho : ((step b a).run t).result with
      | error f => rfl
      | ok a? =>
        cases a? with
        | none => rfl
        | some a' =>
          rw [ho] at hs
          dsimp only at hs ⊢
          have h₁ := (nextToken?_suffix ht).2
          have h₂ := ((step b a).within t).rest_suffix.length_le
          have hlt : ((step b a).run t).rest.length < n := by omega
          rw [ih _ hlt a' _ rfl (mt Outcome.isTooDeep_after_iff.mpr hs)]

end Rule

/-! ## Choice -/

/-- Two branches for one form, whose rules agree. -/
structure Branch.Agrees (b b' : Branch α) : Prop where
  /-- The form is the same. -/
  form : b'.form = b.form
  /-- The rules agree. -/
  rule : b.rule.Agrees b'.rule

theorem Branch.Agrees.tryOn {b b' : Branch α} (h : b.Agrees b') {s : List Char}
    {goOn goOn' : Failure → List Event → Outcome α}
    (hgoOn : ∀ f trace, ¬(goOn f trace).IsTooDeep → goOn' f trace = goOn f trace)
    (hs : ¬(b.tryOn s goOn).IsTooDeep) : b'.tryOn s goOn' = b.tryOn s goOn := by
  unfold Branch.tryOn at hs ⊢
  dsimp only at hs ⊢
  have hb : ¬(b.rule.run s).IsTooDeep := by
    rintro ⟨f, hf, hd⟩
    rw [hf] at hs
    simp only [hd, if_true] at hs
    exact hs ⟨f, hf, hd⟩
  rw [h.rule s hb, h.form]
  cases hr : (b.rule.run s).result with
  | ok a => rfl
  | error f =>
    have hd : f.fault.isTooDeep = false := by
      rw [Bool.eq_false_iff]
      exact fun hd => hb ⟨f, hr, hd⟩
    rw [hr] at hs
    simp only [hd, Bool.false_eq_true, if_false] at hs ⊢
    exact hgoOn f _ hs

theorem agrees_tryForms {γ : Type} {branch branch' : γ → Branch α}
    (h : ∀ form, (branch form).Agrees (branch' form)) (s : List Char) (first : γ)
    (others : List γ) (hs : ¬(tryForms s (branch first) (others.map branch)).IsTooDeep) :
    tryForms s (branch' first) (others.map branch') =
      tryForms s (branch first) (others.map branch) := by
  induction others generalizing first with
  | nil => exact (h first).tryOn (fun _ _ _ => rfl) hs
  | cons next others ih =>
    refine (h first).tryOn (fun f trace ho => ?_) hs
    -- if the later forms nested too deep, so would the choice
    have hlater : ¬(tryForms s (branch next) (others.map branch)).IsTooDeep :=
      fun hd => ho (Outcome.isTooDeep_after_iff.mpr (hd.afterFailure f))
    rw [ih next hlater]

namespace Rule

/-- **What agrees deep inside agrees as a whole.** -/
theorem congruence_agrees : Congruence Agrees where
  refl := Agrees.refl
  bind := Agrees.bind
  attempt := Agrees.attempt
  follow := Agrees.follow
  firstOf := by
    intro α γ branch branch' forms hne hne' hform hrule
    cases forms with
    | nil => exact absurd rfl hne
    | cons first others =>
      exact fun s => agrees_tryForms (fun form => ⟨hform form, hrule form⟩) s first others

/-- **Expressions with fewer levels left agree with those that have more left**, though the two
quote different limits. -/
theorem agrees_nested {m n : Nat} (h : m ≤ n) (limit limit' : Nat) :
    (nested limit m).Agrees (nested limit' n) := by
  induction m generalizing n with
  | zero =>
    intro s hs
    exact absurd ⟨_, rfl, rfl⟩ hs
  | succ m ih =>
    obtain ⟨n, rfl⟩ := Nat.exists_eq_add_of_lt h
    exact congruence_agrees.behind _ fun _ => congruence_agrees.sum (ih (Nat.le_add_right m n))

end Rule

end Asm65816
