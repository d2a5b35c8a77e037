import Asm65816.Proofs.Rule.Congruence

/-!
# Rules that differ in their record only

Two rules are alike if they give the same value or failure on every text and stand in the same place
afterwards. What they record on the way may differ. Nothing in the grammar looks at the record, so
rules that are built in the same way from rules that are alike are alike.
-/

namespace Asm65816

variable {α β : Type}

/-- What there is to see of an outcome if the record is left out. -/
def Outcome.seen (o : Outcome α) : Except Failure α × List Char := (o.result, o.rest)

namespace Outcome

@[simp] theorem seen_after (o : Outcome α) (trace : List Event) : (o.after trace).seen = o.seen :=
  rfl

/-- What comes of going on does not depend on the record. -/
theorem seen_andThen (o : Outcome α) (next : α → List Char → Outcome β) :
    (o.andThen next).seen =
      match o.seen with
      | (.ok a, rest) => (next a rest).seen
      | (.error f, rest) => (.error f, rest) := by
  obtain ⟨result, rest, trace⟩ := o
  cases result with
  | ok a => rfl
  | error f => rfl

theorem seen_afterFailure {o o' : Outcome α} (f : Failure) (h : o.seen = o'.seen) :
    (o.afterFailure f).seen = (o'.afterFailure f).seen := by
  obtain ⟨result, rest, trace⟩ := o
  obtain ⟨result', rest', trace'⟩ := o'
  obtain ⟨rfl, rfl⟩ := Prod.mk.inj h
  cases result with
  | ok a => rfl
  | error g =>
    simp only [afterFailure]
    split
    · rfl
    · rfl

end Outcome

namespace Rule

/-- Two rules give the same, and stand in the same place. -/
def Alike (r r' : Rule α) : Prop := ∀ s, (r.run s).seen = (r'.run s).seen

namespace Alike

theorem refl (r : Rule α) : r.Alike r := fun _ => rfl

theorem trans {r r' r'' : Rule α} (h : r.Alike r') (h' : r'.Alike r'') : r.Alike r'' :=
  fun s => (h s).trans (h' s)

theorem bind {r r' : Rule α} {next next' : α → Rule β} (h : r.Alike r')
    (hnext : ∀ a, (next a).Alike (next' a)) : (r >>= next).Alike (r' >>= next') := by
  intro s
  rw [run_bind, run_bind, Outcome.seen_andThen, Outcome.seen_andThen, h s]
  split
  · exact hnext _ _
  · rfl

theorem attempt {r r' : Rule α} (h : r.Alike r') : r.attempt.Alike r'.attempt := by
  intro s
  obtain ⟨hresult, hrest⟩ := Prod.mk.inj (h s)
  simp only [Rule.attempt, hresult, hrest]
  split
  · rfl
  · rfl

theorem follow {meaning : Char → Option β} {step step' : β → α → Rule (Option α)}
    (h : ∀ b a, (step b a).Alike (step' b a)) (a : α) :
    (follow meaning step a).Alike (follow meaning step' a) := by
  intro s
  show (followFrom meaning step a s).seen = (followFrom meaning step' a s).seen
  -- every round leaves a shorter text
  generalize hn : s.length = n
  induction n using Nat.strongRecOn generalizing a s with
  | ind n ih =>
    cases ht : nextToken? meaning s with
    | none => rw [followFrom_of_none ht, followFrom_of_none ht]
    | some x =>
      obtain ⟨b, t⟩ := x
      obtain ⟨hresult, hrest⟩ := Prod.mk.inj (h b a t)
      rw [followFrom_of_some ht, followFrom_of_some ht]
      simp only [hresult, hrest]
      cases ho : ((step' b a).run t).result with
      | error f => rfl
      | ok a? =>
        cases a? with
        | none => rfl
        | some a' =>
          have h₁ := (nextToken?_suffix ht).2
          have h₂ := ((step' b a).within t).rest_suffix.length_le
          exact ih _ (by omega) a' _ rfl

end Alike

end Rule

/-! ## Choice -/

theorem Branch.seen_tryOn {b b' : Branch α} (h : b.rule.Alike b'.rule) {s : List Char}
    {goOn goOn' : Failure → List Event → Outcome α}
    (hgoOn : ∀ f trace trace', (goOn f trace).seen = (goOn' f trace').seen) :
    (b.tryOn s goOn).seen = (b'.tryOn s goOn').seen := by
  have hs := h s
  obtain ⟨hresult, _⟩ := Prod.mk.inj hs
  unfold Branch.tryOn
  simp only [hresult]
  split
  · exact hs
  · split
    · exact hs
    · exact hgoOn _ _ _

theorem seen_tryForms {γ : Type} {branch branch' : γ → Branch α}
    (h : ∀ form, (branch form).rule.Alike (branch' form).rule) (s : List Char) (first : γ)
    (others : List γ) :
    (tryForms s (branch first) (others.map branch)).seen =
      (tryForms s (branch' first) (others.map branch')).seen := by
  induction others generalizing first with
  | nil => exact Branch.seen_tryOn (h first) fun _ _ _ => rfl
  | cons next others ih =>
    exact Branch.seen_tryOn (h first) fun f _ _ => Outcome.seen_afterFailure f (ih next)

/-- **What is alike deep inside is alike as a whole.** -/
theorem Rule.congruence_alike : Congruence Alike where
  refl := Alike.refl
  bind := Alike.bind
  attempt := Alike.attempt
  follow := Alike.follow
  firstOf := by
    intro α γ branch branch' forms hne hne' _ hrule
    cases forms with
    | nil => exact absurd rfl hne
    | cons first others => exact fun s => seen_tryForms hrule s first others

end Asm65816
