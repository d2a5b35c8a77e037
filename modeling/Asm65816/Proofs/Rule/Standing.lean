import Asm65816.Proofs.Rule.Trace

/-!
# Where a failing rule stands

A rule that fails stands somewhere all the same, and others go on from there. A choice goes back to
where it began, and a chain goes back behind an operand. Only nesting too deep halts a rule in its
place: no choice and no chain gives it back, so the rule stands where the failure does.
-/

namespace Asm65816

variable {α β : Type}

namespace Rule

/-! ## Failures and what stands behind them -/

/-- Every failure of a rule has a relation to the text before which the rule then stands. -/
def Stands (r : Rule α) (P : Failure → List Char → Prop) : Prop :=
  ∀ ⦃s f⦄, (r.run s).result = .error f → P f (r.run s).rest

section Stands

variable {P : Failure → List Char → Prop}

/-- What holds of a failure alone holds wherever the rule then stands. -/
theorem Fails.stands {r : Rule α} {Q : Failure → Prop} (h : r.Fails Q)
    (hQ : ∀ f t, Q f → P f t) : r.Stands P :=
  fun _ _ hf => hQ _ _ (h (parse_eq_error_iff.mpr hf))

theorem stands_pure (a : α) : (pure a : Rule α).Stands P :=
  (fails_pure (P := fun _ => False) a).stands fun _ _ => False.elim

/-- Nothing is done after a failure. -/
theorem run_bind_of_error {r : Rule α} {f : Failure} {s : List Char}
    (h : (r.run s).result = .error f) (next : α → Rule β) :
    ((r >>= next).run s).result = .error f ∧ ((r >>= next).run s).rest = (r.run s).rest := by
  rw [run_bind, Outcome.andThen, h]
  exact ⟨rfl, rfl⟩

theorem Stands.bind {r : Rule α} {next : α → Rule β} (h : r.Stands P)
    (hnext : ∀ a, (next a).Stands P) : (r >>= next).Stands P := by
  intro s f hf
  cases hr : (r.run s).result with
  | error g =>
    obtain ⟨hresult, hrest⟩ := run_bind_of_error hr next
    rw [hresult] at hf
    cases hf
    rw [hrest]
    exact h hr
  | ok a =>
    have hrun : (r >>= next).run s = ((next a).run (r.run s).rest).after (r.run s).trace := by
      rw [run_bind, Outcome.andThen, hr]
    rw [hrun] at hf ⊢
    exact hnext a hf

/-- An attempt stands where the rule itself does, and fails only as it does. -/
theorem Stands.attempt {r : Rule α} (h : r.Stands P) : r.attempt.Stands P := by
  intro s f hf
  have hrest : (r.attempt.run s).rest = (r.run s).rest := by
    unfold Rule.attempt
    dsimp only
    split <;> rfl
  rw [hrest]
  exact h (parse_eq_error_iff.mp (parse_of_attempt_error (parse_eq_error_iff.mpr hf)))

theorem Stands.follow {meaning : Char → Option β} {step : β → α → Rule (Option α)}
    (h : ∀ b a, (step b a).Stands P) (a : α) : (follow meaning step a).Stands P := by
  intro s f hf
  have hrounds := rounds_follow meaning step a s
  rw [hf] at hrounds
  clear hf
  generalize hresult : Except.error f = result at hrounds
  generalize ((Rule.follow meaning step a).run s).rest = t at hrounds ⊢
  induction hrounds with
  | ended _ | givenBack _ _ => cases hresult
  | failed _ hround =>
    cases hresult
    exact h _ _ hround
  | next _ _ _ ih => exact ih hresult

theorem Stands.chain {operator? : Char → Option Operator} {operand : Rule Expression}
    (h : operand.Stands P) : (chain operator? operand).Stands P := by
  refine h.bind fun first => Stands.follow (fun _ _ => h.attempt.bind fun right => ?_) first
  cases right with
  | some right => exact stands_pure _
  | none => exact stands_pure _

end Stands

/-! ## Blanks in front -/

/-- The blanks in front are skipped, whatever comes next. -/
theorem run_blanks_then (next : Unit → Rule β) (s : List Char) :
    (blanks >>= next).run s = (next ()).run (Text.skipBlanks s) := rfl

/-- A rule that skips blanks stays behind them. -/
theorem within_blanks_then (next : Unit → Rule β) (s : List Char) :
    ((blanks >>= next).run s).Within (Text.skipBlanks s) :=
  (next ()).within (Text.skipBlanks s)

theorem run_peek_then (next : Option Char → Rule β) (s : List Char) :
    (peek >>= next).run s = (next s.head?).run s := rfl

end Rule

/-! ## Choice -/

section Choice

variable {s : List Char} {f : Failure}

/-- Where a choice stands that has failed with a certain failure: where it began, or where a form
stands that nests too deep. -/
inductive HaltedChoice (s : List Char) (f : Failure) (branches : List (Branch α)) (t : List Char) :
    Prop where
  | back (passed : f.fault.isTooDeep = false) (place : t = s)
  | inside {b : Branch α} (mem : b ∈ branches) (failure : (b.rule.run s).result = .error f)
      (deep : f.fault.isTooDeep = true) (place : t = (b.rule.run s).rest)

/-- **A choice that fails goes back to where it began**, unless one of its forms nests too deep. -/
theorem Rule.haltedChoice {branches : List (Branch α)} {hne : branches ≠ []}
    (h : ((firstOf branches hne).run s).result = .error f) :
    HaltedChoice s f branches ((firstOf branches hne).run s).rest := by
  have hchosen := chosen_firstOf branches hne s
  generalize (firstOf branches hne).run s = o at hchosen h ⊢
  cases hchosen with
  | stopped hsplit _ hb =>
    subst hsplit
    refine .inside (List.mem_append_right _ List.mem_cons_self) h ?_ rfl
    exact Bool.of_not_eq_false fun hd => hb ⟨f, parse_eq_error_iff.mpr h, hd⟩
  | exhausted _ hd =>
    cases h
    exact .back hd rfl

/-- A choice goes back after any other failure than that of nesting too deep. -/
theorem Rule.rest_firstOf {branches : List (Branch α)} {hne : branches ≠ []}
    (h : ((firstOf branches hne).run s).result = .error f) (hd : f.fault.isTooDeep = false) :
    ((firstOf branches hne).run s).rest = s := by
  cases haltedChoice h with
  | back _ ht => exact ht
  | inside _ _ hdeep _ => exact absurd (hd.symm.trans hdeep) Bool.false_ne_true

/-- A choice whose only form that gets anywhere nests too deep stands where that form does. -/
theorem Rule.rest_firstOf_of_only {b : Branch α} {branches : List (Branch α)} {hne : branches ≠ []}
    (h : Only s b branches) (hf : ((firstOf branches hne).run s).result = .error f)
    (hd : f.fault.isTooDeep = true) :
    ((firstOf branches hne).run s).rest = (b.rule.run s).rest := by
  cases haltedChoice hf with
  | back hpassed _ => exact absurd (hpassed.symm.trans hd) Bool.false_ne_true
  | inside hc hresult _ hplace =>
    rcases h.eq_or_rejectsAtOnce hc with rfl | ⟨g, ⟨hg, hpassed⟩, _⟩
    · exact hplace
    · -- the other forms do not nest too deep
      cases hg.symm.trans (parse_eq_error_iff.mpr hresult)
      exact absurd (hpassed.symm.trans hd) Bool.false_ne_true

/-- **Choices whose only form that gets anywhere is the same have the same outcome**, but for what
they record. -/
theorem Rule.run_firstOf_congr {b : Branch α} {branches branches' : List (Branch α)}
    {hne : branches ≠ []} {hne' : branches' ≠ []} (h : Only s b branches) (h' : Only s b branches')
    (hb : ∀ f, b.rule.parse s = .error f → f.rest.length < s.length) :
    ((firstOf branches hne).run s).result = ((firstOf branches' hne').run s).result ∧
      ((firstOf branches hne).run s).rest = ((firstOf branches' hne').run s).rest := by
  have hparse : (firstOf branches hne).parse s = b.rule.parse s := parse_firstOf_of_only h hb
  have hparse' : (firstOf branches' hne').parse s = b.rule.parse s := parse_firstOf_of_only h' hb
  cases hp : b.rule.parse s with
  | ok x =>
    obtain ⟨hresult, hrest⟩ := parse_eq_ok_iff.mp (hparse.trans hp)
    obtain ⟨hresult', hrest'⟩ := parse_eq_ok_iff.mp (hparse'.trans hp)
    exact ⟨hresult.trans hresult'.symm, hrest.trans hrest'.symm⟩
  | error f =>
    have hresult := parse_eq_error_iff.mp (hparse.trans hp)
    have hresult' := parse_eq_error_iff.mp (hparse'.trans hp)
    refine ⟨hresult.trans hresult'.symm, ?_⟩
    cases hd : f.fault.isTooDeep with
    | false => rw [rest_firstOf hresult hd, rest_firstOf hresult' hd]
    | true => rw [rest_firstOf_of_only h hresult hd, rest_firstOf_of_only h' hresult' hd]

end Choice

end Asm65816
