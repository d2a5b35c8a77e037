import Asm65816.Proofs.Rule.Parse

/-!
# What a repetition makes of a text

A chain of operands and a list of arguments are both read round by round. Each round is described
here by an equation, so that a chain can be followed from any value that it has reached:
`chainFrom` and `argumentsFrom` are the part of a chain and of a list that is still to be read.
-/

namespace Asm65816.Rule

variable {α β : Type}

/-! ## One round -/

section Follow

variable {meaning : Char → Option β} {step : β → α → Rule (Option α)} {a : α} {b : β}
  {s t : List Char}

/-- Without a token the repetition is over. -/
theorem parse_follow_of_none (h : nextToken? meaning s = none) :
    (follow meaning step a).parse s = .ok (a, s) := by
  show (followFrom meaning step a s).parsed = _
  rw [followFrom_of_none h]
  rfl

theorem parse_follow_of_error {f : Failure} (h : nextToken? meaning s = some (b, t))
    (hs : (step b a).parse t = .error f) : (follow meaning step a).parse s = .error f := by
  show (followFrom meaning step a s).parsed = _
  rw [followFrom_of_some h]
  dsimp only
  rw [parse_eq_error_iff.mp hs]
  rfl

/-- A round that is given back ends the repetition before its token. -/
theorem parse_follow_of_giveBack {u : List Char} (h : nextToken? meaning s = some (b, t))
    (hs : (step b a).parse t = .ok (none, u)) : (follow meaning step a).parse s = .ok (a, s) := by
  show (followFrom meaning step a s).parsed = _
  rw [followFrom_of_some h]
  dsimp only
  rw [(parse_eq_ok_iff.mp hs).1]
  rfl

theorem parse_follow_of_next {a' : α} {u : List Char} (h : nextToken? meaning s = some (b, t))
    (hs : (step b a).parse t = .ok (some a', u)) :
    (follow meaning step a).parse s = (follow meaning step a').parse u := by
  show (followFrom meaning step a s).parsed = (followFrom meaning step a' u).parsed
  rw [followFrom_of_some h]
  dsimp only
  rw [(parse_eq_ok_iff.mp hs).1, (parse_eq_ok_iff.mp hs).2]
  rfl

/-- What comes of a repetition from a value on, and before which text it then stands. -/
inductive Rounds (meaning : Char → Option β) (step : β → α → Rule (Option α)) :
    α → List Char → Except Failure α → List Char → Prop where
  /-- No token follows. -/
  | ended {a : α} {s : List Char} :
      nextToken? meaning s = none → Rounds meaning step a s (.ok a) s
  /-- A round is given back together with its token. -/
  | givenBack {a : α} {b : β} {s t : List Char} :
      nextToken? meaning s = some (b, t) → ((step b a).run t).result = .ok none →
      Rounds meaning step a s (.ok a) s
  /-- A round fails. -/
  | failed {a : α} {b : β} {s t : List Char} {f : Failure} :
      nextToken? meaning s = some (b, t) → ((step b a).run t).result = .error f →
      Rounds meaning step a s (.error f) ((step b a).run t).rest
  /-- The repetition goes on from the value that a round gives. -/
  | next {a a' : α} {b : β} {s t u : List Char} {result : Except Failure α} :
      nextToken? meaning s = some (b, t) → ((step b a).run t).result = .ok (some a') →
      Rounds meaning step a' ((step b a).run t).rest result u → Rounds meaning step a s result u

/-- **A repetition goes round by round.** -/
theorem rounds_follow (meaning : Char → Option β) (step : β → α → Rule (Option α)) (a : α)
    (s : List Char) : Rounds meaning step a s ((follow meaning step a).run s).result
      ((follow meaning step a).run s).rest := by
  show Rounds meaning step a s (followFrom meaning step a s).result
    (followFrom meaning step a s).rest
  fun_induction followFrom meaning step a s with
  | case1 a s h => exact .ended h
  | case2 a s b t h o f hf => exact .failed h hf
  | case3 a s b t h o hnone => exact .givenBack h hnone
  | case4 a s b t h o a' ha ih => exact .next h ha ih

theorem rounds_of_parse {e : α} (h : (follow meaning step a).parse s = .ok (e, t)) :
    Rounds meaning step a s (.ok e) t := by
  obtain ⟨hresult, hrest⟩ := parse_eq_ok_iff.mp h
  have hrounds := rounds_follow meaning step a s
  rwa [hresult, hrest] at hrounds

theorem rounds_of_error {f : Failure} (h : (follow meaning step a).parse s = .error f) :
    ∃ t, Rounds meaning step a s (.error f) t := by
  have hrounds := rounds_follow meaning step a s
  rw [parse_eq_error_iff.mp h] at hrounds
  exact ⟨_, hrounds⟩

/-- What every round keeps holds at the end of a repetition. -/
theorem follow_invariant {P : α → List Char → Prop} {e : α}
    (hstep : ∀ {a b c s t u}, P a s → nextToken? meaning s = some (b, t) →
      (step b a).parse t = .ok (some c, u) → P c u)
    (h : (follow meaning step a).parse s = .ok (e, t)) (ha : P a s) : P e t := by
  have hrounds := rounds_of_parse h
  clear h
  generalize hresult : Except.ok e = result at hrounds
  induction hrounds with
  | ended _ | givenBack _ _ =>
    cases hresult
    exact ha
  | failed _ _ => cases hresult
  | next hnext hround _ ih =>
    exact ih (hstep ha hnext (parse_eq_ok_iff.mpr ⟨hround, rfl⟩)) hresult

theorem Gives.follow {P : α → Prop}
    (h : ∀ b a, P a → (step b a).Gives fun a? => ∀ a', a? = some a' → P a') (ha : P a) :
    (follow meaning step a).Gives P := fun _ _ _ he =>
  follow_invariant (P := fun a _ => P a) (fun ha _ hround => h _ _ ha hround _ rfl) he ha

/-- A repetition ends where no token follows, or before one whose round is given back. -/
theorem follow_ends {e : α} (h : (follow meaning step a).parse s = .ok (e, t)) :
    nextToken? meaning t = none ∨
      ∃ b v u, nextToken? meaning t = some (b, v) ∧ (step b e).parse v = .ok (none, u) := by
  have hrounds := rounds_of_parse h
  clear h
  generalize hresult : Except.ok e = result at hrounds
  induction hrounds with
  | ended hnone => exact .inl hnone
  | givenBack hnext hround =>
    cases hresult
    exact .inr ⟨_, _, _, hnext, parse_eq_ok_iff.mpr ⟨hround, rfl⟩⟩
  | failed _ _ => cases hresult
  | next _ _ _ ih => exact ih hresult

/-- A repetition fails with one of its rounds, up to which every round has kept what it should. -/
theorem exists_round_of_invariant {P : α → List Char → Prop} {f : Failure}
    (hstep : ∀ {a b c s t u}, P a s → nextToken? meaning s = some (b, t) →
      (step b a).parse t = .ok (some c, u) → P c u)
    (h : (follow meaning step a).parse s = .error f) (ha : P a s) :
    ∃ b a' u t, P a' u ∧ nextToken? meaning u = some (b, t) ∧ (step b a').parse t = .error f := by
  obtain ⟨t, hrounds⟩ := rounds_of_error h
  clear h
  generalize hresult : Except.error f = result at hrounds
  induction hrounds with
  | ended _ | givenBack _ _ => cases hresult
  | failed hnext hround =>
    cases hresult
    exact ⟨_, _, _, _, ha, hnext, parse_eq_error_iff.mpr hround⟩
  | next hnext hround _ ih =>
    exact ih (hstep ha hnext (parse_eq_ok_iff.mpr ⟨hround, rfl⟩)) hresult

theorem exists_round_of_parse_follow {f : Failure}
    (h : (follow meaning step a).parse s = .error f) :
    ∃ b a' t, (step b a').parse t = .error f := by
  obtain ⟨b, a', _, t, _, _, ht⟩ :=
    exists_round_of_invariant (P := fun _ _ => True) (fun _ _ _ => trivial) h trivial
  exact ⟨b, a', t, ht⟩

theorem Fails.follow {P : Failure → Prop} (h : ∀ b a, (step b a).Fails P) (a : α) :
    (follow meaning step a).Fails P := by
  intro s f hf
  obtain ⟨b, a', t, ht⟩ := exists_round_of_parse_follow hf
  exact h b a' ht

end Follow

/-! ## Attempts -/

theorem parse_attempt_of_ok {r : Rule α} {s t : List Char} {a : α} (h : r.parse s = .ok (a, t)) :
    r.attempt.parse s = .ok (some a, t) := by
  obtain ⟨hr, ht⟩ := parse_eq_ok_iff.mp h
  unfold parse attempt
  dsimp only
  rw [hr, ← ht]
  rfl

theorem parse_attempt_of_soft {r : Rule α} {s : List Char} {f : Failure}
    (h : r.parse s = .error f) (hf : f.fault.isSoft = true) :
    r.attempt.parse s = .ok (none, (r.run s).rest) := by
  unfold parse attempt
  dsimp only
  rw [parse_eq_error_iff.mp h]
  simp [Outcome.parsed, hf]

theorem parse_attempt_of_hard {r : Rule α} {s : List Char} {f : Failure}
    (h : r.parse s = .error f) (hf : f.fault.isSoft = false) :
    r.attempt.parse s = .error f := by
  unfold parse attempt
  dsimp only
  rw [parse_eq_error_iff.mp h]
  simp [Outcome.parsed, hf]

theorem parse_of_parse_attempt {r : Rule α} {s t : List Char} {a : α}
    (h : r.attempt.parse s = .ok (some a, t)) : r.parse s = .ok (a, t) := by
  cases hr : r.parse s with
  | ok x =>
    obtain ⟨b, u⟩ := x
    rw [parse_attempt_of_ok hr] at h
    cases h
    rfl
  | error f =>
    cases hf : f.fault.isSoft with
    | true =>
      rw [parse_attempt_of_soft hr hf] at h
      cases h
    | false =>
      rw [parse_attempt_of_hard hr hf] at h
      cases h

theorem parse_of_attempt_error {r : Rule α} {s : List Char} {f : Failure}
    (h : r.attempt.parse s = .error f) : r.parse s = .error f := by
  cases hr : r.parse s with
  | ok x =>
    rw [parse_attempt_of_ok hr] at h
    cases h
  | error g =>
    cases hg : g.fault.isSoft with
    | true =>
      rw [parse_attempt_of_soft hr hg] at h
      cases h
    | false =>
      rw [parse_attempt_of_hard hr hg] at h
      cases h
      rfl

theorem Fails.attempt {P : Failure → Prop} {r : Rule α} (h : r.Fails P) : r.attempt.Fails P :=
  fun _ _ hf => h (parse_of_attempt_error hf)

/-! ## Going back to the beginning -/

theorem parse_backIfNone_of_some {r : Rule (Option α)} {s t : List Char} {a : α}
    (h : r.parse s = .ok (some a, t)) : r.backIfNone.parse s = .ok (some a, t) := by
  obtain ⟨hr, ht⟩ := parse_eq_ok_iff.mp h
  unfold parse backIfNone
  dsimp only
  rw [hr]
  exact h

theorem parse_backIfNone_of_none {r : Rule (Option α)} {s t : List Char}
    (h : r.parse s = .ok (none, t)) : r.backIfNone.parse s = .ok (none, s) := by
  obtain ⟨hr, _⟩ := parse_eq_ok_iff.mp h
  unfold parse backIfNone
  dsimp only
  rw [hr]
  rfl

theorem parse_backIfNone_of_error {r : Rule (Option α)} {s : List Char} {f : Failure}
    (h : r.parse s = .error f) : r.backIfNone.parse s = .error f := by
  have hr := parse_eq_error_iff.mp h
  unfold parse backIfNone
  dsimp only
  rw [hr]
  exact h

/-- Where something is read in the end, nothing is given back. -/
theorem of_parse_backIfNone {r : Rule (Option α)} {s t : List Char} {a? : Option α}
    (h : r.backIfNone.parse s = .ok (a?, t)) :
    (a? = none ∧ t = s) ∨ ∃ a, a? = some a ∧ r.parse s = .ok (some a, t) := by
  cases hr : r.parse s with
  | error f =>
    rw [parse_backIfNone_of_error hr] at h
    cases h
  | ok x =>
    obtain ⟨b?, u⟩ := x
    cases b? with
    | none =>
      rw [parse_backIfNone_of_none hr] at h
      cases h
      exact .inl ⟨rfl, rfl⟩
    | some b =>
      rw [parse_backIfNone_of_some hr] at h
      cases h
      exact .inr ⟨b, rfl, rfl⟩

theorem Fails.backIfNone {P : Failure → Prop} {r : Rule (Option α)} (h : r.Fails P) :
    r.backIfNone.Fails P := by
  intro s f hf
  cases hr : r.parse s with
  | error g =>
    rw [parse_backIfNone_of_error hr] at hf
    cases hf
    exact h hr
  | ok x =>
    obtain ⟨a?, t⟩ := x
    cases a? with
    | none =>
      rw [parse_backIfNone_of_none hr] at hf
      cases hf
    | some a =>
      rw [parse_backIfNone_of_some hr] at hf
      cases hf

/-! ## Chains -/

/-- The rest of a chain from the value of its beginning on. -/
def chainFrom (operator? : Char → Option Operator) (operand : Rule Expression) (a : Expression) :
    Rule Expression :=
  follow operator? (fun operator left => do
    match ← operand.attempt with
    | some right => return some (.binary operator left right)
    | none => return none) a

theorem chain_eq (operator? : Char → Option Operator) (operand : Rule Expression) :
    chain operator? operand = operand >>= chainFrom operator? operand := rfl

section Chain

variable {operator? : Char → Option Operator} {operand : Rule Expression} {a b : Expression}
  {o : Operator} {s t u : List Char} {f : Failure}

theorem parse_chainFrom_of_none (h : nextToken? operator? s = none) :
    (chainFrom operator? operand a).parse s = .ok (a, s) := parse_follow_of_none h

/-- An operator and its operand join the chain. -/
theorem parse_chainFrom_of_ok (h : nextToken? operator? s = some (o, t))
    (hb : operand.parse t = .ok (b, u)) :
    (chainFrom operator? operand a).parse s =
      (chainFrom operator? operand (.binary o a b)).parse u := by
  refine parse_follow_of_next h ?_
  rw [parse_bind_of_ok (parse_attempt_of_ok hb)]
  rfl

/-- An operator without an operand is left over. -/
theorem parse_chainFrom_of_soft (h : nextToken? operator? s = some (o, t))
    (hb : operand.parse t = .error f) (hf : f.fault.isSoft = true) :
    (chainFrom operator? operand a).parse s = .ok (a, s) := by
  refine parse_follow_of_giveBack h (u := (operand.run t).rest) ?_
  rw [parse_bind_of_ok (parse_attempt_of_soft hb hf)]
  rfl

/-- A literal that is too great, or nesting too deep, ends the chain with a failure. -/
theorem parse_chainFrom_of_hard (h : nextToken? operator? s = some (o, t))
    (hb : operand.parse t = .error f) (hf : f.fault.isSoft = false) :
    (chainFrom operator? operand a).parse s = .error f := by
  refine parse_follow_of_error h ?_
  rw [parse_bind_of_error (parse_attempt_of_hard hb hf)]

/-- What every operator and operand of a chain keep holds at its end. -/
theorem chainFrom_invariant {P : Expression → List Char → Prop} {e : Expression}
    (hstep : ∀ {a b o s t u}, P a s → nextToken? operator? s = some (o, t) →
      operand.parse t = .ok (b, u) → P (.binary o a b) u)
    (h : (chainFrom operator? operand a).parse s = .ok (e, t)) (ha : P a s) : P e t := by
  refine follow_invariant ?_ h ha
  intro a o c s t u ha hs hround
  obtain ⟨b?, v, hb, hc⟩ := parse_bind_eq_ok_iff.mp hround
  cases b? with
  | none => cases hc
  | some b =>
    obtain ⟨hc, rfl⟩ := eq_of_parse_pure hc
    cases hc
    exact hstep ha hs (parse_of_parse_attempt hb)

/-- An operand that is given back has failed softly. -/
theorem exists_soft_of_round (h : (operand.attempt >>= fun b? => match b? with
      | some b => pure (some (Expression.binary o a b))
      | none => pure none).parse s = .ok (none, t)) :
    ∃ f, operand.parse s = .error f ∧ f.fault.isSoft = true := by
  cases hb : operand.parse s with
  | ok x =>
    obtain ⟨b, u⟩ := x
    rw [parse_bind_of_ok (parse_attempt_of_ok hb)] at h
    cases h
  | error f =>
    cases hf : f.fault.isSoft with
    | true => exact ⟨f, rfl, hf⟩
    | false =>
      rw [parse_bind_of_error (parse_attempt_of_hard hb hf)] at h
      cases h

/-- **A chain ends behind an operand**, before a text without an operator, or with one whose operand
fails softly. -/
theorem chain_ends {e : Expression} (h : (chain operator? operand).parse s = .ok (e, t)) :
    (∃ u x, operand.parse u = .ok (x, t)) ∧
      (nextToken? operator? t = none ∨ ∃ o v f, nextToken? operator? t = some (o, v) ∧
        operand.parse v = .error f ∧ f.fault.isSoft = true) := by
  obtain ⟨a, u, ha, h⟩ := parse_bind_eq_ok_iff.mp (chain_eq operator? operand ▸ h)
  constructor
  · exact chainFrom_invariant (P := fun _ t => ∃ u x, operand.parse u = .ok (x, t))
      (fun _ _ hb => ⟨_, _, hb⟩) h ⟨s, a, ha⟩
  · rcases follow_ends h with hnone | ⟨o, v, w, hnext, hround⟩
    · exact .inl hnone
    · obtain ⟨f, hf, hsoft⟩ := exists_soft_of_round hround
      exact .inr ⟨o, v, f, hnext, hf, hsoft⟩

/-- A chain fails behind one of its operators. -/
theorem chainFrom_failure_lt (h : (chainFrom operator? operand a).parse s = .error f) :
    f.rest.length < s.length := by
  obtain ⟨o, a', u, t, hu, hnext, hround⟩ := exists_round_of_invariant (P := fun _ u => u <:+ s)
    (fun hs hnext hround => (parse_suffix hround).trans ((nextToken?_suffix hnext).1.trans hs)) h
    (List.suffix_refl s)
  have h₁ := (parse_failure_suffix hround).length_le
  have h₂ := (nextToken?_suffix hnext).2
  have h₃ := hu.length_le
  omega

/-- Operands with a property, joined to a chain. -/
inductive Chained (P : Expression → Prop) : Expression → Prop where
  | operand {e : Expression} : P e → Chained P e
  | binary {operator : Operator} {left right : Expression} :
      Chained P left → P right → Chained P (.binary operator left right)

theorem Gives.chain {P : Expression → Prop} (h : operand.Gives P) :
    (chain operator? operand).Gives (Chained P) := by
  refine h.bind fun a ha => fun s t e he => ?_
  exact chainFrom_invariant (P := fun a _ => Chained P a) (fun ha _ hb => .binary ha (h hb)) he
    (.operand ha)

theorem SkipsBlanks.chain (h : operand.SkipsBlanks) : (chain operator? operand).SkipsBlanks :=
  h.bind (chainFrom operator? operand)

end Chain

/-! ## Arguments -/

/-- The rest of a list of arguments from the earlier ones on, the latest of them in front. -/
def argumentsFrom (inner : Rule Expression) (earlier : List Expression) : Rule (List Expression) :=
  follow (oneOf [',']) (fun _ earlier => do return some ((← inner) :: earlier)) earlier

/-- A list of arguments that has at least one, up to the closing parenthesis. -/
def someArguments (inner : Rule Expression) : Rule (List Expression) := do
  let first ← inner
  argumentsFrom inner [first]

section Arguments

variable {inner : Rule Expression} {earlier : List Expression} {e : Expression}
  {s t u : List Char} {c : Char} {f : Failure}

theorem parse_argumentsFrom_of_none (h : nextToken? (oneOf [',']) s = none) :
    (argumentsFrom inner earlier).parse s = .ok (earlier, s) := parse_follow_of_none h

theorem parse_argumentsFrom_of_ok (h : nextToken? (oneOf [',']) s = some (c, t))
    (he : inner.parse t = .ok (e, u)) :
    (argumentsFrom inner earlier).parse s = (argumentsFrom inner (e :: earlier)).parse u := by
  refine parse_follow_of_next h ?_
  rw [parse_bind_of_ok he]
  rfl

theorem parse_argumentsFrom_of_error (h : nextToken? (oneOf [',']) s = some (c, t))
    (he : inner.parse t = .error f) : (argumentsFrom inner earlier).parse s = .error f := by
  refine parse_follow_of_error h ?_
  rw [parse_bind_of_error he]

/-- What every comma and argument keep holds at the end of a list of arguments. -/
theorem argumentsFrom_invariant {P : List Expression → List Char → Prop} {es : List Expression}
    (hstep : ∀ {es e c s t u}, P es s → nextToken? (oneOf [',']) s = some (c, t) →
      inner.parse t = .ok (e, u) → P (e :: es) u)
    (h : (argumentsFrom inner earlier).parse s = .ok (es, t)) (hs : P earlier s) : P es t := by
  refine follow_invariant ?_ h hs
  intro es c es' s t u hes hs hround
  obtain ⟨e, v, he, hv⟩ := parse_bind_eq_ok_iff.mp hround
  obtain ⟨h, rfl⟩ := eq_of_parse_pure hv
  cases h
  exact hstep hes hs he

/-- A list of arguments fails with one of them, up to which every argument has kept what it
should. -/
theorem exists_argument_of_invariant {P : List Expression → List Char → Prop}
    (hstep : ∀ {es e c s t u}, P es s → nextToken? (oneOf [',']) s = some (c, t) →
      inner.parse t = .ok (e, u) → P (e :: es) u)
    (h : (argumentsFrom inner earlier).parse s = .error f) (hs : P earlier s) :
    ∃ es c u t, P es u ∧ nextToken? (oneOf [',']) u = some (c, t) ∧ inner.parse t = .error f := by
  have hround : ∀ {es c es' s t u}, P es s → nextToken? (oneOf [',']) s = some (c, t) →
      (do return some ((← inner) :: es) : Rule (Option (List Expression))).parse t =
        .ok (some es', u) → P es' u := by
    intro es c es' s t u hes hs hround
    obtain ⟨e, v, he, hv⟩ := parse_bind_eq_ok_iff.mp hround
    obtain ⟨h, rfl⟩ := eq_of_parse_pure hv
    cases h
    exact hstep hes hs he
  obtain ⟨c, es, u, t, hes, hcomma, ht⟩ := exists_round_of_invariant hround h hs
  exact ⟨es, c, u, t, hes, hcomma, parse_bind_pure_eq_error_iff.mp ht⟩

/-- Nothing but a closing parenthesis. -/
theorem parse_arguments_of_close (h : nextToken? (oneOf [')']) s = some (c, t)) :
    (arguments inner).parse s = .ok ([], t) := by
  rw [arguments, parse_bind_of_ok (parse_token?_of_some h)]
  rfl

theorem parse_arguments_of_not_close (h : nextToken? (oneOf [')']) s = none) :
    (arguments inner).parse s =
      (someArguments inner >>= fun reversed => do
        let _ ← expect [')'] "',' or ')' in argument list"
        return reversed.reverse).parse s := by
  rw [arguments, parse_bind_of_ok (parse_token?_of_none h), someArguments, bind_assoc]
  rfl

end Arguments

/-! ## Names -/

/-- What makes a name a function or a reference. -/
def nameEnd (inner : Rule Expression) (identifier : String) : Rule Expression := do
  match ← token? (oneOf ['(']) with
  | some _ => return .call identifier (← arguments inner)
  | none =>
    blanks
    return .reference (.named identifier)

theorem name_eq (inner : Rule Expression) :
    name inner = blanks >>= fun _ => identifier >>= nameEnd inner := rfl

section Names

variable {inner : Rule Expression} {identifier : String} {s t : List Char} {c : Char}

theorem parse_nameEnd_of_none (h : nextToken? (oneOf ['(']) s = none) :
    (nameEnd inner identifier).parse s =
      .ok (.reference (.named identifier), Text.skipBlanks s) := by
  rw [nameEnd, parse_bind_of_ok (parse_token?_of_none h)]
  rfl

theorem parse_nameEnd_of_open (h : nextToken? (oneOf ['(']) s = some (c, t)) :
    (nameEnd inner identifier).parse s =
      (arguments inner >>= fun es => pure (.call identifier es)).parse t := by
  rw [nameEnd, parse_bind_of_ok (parse_token?_of_some h)]

end Names

end Asm65816.Rule
