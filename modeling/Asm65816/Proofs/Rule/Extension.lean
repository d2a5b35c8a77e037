import Asm65816.Proofs.Rule.Choice
import Asm65816.Proofs.Rule.Repetition

/-!
# More text behind a text

A text is settled for a rule if nothing that may still come behind it changes what the rule makes of
it: the value stays and the rest gets longer, or the failure stays where it is. The rules of this
grammar look only a little ahead, so a text that is not settled is pending for a reason that can be
told: the rule came to the end of the text, or it went back to a place from which it had come there.
What these places are depends on the grammar, and is a parameter here.
-/

namespace Asm65816

variable {α β : Type}

/-! ## The same outcome in front of more text -/

/-- A fault without the digits of a literal that is too great. More digits may follow them. -/
def Fault.kind : Fault → Fault
  | overflow _ => overflow ""
  | fault => fault

theorem Fault.isSoft_of_kind {f g : Fault} (h : g.kind = f.kind) : g.isSoft = f.isSoft := by
  cases f <;> cases g <;> first | rfl | cases h

theorem Fault.isTooDeep_of_kind {f g : Fault} (h : g.kind = f.kind) :
    g.isTooDeep = f.isTooDeep := by
  cases f <;> cases g <;> first | rfl | cases h

theorem Fault.isTooDeep_of_isSoft {f : Fault} (h : f.isSoft = true) : f.isTooDeep = false := by
  cases f <;> first | rfl | cases h

/-- Only the digits of a literal get lost. -/
theorem Fault.eq_of_kind {f g : Fault} (h : g.kind = f.kind) (hf : f.isSoft = true) : g = f := by
  cases f <;> cases g <;> cases h <;> first | rfl | cases hf

/-- A failure is another one with more text behind it. -/
structure Failure.Extends (g f : Failure) (t : List Char) : Prop where
  /-- It stands in the same place. -/
  rest : g.rest = f.rest ++ t
  /-- The fault is the same. -/
  kind : g.fault.kind = f.fault.kind

/-- The failures of two forms compare as they did. -/
theorem Failure.Extends.further {f f' g g' : Failure} {t : List Char} (h : f'.Extends f t)
    (h' : g'.Extends g t) : (f'.further g').Extends (f.further g) t := by
  unfold Failure.further
  rw [h.rest, h'.rest, List.length_append, List.length_append]
  split
  · rw [if_pos (by omega)]
    exact h'
  · rw [if_neg (by omega)]
    exact h

/-- What is made of a text, and of that text with more text behind it. -/
inductive Prolonged (t : List Char) :
    Except Failure (α × List Char) → Except Failure (α × List Char) → Prop where
  | ok (a : α) (u : List Char) : Prolonged t (.ok (a, u)) (.ok (a, u ++ t))
  | error {f g : Failure} : g.Extends f t → Prolonged t (.error f) (.error g)

namespace Rule

/-- No text behind it changes what a rule makes of a text. -/
def Settled (r : Rule α) (s : List Char) : Prop := ∀ t, Prolonged t (r.parse s) (r.parse (s ++ t))

section Settled

variable {r : Rule α} {next : α → Rule β} {s u : List Char} {a : α} {f : Failure}

theorem settled_of_ok (h : r.parse s = .ok (a, u)) (ht : ∀ t, r.parse (s ++ t) = .ok (a, u ++ t)) :
    r.Settled s := by
  intro t
  rw [h, ht]
  exact .ok a u

theorem settled_of_error (h : r.parse s = .error f)
    (ht : ∀ t, r.parse (s ++ t) = .error ⟨f.fault, f.rest ++ t⟩) : r.Settled s := by
  intro t
  rw [h, ht]
  exact .error ⟨rfl, rfl⟩

theorem Settled.ok (h : r.Settled s) (hs : r.parse s = .ok (a, u)) (t : List Char) :
    r.parse (s ++ t) = .ok (a, u ++ t) := by
  have ht := h t
  rw [hs] at ht
  generalize r.parse (s ++ t) = x at ht ⊢
  cases ht
  rfl

theorem Settled.error (h : r.Settled s) (hs : r.parse s = .error f) (t : List Char) :
    ∃ g, r.parse (s ++ t) = .error g ∧ g.Extends f t := by
  have ht := h t
  rw [hs] at ht
  generalize r.parse (s ++ t) = x at ht ⊢
  cases ht with
  | error hg => exact ⟨_, rfl, hg⟩

/-- A soft failure stays the same altogether. -/
theorem Settled.soft (h : r.Settled s) (hs : r.parse s = .error f) (hf : f.fault.isSoft = true)
    (t : List Char) : r.parse (s ++ t) = .error ⟨f.fault, f.rest ++ t⟩ := by
  obtain ⟨⟨fault, rest⟩, hg, hrest, hkind⟩ := h.error hs t
  rw [hg, ← Fault.eq_of_kind hkind hf, ← hrest]

theorem Settled.bind_of_ok (h : r.Settled s) (hs : r.parse s = .ok (a, u))
    (hnext : (next a).Settled u) : (r >>= next).Settled s := by
  intro t
  rw [parse_bind_of_ok hs, parse_bind_of_ok (h.ok hs t)]
  exact hnext t

theorem Settled.bind_of_error (h : r.Settled s) (hs : r.parse s = .error f) (next : α → Rule β) :
    (r >>= next).Settled s := by
  intro t
  obtain ⟨g, hg, hext⟩ := h.error hs t
  rw [parse_bind_of_error hs, parse_bind_of_error hg]
  exact .error hext

end Settled

/-! ## Outcomes that are pending -/

/-- What a rule made of a text may change with more text behind it: there was nothing left to look
at, or the rule stands before something that is still open. -/
inductive Pending (Open : Failure → Prop) (Loose : List Char → Prop) :
    Except Failure (α × List Char) → Prop where
  | ended (a : α) : Pending Open Loose (.ok (a, []))
  | loose {u : List Char} (a : α) : Loose u → Pending Open Loose (.ok (a, u))
  | failed {f : Failure} : f.rest = [] → Pending Open Loose (.error f)
  | opened {f : Failure} : Open f → Pending Open Loose (.error f)

/-- Every text is settled for a rule unless the outcome is pending. -/
def Steady (Open : Failure → Prop) (Loose : List Char → Prop) (r : Rule α) : Prop :=
  ∀ s, Pending Open Loose (r.parse s) ∨ r.Settled s

/-- Nothing is left open. -/
def Firm (r : Rule α) : Prop := r.Steady (fun _ => False) (fun _ => False)

section Steady

variable {Open : Failure → Prop} {Loose Loose' : List Char → Prop} {r : Rule α}

/-- At the end of the text everything is pending. -/
theorem pending_nil (r : Rule α) : Pending Open Loose (r.parse []) := by
  cases h : r.parse [] with
  | ok x =>
    obtain ⟨a, u⟩ := x
    rw [List.suffix_nil.mp (parse_suffix h)]
    exact .ended a
  | error f => exact .failed (rest_eq_nil_of_parse_nil h)

theorem Firm.steady (h : r.Firm) : r.Steady Open Loose := by
  intro s
  refine (h s).imp_left fun hp => ?_
  generalize r.parse s = x at hp ⊢
  cases hp with
  | ended a => exact .ended a
  | failed hf => exact .failed hf
  | loose _ hu => exact absurd hu id
  | opened hf => exact absurd hf id

/-- One rule after the other. What the second does before something that the first left open has to
be looked at. -/
theorem Steady.bind {next : α → Rule β} (h : r.Steady Open Loose)
    (hnext : ∀ {s u a}, r.parse s = .ok (a, u) →
      Pending Open Loose' ((next a).parse u) ∨ (next a).Settled u)
    (hloose : ∀ a u, Loose u → Pending Open Loose' ((next a).parse u)) :
    (r >>= next).Steady Open Loose' := by
  intro s
  cases hr : r.parse s with
  | error f =>
    refine (h s).imp (fun hp => ?_) fun hs => hs.bind_of_error hr next
    rw [parse_bind_of_error hr]
    rw [hr] at hp
    cases hp with
    | failed hf => exact .failed hf
    | opened hf => exact .opened hf
  | ok x =>
    obtain ⟨a, u⟩ := x
    rw [parse_bind_of_ok hr]
    rcases h s with hp | hs
    · rw [hr] at hp
      cases hp with
      | ended => exact .inl (pending_nil (next a))
      | loose _ hu => exact .inl (hloose a u hu)
    · exact (hnext hr).imp_right (hs.bind_of_ok hr)

/-- A failure that is not open and not at the end of the text is there for good. -/
theorem Steady.settled (h : r.Steady Open Loose) {s : List Char} {f : Failure}
    (hs : r.parse s = .error f) (hrest : f.rest ≠ []) (hopen : ¬Open f) : r.Settled s := by
  refine (h s).resolve_left fun hp => ?_
  rw [hs] at hp
  cases hp with
  | failed hf => exact hrest hf
  | opened hf => exact hopen hf

/-- What is read is read for good if the rest is neither empty nor loose. -/
theorem Steady.settled_of_rest (h : r.Steady Open Loose) {s u : List Char} {a : α}
    (hs : r.parse s = .ok (a, u)) (hrest : u ≠ []) (hloose : ¬Loose u) : r.Settled s := by
  refine (h s).resolve_left fun hp => ?_
  rw [hs] at hp
  cases hp with
  | ended => exact hrest rfl
  | loose _ hu => exact hloose hu

/-- Where a rule does with a text, whatever comes behind it, what another rule does with another
text, it leaves no more open. -/
theorem pending_or_settled_of_eq {r' : Rule α} {s u : List Char}
    (h : Pending Open Loose (r'.parse u) ∨ r'.Settled u)
    (heq : ∀ t, r.parse (s ++ t) = r'.parse (u ++ t)) :
    Pending Open Loose (r.parse s) ∨ r.Settled s := by
  have hnow := heq []
  rw [List.append_nil, List.append_nil] at hnow
  refine h.imp (fun hp => ?_) fun hsettled t => ?_
  · rwa [hnow]
  · rw [hnow, heq t]
    exact hsettled t

/-- The first of two rules leaves nothing open. -/
theorem Firm.bind {next : α → Rule β} (h : r.Firm) (hnext : ∀ a, (next a).Steady Open Loose) :
    (r >>= next).Steady Open Loose :=
  h.steady.bind (fun _ => hnext _ _) fun _ _ hu => absurd hu id

end Steady

end Rule

/-! ## Tokens -/

theorem takeWhile_append_of_ne_nil {p : Char → Bool} {s : List Char} (h : s.dropWhile p ≠ [])
    (t : List Char) : (s ++ t).takeWhile p = s.takeWhile p := by
  rw [List.takeWhile_append, if_neg]
  intro hlength
  -- there would be nothing left to drop
  have hall := congrArg List.length (List.takeWhile_append_dropWhile (p := p) (l := s))
  rw [List.length_append, hlength] at hall
  exact h (List.eq_nil_of_length_eq_zero (by omega))

theorem dropWhile_append_of_ne_nil {p : Char → Bool} {s : List Char} (h : s.dropWhile p ≠ [])
    (t : List Char) : (s ++ t).dropWhile p = s.dropWhile p ++ t := by
  rw [List.dropWhile_append, if_neg (by simpa using h)]

theorem Text.skipBlanks_append {s : List Char} (h : skipBlanks s ≠ []) (t : List Char) :
    skipBlanks (s ++ t) = skipBlanks s ++ t := dropWhile_append_of_ne_nil h t

/-- Where a rule does not mind blanks, it is enough to look behind them. -/
theorem Rule.SkipsBlanks.settled_iff {r : Rule α} (h : r.SkipsBlanks) {s : List Char}
    (hs : Text.skipBlanks s ≠ []) : r.Settled (Text.skipBlanks s) ↔ r.Settled s := by
  refine forall_congr' fun t => ?_
  rw [h s, ← h (s ++ t), Text.skipBlanks_append hs]

section Token

variable {meaning : Char → Option β} {s u : List Char} {b : β}

theorem nextToken?_append (h : nextToken? meaning s = some (b, u)) (hu : u ≠ []) (t : List Char) :
    nextToken? meaning (s ++ t) = some (b, u ++ t) := by
  obtain ⟨c, v, hs, hc, rfl⟩ := nextToken?_eq_some_iff.mp h
  have hne : Text.skipBlanks s ≠ [] := by simp [hs]
  refine nextToken?_eq_some_iff.mpr ⟨c, v ++ t, ?_, hc, (Text.skipBlanks_append hu t).symm⟩
  rw [Text.skipBlanks_append hne, hs, List.cons_append]

theorem nextToken?_append_of_none (h : nextToken? meaning s = none) (hs : Text.skipBlanks s ≠ [])
    (t : List Char) : nextToken? meaning (s ++ t) = none := by
  refine nextToken?_eq_none_iff.mpr ?_
  rw [Text.skipBlanks_append hs, List.head?_append_of_ne_nil _ hs]
  exact nextToken?_eq_none_iff.mp h

end Token

namespace Rule

theorem firm_pure (a : α) : (pure a : Rule α).Firm :=
  fun _ => .inr (settled_of_ok (parse_pure a _) fun _ => parse_pure a _)

theorem firm_missing (what : String) : (missing what : Rule α).Firm := by
  intro s
  cases s with
  | nil => exact .inl (pending_nil _)
  | cons c s =>
    have herror : ∀ s, (missing what : Rule α).parse (c :: s) =
        .error ⟨.missing what (some c), c :: s⟩ := fun s => parse_fail _ _
    exact .inr (settled_of_error (herror s) fun t => herror (s ++ t))

theorem settled_blanks {s : List Char} (hs : Text.skipBlanks s ≠ []) : blanks.Settled s := by
  refine settled_of_ok (parse_blanks s) fun t => ?_
  rw [parse_blanks, Text.skipBlanks_append hs]

theorem firm_blanks : blanks.Firm := by
  intro s
  by_cases hs : Text.skipBlanks s = []
  · rw [parse_blanks, hs]
    exact .inl (.ended ())
  · exact .inr (settled_blanks hs)

theorem firm_takeWhile (p : Char → Bool) : (takeWhile p).Firm := by
  intro s
  rw [parse_takeWhile]
  by_cases hs : s.dropWhile p = []
  · rw [hs]
    exact .inl (.ended _)
  · refine .inr (settled_of_ok (parse_takeWhile p s) fun t => ?_)
    rw [parse_takeWhile, takeWhile_append_of_ne_nil hs, dropWhile_append_of_ne_nil hs]

theorem firm_expect (chars : List Char) (what : String) : (expect chars what).Firm := by
  intro s
  by_cases hs : Text.skipBlanks s = []
  · -- the token is missing at the end of the text
    rw [← skipsBlanks_expect chars what s, hs]
    exact .inl (pending_nil _)
  · cases h : nextToken? (oneOf chars) s with
    | none =>
      refine .inr (settled_of_error (parse_expect_of_none h) fun t => ?_)
      rw [parse_expect_of_none (nextToken?_append_of_none h hs t), Text.skipBlanks_append hs,
        List.head?_append_of_ne_nil _ hs]
    | some x =>
      obtain ⟨c, u⟩ := x
      rw [parse_expect_of_some h]
      by_cases hu : u = []
      · rw [hu]
        exact .inl (.ended c)
      · exact .inr (settled_of_ok (parse_expect_of_some h) fun t =>
          parse_expect_of_some (nextToken?_append h hu t))

theorem firm_satisfy (p : Char → Bool) (what : String) : (satisfy p what).Firm := by
  intro s
  cases s with
  | nil => exact .inl (pending_nil _)
  | cons c s =>
    refine .inr ?_
    by_cases hc : p c = true
    · have hok : ∀ s, (satisfy p what).parse (c :: s) = .ok (c, s) := by
        intro s
        simp [parse, satisfy, hc, Outcome.parsed]
      exact settled_of_ok (hok s) fun t => hok (s ++ t)
    · have herror : ∀ s, (satisfy p what).parse (c :: s) =
          .error ⟨.missing what (some c), c :: s⟩ := by
        intro s
        simp [parse, satisfy, hc, Outcome.parsed]
      exact settled_of_error (herror s) fun t => herror (s ++ t)

end Rule

/-! ## Choice -/

section Choice

variable {s : List Char}

theorem exists_extends_of_settled {first : Branch α} {others : List (Branch α)}
    (h : ∀ b ∈ first :: others, b.rule.Settled s ∧ ∃ f, b.RejectsWith s f) (t : List Char) :
    ∃ f g, (tryForms s first others).parsed = .error f ∧ f.fault.isTooDeep = false ∧
      (tryForms (s ++ t) first others).parsed = .error g ∧ g.Extends f t := by
  obtain ⟨hsettled, f, hf⟩ := h first (by simp)
  obtain ⟨g, hg, hext⟩ := hsettled.error hf.1 t
  have hg : first.RejectsWith (s ++ t) g := ⟨hg, (Fault.isTooDeep_of_kind hext.kind).trans hf.2⟩
  induction others generalizing first f g with
  | nil => exact ⟨f, g, parsed_tryForms_last hf, hf.2, parsed_tryForms_last hg, hext⟩
  | cons next others ih =>
    obtain ⟨hsettled', f', hf'⟩ := h next (by simp)
    obtain ⟨g', hg', hext'⟩ := hsettled'.error hf'.1 t
    obtain ⟨f₁, g₁, hf₁, hd₁, hg₁, hext₁⟩ :=
      ih (fun b hb => h b (List.mem_cons_of_mem first hb)) hsettled' f' hf' g' hg' hext'
        ⟨hg', (Fault.isTooDeep_of_kind hext'.kind).trans hf'.2⟩
    have hd₁' : g₁.fault.isTooDeep = false := (Fault.isTooDeep_of_kind hext₁.kind).trans hd₁
    refine ⟨f.further f₁, g.further g₁, ?_, ?_, ?_, hext.further hext₁⟩
    · rw [parsed_tryForms_cons next others hf, Outcome.parsed_afterFailure_of_error hf₁, hd₁]
      rfl
    · rcases f.further_eq_or f₁ with e | e <;> rw [e]
      · exact hf.2
      · exact hd₁
    · rw [parsed_tryForms_cons next others hg, Outcome.parsed_afterFailure_of_error hg₁, hd₁']
      rfl

/-- **Where all forms fail for good, so does the choice.** -/
theorem Rule.settled_firstOf {branches : List (Branch α)} {hne : branches ≠ []}
    (h : ∀ b ∈ branches, b.rule.Settled s ∧ ∃ f, b.RejectsWith s f) :
    (firstOf branches hne).Settled s := by
  cases branches with
  | nil => exact absurd rfl hne
  | cons first others =>
    intro t
    obtain ⟨f, g, hf, _, hg, hext⟩ := exists_extends_of_settled h t
    show Prolonged t (tryForms s first others).parsed (tryForms (s ++ t) first others).parsed
    rw [hf, hg]
    exact .error hext

end Choice

end Asm65816
