import Mathlib.Data.List.TakeWhile
import Asm65816.Proofs.Grammar.Token
import Asm65816.Proofs.Rule.Choice
import Asm65816.Proofs.Rule.Extension
import Asm65816.Proofs.Rule.Repetition

/-!
# Blanks between tokens

Blanks are put in one place of a text, where no name and no number goes on from one side to the
other. A rule is blind to them if it makes the same of both texts: the same value, with what is left
over differing only in those blanks, or the same fault.

What is compared are the texts behind the blanks in front. Most rules begin by reading these, and
there a gap in front of everything else is no difference at all.
-/

namespace Asm65816

open Rule

variable {α β : Type} {w : Blanks} {same : Fault → Fault → Prop}

/-! ## Texts with a gap -/

/-- No name and no number goes on from the one text to the other. -/
def Apart (u v : List Char) : Prop :=
  ¬((∃ c ∈ u.getLast?, c = '!' ∨ Text.isIdentifierContinue c = true) ∧
    ∃ d ∈ v.head?, Text.isIdentifierContinue d = true)

theorem Apart.of_append {x u v : List Char} (h : Apart (x ++ u) v) (hu : u ≠ []) : Apart u v := by
  unfold Apart at h ⊢
  rwa [List.getLast?_append_of_ne_nil x hu] at h

/-- Two texts are respaced if one has blanks in a place behind its beginning where the other has
none. -/
inductive Respaced (w : Blanks) : List Char → List Char → Prop where
  | same (s : List Char) : Respaced w s s
  | gap {u v : List Char} : u ≠ [] → Apart u v → Respaced w (u ++ v) (u ++ (w.chars ++ v))

/-- Two texts are respaced behind the blanks in front of them. -/
def RespacedBehind (w : Blanks) (s s' : List Char) : Prop :=
  Respaced w (Text.skipBlanks s) (Text.skipBlanks s')

theorem respacedBehind_of_eq {s s' : List Char} (h : Text.skipBlanks s = Text.skipBlanks s') :
    RespacedBehind w s s' := by
  unfold RespacedBehind
  rw [h]
  exact .same _

/-- A gap in front of a text is no difference. -/
theorem respacedBehind_gap {u v : List Char} (h : u ≠ [] → Apart u v) :
    RespacedBehind w (u ++ v) (u ++ (w.chars ++ v)) := by
  have hu := Blanks.leading_append u
  by_cases hnil : Text.skipBlanks u = []
  · -- nothing but blanks stands before the gap
    rw [hnil, List.append_nil] at hu
    refine respacedBehind_of_eq ?_
    rw [← hu, Blanks.skipBlanks_append, Blanks.skipBlanks_append, w.skipBlanks_append]
  · have hne : u ≠ [] := by
      rintro rfl
      exact hnil rfl
    unfold RespacedBehind
    rw [Text.skipBlanks_append hnil, Text.skipBlanks_append hnil]
    refine .gap hnil (Apart.of_append (x := (Blanks.leading u).chars) ?_ hnil)
    rw [hu]
    exact h hne

theorem Respaced.behind {s s' : List Char} (h : Respaced w s s') : RespacedBehind w s s' := by
  cases h with
  | same => exact .same _
  | gap hu hapart => exact respacedBehind_gap fun _ => hapart

theorem Respaced.head?_eq {s s' : List Char} (h : Respaced w s s') : s.head? = s'.head? := by
  cases h with
  | same => rfl
  | gap hu _ => rw [List.head?_append_of_ne_nil _ hu, List.head?_append_of_ne_nil _ hu]

/-- Respaced texts are the same, or begin with the same character and have the gap behind it. -/
theorem Respaced.cases_cons {c : Char} {t s' : List Char} (h : Respaced w (c :: t) s') :
    s' = c :: t ∨
      ∃ u v, t = u ++ v ∧ s' = c :: (u ++ (w.chars ++ v)) ∧ Apart (c :: u) v := by
  generalize hs : c :: t = s at h
  cases h with
  | same => exact .inl rfl
  | @gap u v hu hapart =>
    obtain ⟨d, u, rfl⟩ := List.exists_cons_of_ne_nil hu
    rw [List.cons_append] at hs
    obtain ⟨rfl, rfl⟩ := List.cons_eq_cons.mp hs
    exact .inr ⟨u, v, rfl, rfl, hapart⟩

theorem Respaced.exists_cons {c : Char} {t s' : List Char} (h : Respaced w (c :: t) s') :
    ∃ t', s' = c :: t' ∧ RespacedBehind w t t' := by
  rcases h.cases_cons with rfl | ⟨u, v, rfl, rfl, hapart⟩
  · exact ⟨t, rfl, .same _⟩
  · exact ⟨_, rfl, respacedBehind_gap (hapart.of_append (x := [c]))⟩

theorem Respaced.eq_nil_iff {s s' : List Char} (h : Respaced w s s') : s = [] ↔ s' = [] := by
  rw [← List.head?_eq_none_iff, h.head?_eq, List.head?_eq_none_iff]

/-- The same run of characters of a name stands behind the first character, which is one itself. -/
theorem Respaced.exists_run {p : Char → Bool} {c : Char} {t s' : List Char}
    (h : Respaced w (c :: t) s')
    (hp : ∀ d, p d = true → Text.isIdentifierContinue d = true)
    (hc : c = '!' ∨ Text.isIdentifierContinue c = true) :
    ∃ t', s' = c :: t' ∧ t.takeWhile p = t'.takeWhile p ∧
      RespacedBehind w (t.dropWhile p) (t'.dropWhile p) := by
  rcases h.cases_cons with rfl | ⟨u, v, rfl, rfl, hapart⟩
  · exact ⟨t, rfl, rfl, .same _⟩
  refine ⟨_, rfl, ?_⟩
  by_cases hall : u.dropWhile p = []
  · -- the run goes up to the gap and not beyond it
    have hrun : ∀ d ∈ u, p d = true := fun d hd => List.dropWhile_eq_nil_iff.mp hall d hd
    have hlast : ∃ d ∈ (c :: u).getLast?, d = '!' ∨ Text.isIdentifierContinue d = true := by
      refine ⟨_, List.getLast?_eq_some_getLast (List.cons_ne_nil c u), ?_⟩
      rcases List.mem_cons.mp (List.getLast_mem (List.cons_ne_nil c u)) with h | h
      · rwa [h]
      · exact .inr (hp _ (hrun _ h))
    have hv : ∀ d ∈ v.head?, p d = true → False := fun d hd hpd =>
      hapart ⟨hlast, d, hd, hp d hpd⟩
    obtain ⟨htake, hdrop⟩ := takeWhile_run (w := Blanks.none) hp hrun
      fun d hd hpd => (hv d hd hpd).elim
    obtain ⟨htake', hdrop'⟩ := takeWhile_run (w := w) hp hrun
      fun d hd hpd => (hv d hd hpd).elim
    simp only [Blanks.none, List.nil_append] at htake hdrop
    rw [htake, hdrop, htake', hdrop']
    exact ⟨rfl, respacedBehind_gap (u := []) fun h => absurd rfl h⟩
  · rw [takeWhile_append_of_ne_nil hall, takeWhile_append_of_ne_nil hall,
      dropWhile_append_of_ne_nil hall, dropWhile_append_of_ne_nil hall]
    refine ⟨rfl, respacedBehind_gap fun _ => ?_⟩
    refine Apart.of_append (x := c :: u.takeWhile p) ?_ hall
    rwa [List.cons_append, List.takeWhile_append_dropWhile]

theorem RespacedBehind.skipBlanks {s s' : List Char} (h : RespacedBehind w s s') :
    RespacedBehind w (Text.skipBlanks s) (Text.skipBlanks s') := by
  unfold RespacedBehind
  rw [Text.skipBlanks_skipBlanks, Text.skipBlanks_skipBlanks]
  exact h

/-- The same token stands in front of texts that are respaced behind their blanks. -/
theorem RespacedBehind.nextToken? {s s' : List Char} (h : RespacedBehind w s s')
    (meaning : Char → Option β) :
    (nextToken? meaning s = none ∧ nextToken? meaning s' = none) ∨
      ∃ b t t', nextToken? meaning s = some (b, t) ∧ nextToken? meaning s' = some (b, t') ∧
        Respaced w t t' := by
  unfold RespacedBehind at h
  cases hs : Text.skipBlanks s with
  | nil =>
    rw [hs] at h
    refine .inl ⟨nextToken?_eq_none_iff.mpr (by simp [hs]), nextToken?_eq_none_iff.mpr ?_⟩
    simp [h.eq_nil_iff.mp rfl]
  | cons c u =>
    rw [hs] at h
    obtain ⟨u', hs', hu⟩ := h.exists_cons
    cases hc : meaning c with
    | none =>
      refine .inl ⟨nextToken?_eq_none_iff.mpr ?_, nextToken?_eq_none_iff.mpr ?_⟩
      · simpa [hs] using hc
      · simpa [hs'] using hc
    | some b =>
      exact .inr ⟨b, _, _, nextToken?_eq_some_iff.mpr ⟨c, u, hs, hc, rfl⟩,
        nextToken?_eq_some_iff.mpr ⟨c, u', hs', hc, rfl⟩, hu⟩

/-! ## Outcomes that differ in a gap only -/

/-- The same is made of two texts: a value, with rests that are respaced, or a fault. Two faults
need only be related. -/
inductive Alike (w : Blanks) (same : Fault → Fault → Prop) :
    Except Failure (α × List Char) → Except Failure (α × List Char) → Prop where
  | ok {a : α} {u u' : List Char} :
      RespacedBehind w u u' → Alike w same (.ok (a, u)) (.ok (a, u'))
  | error {f f' : Failure} : same f.fault f'.fault → Alike w same (.error f) (.error f')

/-- The same is made of two texts by a round that may be given back. What such a round leaves over
does not matter. -/
inductive AlikeRound (w : Blanks) (same : Fault → Fault → Prop) :
    Except Failure (Option α × List Char) → Except Failure (Option α × List Char) → Prop where
  | next {a : α} {u u' : List Char} :
      RespacedBehind w u u' → AlikeRound w same (.ok (some a, u)) (.ok (some a, u'))
  | giveBack {u u' : List Char} : AlikeRound w same (.ok (none, u)) (.ok (none, u'))
  | error {f f' : Failure} : same f.fault f'.fault → AlikeRound w same (.error f) (.error f')

theorem Alike.cases {x x' : Except Failure (α × List Char)} (h : Alike w same x x') :
    (∃ a u u', x = .ok (a, u) ∧ x' = .ok (a, u') ∧ RespacedBehind w u u') ∨
      ∃ f f', x = .error f ∧ x' = .error f' ∧ same f.fault f'.fault := by
  cases h with
  | ok hu => exact .inl ⟨_, _, _, rfl, rfl, hu⟩
  | error hf => exact .inr ⟨_, _, rfl, rfl, hf⟩

theorem AlikeRound.cases {x x' : Except Failure (Option α × List Char)}
    (h : AlikeRound w same x x') :
    (∃ a u u', x = .ok (some a, u) ∧ x' = .ok (some a, u') ∧ RespacedBehind w u u') ∨
      (∃ u u', x = .ok (none, u) ∧ x' = .ok (none, u')) ∨
      ∃ f f', x = .error f ∧ x' = .error f' ∧ same f.fault f'.fault := by
  cases h with
  | next hu => exact .inl ⟨_, _, _, rfl, rfl, hu⟩
  | giveBack => exact .inr (.inl ⟨_, _, rfl, rfl⟩)
  | error hf => exact .inr (.inr ⟨_, _, rfl, rfl, hf⟩)

theorem Alike.round {x x' : Except Failure (Option α × List Char)} (h : Alike w same x x') :
    AlikeRound w same x x' := by
  cases h with
  | @ok a? u u' hu =>
    cases a? with
    | some a => exact .next hu
    | none => exact .giveBack
  | error hf => exact .error hf

theorem Alike.mono {same' : Fault → Fault → Prop} {x x' : Except Failure (α × List Char)}
    (h : Alike w same x x') (hsame : ∀ f g, same f g → same' f g) : Alike w same' x x' := by
  cases h with
  | ok hu => exact .ok hu
  | error hf => exact .error (hsame _ _ hf)

namespace Rule

/-- A rule makes the same of respaced texts. -/
def Blind (w : Blanks) (same : Fault → Fault → Prop) (r : Rule α) : Prop :=
  ∀ ⦃s s'⦄, RespacedBehind w s s' → Alike w same (r.parse s) (r.parse s')

theorem Blind.mono {same' : Fault → Fault → Prop} {r : Rule α} (h : r.Blind w same)
    (hsame : ∀ f g, same f g → same' f g) : r.Blind w same' :=
  fun _ _ hs => (h hs).mono hsame

theorem alike_bind {r : Rule α} {next : α → Rule β} {s s' : List Char}
    (h : Alike w same (r.parse s) (r.parse s')) (hnext : ∀ a, (next a).Blind w same) :
    Alike w same ((r >>= next).parse s) ((r >>= next).parse s') := by
  rcases h.cases with ⟨a, u, u', hs, hs', hu⟩ | ⟨f, f', hs, hs', hf⟩
  · rw [parse_bind_of_ok hs, parse_bind_of_ok hs']
    exact hnext a hu
  · rw [parse_bind_of_error hs, parse_bind_of_error hs']
    exact .error hf

theorem Blind.bind {r : Rule α} {next : α → Rule β} (h : r.Blind w same)
    (hnext : ∀ a, (next a).Blind w same) : (r >>= next).Blind w same :=
  fun _ _ hs => alike_bind (h hs) hnext

theorem blind_pure (a : α) : (pure a : Rule α).Blind w same := fun _ _ hs => .ok hs

theorem blind_record (event : Event) : (record event).Blind w same := fun _ _ hs => .ok hs

theorem blind_blanks : blanks.Blind w same := fun _ _ hs => .ok hs.behind

/-- A rule that reads the blanks in front is blind if it is so behind them. -/
theorem SkipsBlanks.blind {r : Rule α} (hskip : r.SkipsBlanks)
    (h : ∀ {s s'}, Unspaced s → Unspaced s' → Respaced w s s' →
      Alike w same (r.parse s) (r.parse s')) : r.Blind w same := by
  intro s s' hs
  rw [← hskip s, ← hskip s']
  exact h (unspaced_skipBlanks s) (unspaced_skipBlanks s') hs

theorem blind_blanks_then {r : Rule α}
    (h : ∀ {s s'}, Respaced w s s' → Alike w same (r.parse s) (r.parse s')) :
    (blanks >>= fun _ => r).Blind w same := by
  intro s s' hs
  rw [parse_bind_of_ok (parse_blanks s), parse_bind_of_ok (parse_blanks s')]
  exact h hs

/-! ### Tokens -/

theorem blind_token? (meaning : Char → Option β) : (token? meaning).Blind w same := by
  intro s s' hs
  rcases hs.nextToken? meaning with ⟨hnone, hnone'⟩ | ⟨b, t, t', hsome, hsome', ht⟩
  · rw [parse_token?_of_none hnone, parse_token?_of_none hnone']
    exact .ok hs
  · rw [parse_token?_of_some hsome, parse_token?_of_some hsome']
    exact .ok ht.behind

/-- What stands behind a token has its blanks skipped. -/
theorem blind_expect_then {chars : List Char} {what : String} {next : Char → Rule β}
    (h : ∀ c {t t'}, Respaced w t t' →
      Alike w Eq ((next c).parse t) ((next c).parse t')) :
    (expect chars what >>= next).Blind w Eq := by
  intro s s' hs
  rcases hs.nextToken? (oneOf chars) with ⟨hnone, hnone'⟩ | ⟨c, t, t', hsome, hsome', ht⟩
  · rw [parse_bind_of_error (parse_expect_of_none hnone),
      parse_bind_of_error (parse_expect_of_none hnone'), Respaced.head?_eq hs]
    exact .error rfl
  · rw [parse_bind_of_ok (parse_expect_of_some hsome),
      parse_bind_of_ok (parse_expect_of_some hsome')]
    exact h c ht

theorem blind_expect (chars : List Char) (what : String) : (expect chars what).Blind w Eq := by
  rw [← bind_pure (expect chars what)]
  exact blind_expect_then fun _ _ _ ht => .ok ht.behind

/-! ### Repetition -/

theorem Blind.attempt {r : Rule α} (h : r.Blind w Eq) {s s' : List Char}
    (hs : RespacedBehind w s s') : AlikeRound w Eq (r.attempt.parse s) (r.attempt.parse s') := by
  rcases (h hs).cases with ⟨a, u, u', ha, ha', hu⟩ | ⟨f, f', hf, hf', hfault⟩
  · rw [parse_attempt_of_ok ha, parse_attempt_of_ok ha']
    exact .next hu
  · cases hsoft : f.fault.isSoft with
    | true =>
      rw [parse_attempt_of_soft hf hsoft, parse_attempt_of_soft hf' (hfault ▸ hsoft)]
      exact .giveBack
    | false =>
      rw [parse_attempt_of_hard hf hsoft, parse_attempt_of_hard hf' (hfault ▸ hsoft)]
      exact .error hfault

theorem Blind.backIfNone {r : Rule (Option α)} (h : r.Blind w same) :
    r.backIfNone.Blind w same := by
  intro s s' hs
  rcases (h hs).round.cases with ⟨a, u, u', ha, ha', hu⟩ | ⟨u, u', hu, hu'⟩ |
    ⟨f, f', hf, hf', hfault⟩
  · rw [parse_backIfNone_of_some ha, parse_backIfNone_of_some ha']
    exact .ok hu
  · rw [parse_backIfNone_of_none hu, parse_backIfNone_of_none hu']
    exact .ok hs
  · rw [parse_backIfNone_of_error hf, parse_backIfNone_of_error hf']
    exact .error hfault

/-- **A repetition is blind if its rounds are.** -/
theorem blind_follow {meaning : Char → Option β} {step : β → α → Rule (Option α)}
    (h : ∀ b a {s s'}, RespacedBehind w s s' →
      AlikeRound w same ((step b a).parse s) ((step b a).parse s')) (a : α) :
    (follow meaning step a).Blind w same := by
  intro s s' hs
  -- every round leaves a shorter text
  generalize hn : s.length = n
  induction n using Nat.strongRecOn generalizing a s s' with
  | ind n ih =>
    rcases hs.nextToken? meaning with ⟨hnone, hnone'⟩ | ⟨b, t, t', hsome, hsome', ht⟩
    · rw [parse_follow_of_none hnone, parse_follow_of_none hnone']
      exact .ok hs
    rcases (h b a ht.behind).cases with ⟨c, u, u', hc, hc', hu⟩ | ⟨u, u', hu, hu'⟩ |
      ⟨f, f', hf, hf', hfault⟩
    · rw [parse_follow_of_next hsome hc, parse_follow_of_next hsome' hc']
      have h₁ := (nextToken?_suffix hsome).2
      have h₂ := (parse_suffix hc).length_le
      exact ih u.length (by omega) c hu rfl
    · rw [parse_follow_of_giveBack hsome hu, parse_follow_of_giveBack hsome' hu']
      exact .ok hs
    · rw [parse_follow_of_error hsome hf, parse_follow_of_error hsome' hf']
      exact .error hfault

/-! ### Choice -/

end Rule

theorem Alike.rejects_iff {b : Branch α} {s s' : List Char}
    (h : Alike w Eq (b.rule.parse s) (b.rule.parse s')) : b.Rejects s ↔ b.Rejects s' := by
  unfold Branch.Rejects Branch.RejectsWith
  rcases h.cases with ⟨a, u, u', hs, hs', _⟩ | ⟨f, f', hs, hs', hfault⟩
  · simp [hs, hs']
  · simp [hs, hs', hfault]

/-- The same forms are reached in texts that the same forms do not have. -/
theorem reached_congr {s s' : List Char} {b : Branch α} {branches : List (Branch α)}
    (h : ∀ c ∈ branches, c.Rejects s ↔ c.Rejects s') :
    Reached s b branches ↔ Reached s' b branches := by
  constructor
  · intro hr
    induction hr with
    | here => exact .here
    | later hc _ ih =>
      exact .later ((h _ List.mem_cons_self).mp hc) (ih fun d hd => h d (List.mem_cons_of_mem _ hd))
  · intro hr
    induction hr with
    | here => exact .here
    | later hc _ ih =>
      exact .later ((h _ List.mem_cons_self).mpr hc)
        (ih fun d hd => h d (List.mem_cons_of_mem _ hd))

namespace Rule

/-- **A choice is blind if its forms are**, up to what it fails with: which of the failures is the
furthest may depend on the gap. -/
theorem Blind.firstOf {branches : List (Branch α)} {hne : branches ≠ []}
    (h : ∀ b ∈ branches, b.rule.Blind w Eq) :
    (Rule.firstOf branches hne).Blind w fun _ _ => True := by
  intro s s' hs
  have hreached : ∀ {b}, Reached s b branches ↔ Reached s' b branches :=
    reached_congr fun c hc => (h c hc hs).rejects_iff
  cases hp : (Rule.firstOf branches hne).parse s with
  | ok x =>
    obtain ⟨b, hb, hx⟩ := parse_firstOf_eq_ok_iff.mp hp
    rcases (h b hb.mem hs).cases with ⟨a, u, u', ha, ha', hu⟩ | ⟨f, f', hf, _⟩
    · rw [ha] at hx
      cases hx
      rw [parse_firstOf_eq_ok_iff.mpr ⟨b, hreached.mp hb, ha'⟩]
      exact .ok hu
    · rw [hf] at hx
      cases hx
  | error f =>
    cases hp' : (Rule.firstOf branches hne).parse s' with
    | error f' => exact .error trivial
    | ok x =>
      -- the form that matches the one text would match the other
      obtain ⟨b, hb, hx⟩ := parse_firstOf_eq_ok_iff.mp hp'
      rcases (h b hb.mem hs).cases with ⟨a, u, u', ha, _⟩ | ⟨f, f', _, hf', _⟩
      · rw [parse_firstOf_eq_ok_iff.mpr ⟨b, hreached.mpr hb, ha⟩] at hp
        cases hp
      · rw [hf'] at hx
        cases hx

end Rule

end Asm65816
