import Mathlib.Data.List.Basic
import Asm65816.Proofs.Rule.Parse

/-!
# What a choice makes of a text

A choice takes the first form that matches, provided the forms before it fail for another reason
than too deep nesting. When all forms but one stop at their very first character, the choice is as
good as that one form: its failure, too, is further into the text than those of the others.
-/

namespace Asm65816

variable {α : Type}

/-- A branch that a choice passes over, with the failure that is then compared to the others. -/
def Branch.RejectsWith (b : Branch α) (s : List Char) (f : Failure) : Prop :=
  b.rule.parse s = .error f ∧ f.fault.isTooDeep = false

/-- A branch that a choice passes over. -/
def Branch.Rejects (b : Branch α) (s : List Char) : Prop := ∃ f, b.RejectsWith s f

/-- A branch that a choice passes over because its first token is missing. -/
def Branch.RejectsAtOnce (b : Branch α) (s : List Char) : Prop :=
  ∃ f, b.RejectsWith s f ∧ f.rest = s

/-- A branch matches, nests too deep, or is passed over. -/
theorem Branch.parse_cases (b : Branch α) (s : List Char) :
    (∃ x, b.rule.parse s = .ok x) ∨
      (∃ f, b.rule.parse s = .error f ∧ f.fault.isTooDeep = true) ∨
      ∃ f, b.RejectsWith s f := by
  cases h : b.rule.parse s with
  | ok x => exact .inl ⟨x, rfl⟩
  | error f =>
    cases hf : f.fault.isTooDeep with
    | true => exact .inr (.inl ⟨f, rfl, hf⟩)
    | false => exact .inr (.inr ⟨f, h, hf⟩)

/-! ## Refusing a text -/

namespace Rule

variable {β : Type}

/-- A rule refuses a text if it fails on it, and not because of its nesting. A branch is passed over
where its rule does. -/
def Refuses (r : Rule α) (s : List Char) : Prop :=
  ∃ f, r.parse s = .error f ∧ f.fault.isTooDeep = false

theorem Refuses.bind {r : Rule α} {s : List Char} (h : r.Refuses s) (next : α → Rule β) :
    (r >>= next).Refuses s := by
  obtain ⟨f, hf, hd⟩ := h
  exact ⟨f, parse_bind_of_error hf, hd⟩

theorem Refuses.after {r : Rule α} {next : α → Rule β} {s t : List Char} {a : α}
    (hr : r.parse s = .ok (a, t)) (h : (next a).Refuses t) : (r >>= next).Refuses s := by
  obtain ⟨f, hf, hd⟩ := h
  exact ⟨f, (parse_bind_of_ok hr).trans hf, hd⟩

theorem not_refuses_of_ok {r : Rule α} {s : List Char} {x : α × List Char}
    (h : r.parse s = .ok x) : ¬r.Refuses s := by
  rintro ⟨f, hf, _⟩
  rw [h] at hf
  cases hf

theorem not_refuses_of_tooDeep {r : Rule α} {s : List Char} {f : Failure}
    (h : r.parse s = .error f) (hd : f.fault.isTooDeep = true) : ¬r.Refuses s := by
  rintro ⟨g, hg, hgd⟩
  rw [h] at hg
  cases hg
  rw [hd] at hgd
  cases hgd

/-- A token is refused where another one stands. -/
theorem refuses_expect {chars : List Char} {what : String} {s : List Char}
    (h : ∀ c ∈ (Text.skipBlanks s).head?, c ∉ chars) : (expect chars what).Refuses s :=
  ⟨_, parse_expect_of_not_mem h, rfl⟩

end Rule

/-! ## One branch after the other -/

section TryForms

variable {s : List Char} {b : Branch α}

theorem Branch.tryOn_of_rejectsWith {f : Failure} (h : b.RejectsWith s f)
    (goOn : Failure → List Event → Outcome α) :
    b.tryOn s goOn = goOn f ((b.rule.run s).trace ++ [.rejected b.form f.fault]) := by
  unfold Branch.tryOn
  dsimp only
  rw [Rule.parse_eq_error_iff.mp h.1]
  simp only [h.2, Bool.false_eq_true, if_false]

theorem Branch.tryOn_of_not_rejects (h : ¬b.Rejects s)
    (goOn : Failure → List Event → Outcome α) : b.tryOn s goOn = b.rule.run s := by
  unfold Branch.tryOn
  dsimp only
  split
  · rfl
  · rename_i f hf
    rw [if_pos]
    exact Bool.of_not_eq_false fun hd => h ⟨f, Rule.parse_eq_error_iff.mpr hf, hd⟩

/-- A form that is not passed over ends the choice. -/
theorem parsed_tryForms_of_not_rejects (others : List (Branch α)) (hb : ¬b.Rejects s) :
    (tryForms s b others).parsed = b.rule.parse s := by
  cases others <;>
  · rw [tryForms, Branch.tryOn_of_not_rejects hb]
    rfl

theorem parsed_tryForms_of_ok {x : α × List Char} (others : List (Branch α))
    (h : b.rule.parse s = .ok x) : (tryForms s b others).parsed = .ok x :=
  (parsed_tryForms_of_not_rejects others (Rule.not_refuses_of_ok h)).trans h

theorem parsed_tryForms_of_tooDeep {f : Failure} (others : List (Branch α))
    (h : b.rule.parse s = .error f) (hf : f.fault.isTooDeep = true) :
    (tryForms s b others).parsed = .error f :=
  (parsed_tryForms_of_not_rejects others (Rule.not_refuses_of_tooDeep h hf)).trans h

theorem parsed_tryForms_last {f : Failure} (h : b.RejectsWith s f) :
    (tryForms s b []).parsed = .error f := by
  rw [tryForms, Branch.tryOn_of_rejectsWith h]
  rfl

theorem parsed_tryForms_cons {f : Failure} (next : Branch α) (others : List (Branch α))
    (h : b.RejectsWith s f) :
    (tryForms s b (next :: others)).parsed =
      ((tryForms s next others).afterFailure f).parsed := by
  rw [tryForms, Branch.tryOn_of_rejectsWith h]
  rfl

end TryForms

theorem Outcome.parsed_afterFailure_eq_ok_iff {o : Outcome α} {f : Failure} {x : α × List Char} :
    (o.afterFailure f).parsed = .ok x ↔ o.parsed = .ok x := by
  unfold afterFailure
  split
  · rfl
  · rename_i g hg
    split
    · rfl
    · unfold parsed
      rw [hg]
      simp

theorem Outcome.parsed_afterFailure_of_error {o : Outcome α} {f g : Failure}
    (h : o.parsed = .error g) :
    (o.afterFailure f).parsed = .error (if g.fault.isTooDeep then g else f.further g) := by
  have hg : o.result = .error g := by
    unfold parsed at h
    split at h
    · cases h
    · rename_i g' hg'
      cases h
      exact hg'
  unfold afterFailure
  rw [hg]
  dsimp only
  split
  · rw [h]
  · rfl

/-- What a choice makes of the outcome of the later forms depends on their result alone. -/
theorem Outcome.parsed_afterFailure_congr {o o' : Outcome α} (f : Failure)
    (h : o.parsed = o'.parsed) : (o.afterFailure f).parsed = (o'.afterFailure f).parsed := by
  cases ho : o.parsed with
  | ok x =>
    rw [parsed_afterFailure_eq_ok_iff.mpr ho, parsed_afterFailure_eq_ok_iff.mpr (h.symm.trans ho)]
  | error g =>
    rw [parsed_afterFailure_of_error ho, parsed_afterFailure_of_error (h.symm.trans ho)]

/-- A choice does not mind blanks in front if none of its forms does. -/
theorem parsed_tryForms_skipBlanks {first : Branch α} {others : List (Branch α)}
    (h : ∀ b ∈ first :: others, b.rule.SkipsBlanks) (s : List Char) :
    (tryForms (Text.skipBlanks s) first others).parsed = (tryForms s first others).parsed := by
  induction others generalizing first with
  | nil =>
    have hfirst := h first (by simp) s
    rcases first.parse_cases s with ⟨x, hx⟩ | ⟨f, hf, hd⟩ | ⟨f, hf⟩
    · rw [parsed_tryForms_of_ok [] hx, parsed_tryForms_of_ok [] (hfirst.trans hx)]
    · rw [parsed_tryForms_of_tooDeep [] hf hd,
        parsed_tryForms_of_tooDeep [] (hfirst.trans hf) hd]
    · rw [parsed_tryForms_last hf, parsed_tryForms_last ⟨hfirst.trans hf.1, hf.2⟩]
  | cons next others ih =>
    have hfirst := h first (by simp) s
    rcases first.parse_cases s with ⟨x, hx⟩ | ⟨f, hf, hd⟩ | ⟨f, hf⟩
    · rw [parsed_tryForms_of_ok _ hx, parsed_tryForms_of_ok _ (hfirst.trans hx)]
    · rw [parsed_tryForms_of_tooDeep _ hf hd, parsed_tryForms_of_tooDeep _ (hfirst.trans hf) hd]
    · rw [parsed_tryForms_cons next others hf,
        parsed_tryForms_cons next others ⟨hfirst.trans hf.1, hf.2⟩]
      exact Outcome.parsed_afterFailure_congr f
        (ih fun b hb => h b (List.mem_cons_of_mem first hb))

theorem Rule.SkipsBlanks.firstOf {branches : List (Branch α)} {hne : branches ≠ []}
    (h : ∀ b ∈ branches, b.rule.SkipsBlanks) : (Rule.firstOf branches hne).SkipsBlanks := by
  cases branches with
  | nil => exact absurd rfl hne
  | cons first others => exact parsed_tryForms_skipBlanks h

/-! ## The first form that matches -/

/-- A branch of a list is reached if those before it are passed over. -/
inductive Reached (s : List Char) (b : Branch α) : List (Branch α) → Prop where
  | here {others : List (Branch α)} : Reached s b (b :: others)
  | later {c : Branch α} {others : List (Branch α)} :
      c.Rejects s → Reached s b others → Reached s b (c :: others)

theorem exists_reached_of_parsed_tryForms {s : List Char} {x : α × List Char} {first : Branch α}
    {others : List (Branch α)} (h : (tryForms s first others).parsed = .ok x) :
    ∃ b, Reached s b (first :: others) ∧ b.rule.parse s = .ok x := by
  induction others generalizing first with
  | nil =>
    rcases first.parse_cases s with ⟨y, hy⟩ | ⟨f, hf, hd⟩ | ⟨f, hf⟩
    · rw [parsed_tryForms_of_ok [] hy] at h
      exact ⟨first, .here, hy.trans h⟩
    · rw [parsed_tryForms_of_tooDeep [] hf hd] at h
      cases h
    · rw [parsed_tryForms_last hf] at h
      cases h
  | cons next others ih =>
    rcases first.parse_cases s with ⟨y, hy⟩ | ⟨f, hf, hd⟩ | ⟨f, hf⟩
    · rw [parsed_tryForms_of_ok _ hy] at h
      exact ⟨first, .here, hy.trans h⟩
    · rw [parsed_tryForms_of_tooDeep _ hf hd] at h
      cases h
    · rw [parsed_tryForms_cons next others hf, Outcome.parsed_afterFailure_eq_ok_iff] at h
      obtain ⟨b, hr, hb⟩ := ih h
      exact ⟨b, .later ⟨f, hf⟩ hr, hb⟩

theorem parsed_tryForms_of_reached {s : List Char} {first b : Branch α} {others : List (Branch α)}
    (hr : Reached s b (first :: others)) (hb : ¬b.Rejects s) :
    (tryForms s first others).parsed = b.rule.parse s := by
  induction others generalizing first with
  | nil =>
    cases hr with
    | here => exact parsed_tryForms_of_not_rejects [] hb
    | later _ hr => cases hr
  | cons next others ih =>
    cases hr with
    | here => exact parsed_tryForms_of_not_rejects _ hb
    | later hf hr =>
      obtain ⟨f, hf⟩ := hf
      have hrest := ih hr
      rw [parsed_tryForms_cons next others hf]
      rcases b.parse_cases s with ⟨x, hx⟩ | ⟨g, hg, hd⟩ | hrejects
      · rw [hx] at hrest ⊢
        exact Outcome.parsed_afterFailure_eq_ok_iff.mpr hrest
      · rw [hg] at hrest ⊢
        rw [Outcome.parsed_afterFailure_of_error hrest, hd, if_pos rfl]
      · exact absurd hrejects hb

/-- **A choice is as good as the first form that is not passed over.** -/
theorem Rule.parse_firstOf_of_reached {branches : List (Branch α)} {hne : branches ≠ []}
    {s : List Char} {b : Branch α} (hr : Reached s b branches) (hb : ¬b.Rejects s) :
    (firstOf branches hne).parse s = b.rule.parse s := by
  cases branches with
  | nil => exact absurd rfl hne
  | cons first others => exact parsed_tryForms_of_reached hr hb

/-- **A choice matches with the first form that does**, where none before it nests too deep. -/
theorem Rule.parse_firstOf_eq_ok_iff {branches : List (Branch α)} {hne : branches ≠ []}
    {s : List Char} {x : α × List Char} :
    (firstOf branches hne).parse s = .ok x ↔
      ∃ b, Reached s b branches ∧ b.rule.parse s = .ok x := by
  constructor
  · -- a choice has a form to try
    cases branches with
    | nil => exact absurd rfl hne
    | cons first others => exact exists_reached_of_parsed_tryForms
  · rintro ⟨b, hr, hb⟩
    rw [parse_firstOf_of_reached hr (not_refuses_of_ok hb), hb]

/-- Where there is only one form, a choice is as good as that form. -/
theorem Rule.parse_firstOf_singleton (b : Branch α) (hne : [b] ≠ []) (s : List Char) :
    (firstOf [b] hne).parse s = b.rule.parse s := by
  show (tryForms s b []).parsed = b.rule.parse s
  rcases b.parse_cases s with ⟨x, hx⟩ | ⟨f, hf, hd⟩ | ⟨f, hf⟩
  · rw [parsed_tryForms_of_ok [] hx, hx]
  · rw [parsed_tryForms_of_tooDeep [] hf hd, hf]
  · rw [parsed_tryForms_last hf, hf.1]

theorem Reached.mem {s : List Char} {b : Branch α} {branches : List (Branch α)}
    (h : Reached s b branches) : b ∈ branches := by
  induction h with
  | here => exact List.mem_cons_self
  | later _ _ ih => exact List.mem_cons_of_mem _ ih

/-- A choice gives what one of its forms gives. -/
theorem Rule.Gives.firstOf {P : α → Prop} {branches : List (Branch α)} {hne : branches ≠ []}
    (h : ∀ b ∈ branches, b.rule.Gives P) : (Rule.firstOf branches hne).Gives P := by
  intro s t a ha
  obtain ⟨b, hb, hparse⟩ := parse_firstOf_eq_ok_iff.mp ha
  exact h b hb.mem hparse

/-- Of a list of forms one is reached if all in front of it are passed over. -/
theorem reached_map_iff {γ : Type} [DecidableEq γ] {s : List Char} {branch : γ → Branch α}
    {forms : List γ} {b : Branch α} :
    Reached s b (forms.map branch) ↔ ∃ form ∈ forms, b = branch form ∧
      ∀ g ∈ forms, forms.idxOf g < forms.idxOf form → (branch g).Rejects s := by
  induction forms with
  | nil =>
    constructor
    · intro h
      cases h
    · rintro ⟨form, hform, _⟩
      cases hform
  | cons first others ih =>
    constructor
    · intro h
      cases h with
      | here =>
        refine ⟨first, by simp, rfl, ?_⟩
        intro g _ hg
        rw [List.idxOf_cons_self] at hg
        exact absurd hg (Nat.not_lt_zero _)
      | later hfirst h =>
        obtain ⟨form, hform, hb, hbefore⟩ := ih.mp h
        refine ⟨form, List.mem_cons_of_mem first hform, hb, ?_⟩
        intro g hg hlt
        rcases List.mem_cons.mp hg with rfl | hg
        · exact hfirst
        · by_cases hgf : first = g
          · exact hgf ▸ hfirst
          · by_cases hff : first = form
            · rw [hff, List.idxOf_cons_self] at hlt
              exact absurd hlt (Nat.not_lt_zero _)
            · rw [List.idxOf_cons_ne _ hgf, List.idxOf_cons_ne _ hff] at hlt
              exact hbefore g hg (Nat.lt_of_succ_lt_succ hlt)
    · rintro ⟨form, hform, rfl, hbefore⟩
      by_cases hff : first = form
      · rw [hff]
        exact .here
      · refine .later (hbefore first (by simp) ?_) (ih.mpr ⟨form, ?_, rfl, ?_⟩)
        · rw [List.idxOf_cons_self, List.idxOf_cons_ne _ hff]
          exact Nat.succ_pos _
        · exact (List.mem_cons.mp hform).resolve_left (Ne.symm hff)
        · intro g hg hlt
          refine hbefore g (List.mem_cons_of_mem first hg) ?_
          by_cases hgf : first = g
          · rw [hgf, List.idxOf_cons_self]
            rw [List.idxOf_cons_ne _ (hgf ▸ hff)]
            exact Nat.succ_pos _
          · rw [List.idxOf_cons_ne _ hgf, List.idxOf_cons_ne _ hff]
            exact Nat.succ_lt_succ hlt

/-! ## The failure of a choice -/

/-- A failure of a list of forms is that of the foremost form if the forms in front are passed over
with failures that do not get so far, and those behind with failures that get no further. Nesting
too deep need not get further than the forms in front do, and ends the choice. -/
inductive Foremost (s : List Char) (f : Failure) : List (Branch α) → Prop where
  | here {b : Branch α} {others : List (Branch α)} :
      b.rule.parse s = .error f →
      (f.fault.isTooDeep = false →
        ∀ c ∈ others, ∃ g, c.RejectsWith s g ∧ f.rest.length ≤ g.rest.length) →
      Foremost s f (b :: others)
  | later {c : Branch α} {others : List (Branch α)} {g : Failure} :
      c.RejectsWith s g → (f.fault.isTooDeep = false → f.rest.length < g.rest.length) →
      Foremost s f others → Foremost s f (c :: others)

theorem Branch.RejectsWith.unique {b : Branch α} {s : List Char} {f g : Failure}
    (hf : b.RejectsWith s f) (hg : b.RejectsWith s g) : f = g := by
  have h := hf.1.symm.trans hg.1
  cases h
  rfl

theorem Foremost.exists_mem {s : List Char} {f : Failure} {branches : List (Branch α)}
    (h : Foremost s f branches) : ∃ b ∈ branches, b.rule.parse s = .error f := by
  induction h with
  | here hb _ => exact ⟨_, List.mem_cons_self, hb⟩
  | later _ _ _ ih =>
    obtain ⟨b, hb, hf⟩ := ih
    exact ⟨b, List.mem_cons_of_mem _ hb, hf⟩

/-- Every form is passed over with a failure that gets no further. -/
theorem Foremost.le {s : List Char} {f : Failure} {branches : List (Branch α)}
    (h : Foremost s f branches) (hd : f.fault.isTooDeep = false) :
    ∀ b ∈ branches, ∃ g, b.RejectsWith s g ∧ f.rest.length ≤ g.rest.length := by
  induction h with
  | here hb hothers =>
    intro c hc
    rcases List.mem_cons.mp hc with rfl | hc
    · exact ⟨f, ⟨hb, hd⟩, Nat.le_refl _⟩
    · exact hothers hd c hc
  | later hg hlt _ ih =>
    intro c hc
    rcases List.mem_cons.mp hc with rfl | hc
    · exact ⟨_, hg, Nat.le_of_lt (hlt hd)⟩
    · exact ih c hc

/-- The foremost form gets further than those in front of it, and those behind get no further. -/
theorem Foremost.exists_split {s : List Char} {f : Failure} {branches : List (Branch α)}
    (h : Foremost s f branches) (hd : f.fault.isTooDeep = false) :
    ∃ earlier b later, branches = earlier ++ b :: later ∧ b.rule.parse s = .error f ∧
      (∀ c ∈ earlier, ∃ g, c.RejectsWith s g ∧ f.rest.length < g.rest.length) ∧
      ∀ c ∈ later, ∃ g, c.RejectsWith s g ∧ f.rest.length ≤ g.rest.length := by
  induction h with
  | here hb hothers => exact ⟨[], _, _, rfl, hb, fun _ => nofun, hothers hd⟩
  | @later c others g hg hlt _ ih =>
    obtain ⟨earlier, b, later, rfl, hb, hearlier, hlater⟩ := ih
    refine ⟨c :: earlier, b, later, rfl, hb, fun d hmem => ?_, hlater⟩
    rcases List.mem_cons.mp hmem with rfl | hmem
    · exact ⟨g, hg, hlt hd⟩
    · exact hearlier d hmem

theorem foremost_of_parsed_tryForms {s : List Char} {first : Branch α} {others : List (Branch α)}
    {f : Failure} (h : (tryForms s first others).parsed = .error f) :
    Foremost s f (first :: others) := by
  induction others generalizing first f with
  | nil =>
    rcases first.parse_cases s with ⟨x, hx⟩ | ⟨g, hg, hd⟩ | ⟨g, hg⟩
    · rw [parsed_tryForms_of_ok [] hx] at h
      cases h
    · rw [parsed_tryForms_of_tooDeep [] hg hd] at h
      cases h
      exact .here hg nofun
    · rw [parsed_tryForms_last hg] at h
      cases h
      exact .here hg.1 nofun
  | cons next others ih =>
    rcases first.parse_cases s with ⟨x, hx⟩ | ⟨g, hg, hd⟩ | ⟨g, hg⟩
    · rw [parsed_tryForms_of_ok _ hx] at h
      cases h
    · rw [parsed_tryForms_of_tooDeep _ hg hd] at h
      cases h
      exact .here hg fun hd' => absurd (hd.symm.trans hd') (by decide)
    · rw [parsed_tryForms_cons next others hg] at h
      cases hp : (tryForms s next others).parsed with
      | ok x =>
        rw [Outcome.parsed_afterFailure_eq_ok_iff.mpr hp] at h
        cases h
      | error g' =>
        rw [Outcome.parsed_afterFailure_of_error hp] at h
        cases hd : g'.fault.isTooDeep with
        | true =>
          rw [hd, if_pos rfl] at h
          cases h
          exact .later hg (fun hd' => absurd (hd.symm.trans hd') (by decide)) (ih hp)
        | false =>
          rw [hd, if_neg Bool.false_ne_true] at h
          cases h
          -- the later failure counts only if it is further
          by_cases hlt : g'.rest.length < g.rest.length
          · rw [Failure.further, if_pos hlt]
            exact .later hg (fun _ => hlt) (ih hp)
          · rw [Failure.further, if_neg hlt]
            refine .here hg.1 fun _ c hc => ?_
            obtain ⟨g'', hg'', hle⟩ := (ih hp).le hd c hc
            exact ⟨g'', hg'', by omega⟩

/-- **A choice fails with the first of the furthest failures**, or with nesting too deep. -/
theorem Rule.foremost_of_parse_firstOf {branches : List (Branch α)} {hne : branches ≠ []}
    {s : List Char} {f : Failure} (h : (firstOf branches hne).parse s = .error f) :
    Foremost s f branches := by
  cases branches with
  | nil => exact absurd rfl hne
  | cons first others => exact foremost_of_parsed_tryForms h

/-- What a choice fails with, unless it nests too deep: the failure of one of its forms, and none of
the others is further. -/
structure Furthest (s : List Char) (branches : List (Branch α)) (f : Failure) : Prop where
  /-- It is the failure of one of the forms. -/
  mem : ∃ b ∈ branches, b.RejectsWith s f
  /-- Every form fails, and none of them further into the text. -/
  le : ∀ b ∈ branches, ∃ g, b.RejectsWith s g ∧ f.rest.length ≤ g.rest.length

/-- **A choice fails with the furthest failure of its forms.** -/
theorem Rule.furthest_of_parse_firstOf {branches : List (Branch α)} {hne : branches ≠ []}
    {s : List Char} {f : Failure} (h : (firstOf branches hne).parse s = .error f)
    (hd : f.fault.isTooDeep = false) : Furthest s branches f := by
  have hforemost := foremost_of_parse_firstOf h
  obtain ⟨b, hb, hf⟩ := hforemost.exists_mem
  exact ⟨⟨b, hb, hf, hd⟩, hforemost.le hd⟩

/-- A choice whose forms are all passed over fails with the furthest failure. -/
theorem Rule.exists_furthest {branches : List (Branch α)} (hne : branches ≠ []) {s : List Char}
    (h : ∀ b ∈ branches, b.Rejects s) :
    ∃ f, (firstOf branches hne).parse s = .error f ∧ Furthest s branches f := by
  cases hparse : (firstOf branches hne).parse s with
  | ok x =>
    obtain ⟨b, hr, hb⟩ := parse_firstOf_eq_ok_iff.mp hparse
    exact absurd (h b hr.mem) (not_refuses_of_ok hb)
  | error f =>
    refine ⟨f, rfl, furthest_of_parse_firstOf hparse ?_⟩
    obtain ⟨b, hb, hf⟩ := (foremost_of_parse_firstOf hparse).exists_mem
    obtain ⟨g, hg, hd⟩ := h b hb
    rw [hf] at hg
    cases hg
    exact hd

/-- A choice fails with the failure of one of its forms if the others fail so too, or not so far in
the text. -/
theorem Rule.parse_firstOf_of_furthest {branches : List (Branch α)} {hne : branches ≠ []}
    {s : List Char} {f : Failure} (hsome : ∃ b ∈ branches, b.RejectsWith s f)
    (hall : ∀ b ∈ branches, ∃ g, b.RejectsWith s g ∧ (g = f ∨ f.rest.length < g.rest.length)) :
    (firstOf branches hne).parse s = .error f := by
  obtain ⟨g, hparse, hfurthest⟩ := exists_furthest hne fun b hb =>
    let ⟨g, hg, _⟩ := hall b hb
    ⟨g, hg⟩
  obtain ⟨b, hb, hg⟩ := hfurthest.mem
  obtain ⟨g', hg', hor⟩ := hall b hb
  cases hg.unique hg'
  rcases hor with rfl | hlt
  · exact hparse
  · -- the failure of the choice would not be the furthest one
    obtain ⟨c, hc, hf⟩ := hsome
    obtain ⟨f', hf', hle⟩ := hfurthest.le c hc
    cases hf.unique hf'
    omega

theorem Rule.Fails.firstOf {P : Failure → Prop} {branches : List (Branch α)} {hne : branches ≠ []}
    (h : ∀ b ∈ branches, b.rule.Fails P) : (Rule.firstOf branches hne).Fails P := by
  intro s f hf
  obtain ⟨b, hb, hfb⟩ := (foremost_of_parse_firstOf hf).exists_mem
  exact h b hb hfb

/-- Where every form fails at the beginning or in a certain way, and one of them gets further, the
choice fails in that way. -/
theorem Furthest.of_forall {s : List Char} {branches : List (Branch α)} {f : Failure}
    (h : Furthest s branches f) {P : Failure → Prop}
    (hall : ∀ b ∈ branches, ∀ g, b.RejectsWith s g → P g ∨ g.rest = s)
    (hsome : ∃ b ∈ branches, ∃ g, b.RejectsWith s g ∧ g.rest.length < s.length) : P f := by
  obtain ⟨b, hb, hf⟩ := h.mem
  obtain ⟨c, hc, g, hg, hlt⟩ := hsome
  obtain ⟨g', hg', hle⟩ := h.le c hc
  rw [hg'.unique hg] at hle
  refine (hall b hb f hf).resolve_right fun hs => ?_
  rw [hs] at hle
  omega

/-! ## The only form that gets anywhere -/

/-- A branch of a list is the only one if the others stop at their very first character. -/
inductive Only (s : List Char) (b : Branch α) : List (Branch α) → Prop where
  | here {others : List (Branch α)} :
      (∀ c ∈ others, c.RejectsAtOnce s) → Only s b (b :: others)
  | later {c : Branch α} {others : List (Branch α)} :
      c.RejectsAtOnce s → Only s b others → Only s b (c :: others)

/-- Of forms that are all different one is the only one if the others stop at their very first
character. -/
theorem only_map {γ : Type} {branch : γ → Branch α} {forms : List γ} {form : γ} {s : List Char}
    (hmem : form ∈ forms) (hnodup : forms.Nodup)
    (h : ∀ g, g ≠ form → (branch g).RejectsAtOnce s) :
    Only s (branch form) (forms.map branch) := by
  induction forms with
  | nil => cases hmem
  | cons first others ih =>
    obtain ⟨hfirst, hothers⟩ := List.nodup_cons.mp hnodup
    by_cases hff : form = first
    · subst hff
      refine .here fun c hc => ?_
      obtain ⟨g, hg, rfl⟩ := List.mem_map.mp hc
      exact h g (ne_of_mem_of_not_mem hg hfirst)
    · exact .later (h first (Ne.symm hff)) (ih ((List.mem_cons.mp hmem).resolve_left hff) hothers)

theorem Only.eq_or_rejectsAtOnce {s : List Char} {b c : Branch α} {branches : List (Branch α)}
    (h : Only s b branches) (hc : c ∈ branches) : c = b ∨ c.RejectsAtOnce s := by
  induction h with
  | here hothers =>
    rcases List.mem_cons.mp hc with rfl | hc
    · exact .inl rfl
    · exact .inr (hothers c hc)
  | later hfirst _ ih =>
    rcases List.mem_cons.mp hc with rfl | hc
    · exact .inr hfirst
    · exact ih hc

theorem parsed_tryForms_of_all_at_once {s : List Char} {first : Branch α}
    {others : List (Branch α)} (h : ∀ b ∈ first :: others, b.RejectsAtOnce s) :
    ∃ f, (tryForms s first others).parsed = .error f ∧ f.rest = s ∧
      f.fault.isTooDeep = false := by
  obtain ⟨f, hf, hs⟩ := h first (by simp)
  induction others generalizing first f with
  | nil => exact ⟨f, parsed_tryForms_last hf, hs, hf.2⟩
  | cons next others ih =>
    obtain ⟨f', hf', hs'⟩ := h next (by simp)
    obtain ⟨g, hg, hgs, hgd⟩ := ih (fun b hb => h b (List.mem_cons_of_mem first hb)) f' hf' hs'
    refine ⟨f, ?_, hs, hf.2⟩
    rw [parsed_tryForms_cons next others hf, Outcome.parsed_afterFailure_of_error hg, hgd]
    -- both failures stand at the beginning, so the first one counts
    simp [Failure.further, hs, hgs]

theorem parsed_tryForms_of_only {s : List Char} {first b : Branch α} {others : List (Branch α)}
    (h : Only s b (first :: others))
    (hb : ∀ f, b.rule.parse s = .error f → f.rest.length < s.length) :
    (tryForms s first others).parsed = b.rule.parse s := by
  induction others generalizing first with
  | nil =>
    cases h with
    | later _ h => cases h
    | here _ =>
      rcases b.parse_cases s with ⟨y, hy⟩ | ⟨f, hf, hd⟩ | ⟨f, hf⟩
      · rw [parsed_tryForms_of_ok [] hy, hy]
      · rw [parsed_tryForms_of_tooDeep [] hf hd, hf]
      · rw [parsed_tryForms_last hf, hf.1]
  | cons next others ih =>
    cases h with
    | here hothers =>
      rcases b.parse_cases s with ⟨y, hy⟩ | ⟨f, hf, hd⟩ | ⟨f, hf⟩
      · rw [parsed_tryForms_of_ok _ hy, hy]
      · rw [parsed_tryForms_of_tooDeep _ hf hd, hf]
      · -- the others fail at the beginning, and this one further on
        obtain ⟨g, hg, hgs, hgd⟩ := parsed_tryForms_of_all_at_once hothers
        have hlt := hb f hf.1
        rw [parsed_tryForms_cons next others hf, Outcome.parsed_afterFailure_of_error hg, hgd,
          hf.1, Failure.further, hgs, if_neg (by simp), if_neg (by omega)]
    | later hfirst h =>
      obtain ⟨f, hf, hs⟩ := hfirst
      have hrest := ih h
      rw [parsed_tryForms_cons next others hf]
      cases hp : b.rule.parse s with
      | ok x => exact Outcome.parsed_afterFailure_eq_ok_iff.mpr (hrest.trans hp)
      | error g =>
        have hlt := hb g hp
        rw [Outcome.parsed_afterFailure_of_error (hrest.trans hp)]
        split
        · rfl
        · rw [Failure.further, hs, if_pos hlt]

/-- **A choice is as good as its only form that gets anywhere.** -/
theorem Rule.parse_firstOf_of_only {branches : List (Branch α)} {b : Branch α}
    {hne : branches ≠ []} {s : List Char} (h : Only s b branches)
    (hb : ∀ f, b.rule.parse s = .error f → f.rest.length < s.length) :
    (firstOf branches hne).parse s = b.rule.parse s := by
  cases branches with
  | nil => exact absurd rfl hne
  | cons first others => exact parsed_tryForms_of_only h hb

end Asm65816
