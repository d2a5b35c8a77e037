import Asm65816.Rule.Statement

/-!
# What a rule makes of a text

An outcome also tells what was recorded on the way, and where a rule stands after a failure. For the
question of which texts a grammar accepts neither matters. `Rule.parse` leaves both out, and keeps
the value with what is left over, or the failure.

One lemma for each way of building a rule says what `parse` makes of it. Nothing that follows looks
into the rules again.
-/

namespace Asm65816

variable {α β : Type}

/-- An outcome without its record: the value and what is left over, or the failure. -/
def Outcome.parsed (o : Outcome α) : Except Failure (α × List Char) :=
  match o.result with
  | .ok a => .ok (a, o.rest)
  | .error f => .error f

namespace Rule

/-- What a rule makes of a text: the value and what is left over, or the failure. -/
def parse (r : Rule α) (s : List Char) : Except Failure (α × List Char) := (r.run s).parsed

theorem parse_eq_ok_iff {r : Rule α} {s t : List Char} {a : α} :
    r.parse s = .ok (a, t) ↔ (r.run s).result = .ok a ∧ (r.run s).rest = t := by
  unfold parse Outcome.parsed
  split
  · rename_i b hb
    simp [hb]
  · rename_i f hf
    simp [hf]

theorem parse_eq_error_iff {r : Rule α} {s : List Char} {f : Failure} :
    r.parse s = .error f ↔ (r.run s).result = .error f := by
  unfold parse Outcome.parsed
  split
  · rename_i b hb
    simp [hb]
  · rename_i g hg
    simp [hg]

/-- What is left over is a suffix of the text. -/
theorem parse_suffix {r : Rule α} {s t : List Char} {a : α} (h : r.parse s = .ok (a, t)) :
    t <:+ s := by
  rw [← (parse_eq_ok_iff.mp h).2]
  exact (r.within s).rest_suffix

/-- The place of a failure is in the text. -/
theorem parse_failure_suffix {r : Rule α} {s : List Char} {f : Failure}
    (h : r.parse s = .error f) : f.rest <:+ s :=
  (r.within s).failure_suffix f (parse_eq_error_iff.mp h)

/-- Where there is no text, a rule can only fail at its end. -/
theorem rest_eq_nil_of_parse_nil {r : Rule α} {f : Failure} (h : r.parse [] = .error f) :
    f.rest = [] := List.suffix_nil.mp (parse_failure_suffix h)

/-! ## One rule after the other -/

@[simp] theorem parse_pure (a : α) (s : List Char) : (pure a : Rule α).parse s = .ok (a, s) := rfl

theorem eq_of_parse_pure {a b : α} {s t : List Char} (h : (pure a : Rule α).parse s = .ok (b, t)) :
    a = b ∧ s = t := by
  rw [parse_pure] at h
  cases h
  exact ⟨rfl, rfl⟩

theorem parse_bind_of_ok {r : Rule α} {next : α → Rule β} {s t : List Char} {a : α}
    (h : r.parse s = .ok (a, t)) : (r >>= next).parse s = (next a).parse t := by
  obtain ⟨hr, ht⟩ := parse_eq_ok_iff.mp h
  unfold parse
  rw [run_bind, Outcome.andThen, hr, ht]
  rfl

theorem parse_bind_of_error {r : Rule α} {next : α → Rule β} {s : List Char} {f : Failure}
    (h : r.parse s = .error f) : (r >>= next).parse s = .error f := by
  have hr := parse_eq_error_iff.mp h
  unfold parse
  rw [run_bind, Outcome.andThen, hr]
  rfl

/-- Where a rule reads a text unless there is a fault, whatever comes next does so too. -/
theorem parse_bind_elim {r : Rule α} {next : α → Rule β} {s t : List Char} {a : α}
    {fault : Option Failure} (h : r.parse s = fault.elim (.ok (a, t)) .error) :
    (r >>= next).parse s = fault.elim ((next a).parse t) .error := by
  cases fault with
  | none => exact parse_bind_of_ok h
  | some f => exact parse_bind_of_error h

/-- Two rules in a row match just if the second matches what the first leaves over. -/
theorem parse_bind_eq_ok_iff {r : Rule α} {next : α → Rule β} {s u : List Char} {b : β} :
    (r >>= next).parse s = .ok (b, u) ↔
      ∃ a t, r.parse s = .ok (a, t) ∧ (next a).parse t = .ok (b, u) := by
  constructor
  · intro h
    cases hr : r.parse s with
    | ok x =>
      obtain ⟨a, t⟩ := x
      rw [parse_bind_of_ok hr] at h
      exact ⟨a, t, rfl, h⟩
    | error f =>
      rw [parse_bind_of_error hr] at h
      cases h
  · rintro ⟨a, t, hr, hn⟩
    rw [parse_bind_of_ok hr, hn]

/-- Of two rules in a row the first fails, or the second on what the first leaves over. -/
theorem parse_bind_eq_error_iff {r : Rule α} {next : α → Rule β} {s : List Char} {f : Failure} :
    (r >>= next).parse s = .error f ↔
      r.parse s = .error f ∨ ∃ a t, r.parse s = .ok (a, t) ∧ (next a).parse t = .error f := by
  cases hr : r.parse s with
  | ok x =>
    rw [parse_bind_of_ok hr]
    constructor
    · intro h
      exact .inr ⟨x.1, x.2, rfl, h⟩
    · rintro (h | ⟨a, t, h, hn⟩)
      · cases h
      · cases h
        exact hn
  | error g =>
    rw [parse_bind_of_error hr]
    constructor
    · intro h
      cases h
      exact .inl rfl
    · rintro (h | ⟨a, t, h, _⟩)
      · cases h
        rfl
      · cases h

/-- What is done with a value does not matter for a failure. -/
theorem parse_bind_pure_eq_error_iff {r : Rule α} {g : α → β} {s : List Char} {f : Failure} :
    (r >>= fun a => pure (g a)).parse s = .error f ↔ r.parse s = .error f := by
  cases h : r.parse s with
  | ok x =>
    rw [parse_bind_of_ok h, parse_pure]
    simp
  | error f' =>
    rw [parse_bind_of_error h]
    simp only [Except.error.injEq]

@[simp] theorem parse_fail (fault : Option Char → Fault) (s : List Char) :
    (fail fault : Rule α).parse s = .error ⟨fault s.head?, s⟩ := rfl

@[simp] theorem parse_record (event : Event) (s : List Char) :
    (record event).parse s = .ok ((), s) := rfl

@[simp] theorem parse_peek (s : List Char) : peek.parse s = .ok (s.head?, s) := rfl

@[simp] theorem parse_blanks (s : List Char) : blanks.parse s = .ok ((), Text.skipBlanks s) := rfl

@[simp] theorem parse_takeWhile (p : Char → Bool) (s : List Char) :
    (takeWhile p).parse s = .ok (s.takeWhile p, s.dropWhile p) := rfl

/-! ## What a rule can give -/

/-- Every value that a rule gives has a property. -/
def Gives (r : Rule α) (P : α → Prop) : Prop := ∀ ⦃s t a⦄, r.parse s = .ok (a, t) → P a

theorem gives_pure {P : α → Prop} {a : α} (h : P a) : (pure a : Rule α).Gives P := by
  intro s t b hb
  rw [← (eq_of_parse_pure hb).1]
  exact h

theorem Gives.mono {P Q : α → Prop} {r : Rule α} (h : r.Gives P) (hPQ : ∀ a, P a → Q a) :
    r.Gives Q := fun _ _ a ha => hPQ a (h ha)

theorem Gives.bind {P : α → Prop} {Q : β → Prop} {r : Rule α} {next : α → Rule β}
    (h : r.Gives P) (hnext : ∀ a, P a → (next a).Gives Q) : (r >>= next).Gives Q := by
  intro s t b hb
  obtain ⟨a, u, ha, hb⟩ := parse_bind_eq_ok_iff.mp hb
  exact hnext a (h ha) hb

/-- What a first rule gives need not matter. -/
theorem gives_then {Q : β → Prop} {r : Rule α} {next : α → Rule β}
    (h : ∀ a, (next a).Gives Q) : (r >>= next).Gives Q :=
  Gives.bind (P := fun _ => True) (fun _ _ _ _ => trivial) fun a _ => h a

/-! ## What a rule can fail with -/

/-- Every failure of a rule has a property. -/
def Fails (r : Rule α) (P : Failure → Prop) : Prop := ∀ ⦃s f⦄, r.parse s = .error f → P f

section Fails

variable {P : Failure → Prop}

theorem Fails.mono {Q : Failure → Prop} {r : Rule α} (h : r.Fails P) (hPQ : ∀ f, P f → Q f) :
    r.Fails Q := fun _ f hf => hPQ f (h hf)

/-- A rule that never fails. -/
theorem fails_of_ok {r : Rule α} (h : ∀ s, ∃ x, r.parse s = .ok x) : r.Fails P := by
  intro s f hf
  obtain ⟨x, hx⟩ := h s
  rw [hx] at hf
  cases hf

theorem fails_pure (a : α) : (pure a : Rule α).Fails P := fails_of_ok fun s => ⟨_, parse_pure a s⟩

theorem Fails.bind {r : Rule α} {next : α → Rule β} (h : r.Fails P)
    (hnext : ∀ a, (next a).Fails P) : (r >>= next).Fails P := by
  intro s f hf
  rcases parse_bind_eq_error_iff.mp hf with hr | ⟨a, t, _, hn⟩
  · exact h hr
  · exact hnext a hn

end Fails

/-! ## Rules that do not mind blanks in front -/

/-- A rule that reads the blanks in front of what it is about. -/
def SkipsBlanks (r : Rule α) : Prop := ∀ s, r.parse (Text.skipBlanks s) = r.parse s

theorem skipsBlanks_blanks : blanks.SkipsBlanks := by
  intro s
  rw [parse_blanks, parse_blanks, Text.skipBlanks_skipBlanks]

theorem SkipsBlanks.bind {r : Rule α} (h : r.SkipsBlanks) (next : α → Rule β) :
    (r >>= next).SkipsBlanks := by
  intro s
  cases hr : r.parse s with
  | ok x => rw [parse_bind_of_ok hr, parse_bind_of_ok ((h s).trans hr)]
  | error f => rw [parse_bind_of_error hr, parse_bind_of_error ((h s).trans hr)]

end Rule

/-! ## Tokens -/

theorem nextToken?_skipBlanks (meaning : Char → Option β) (s : List Char) :
    nextToken? meaning (Text.skipBlanks s) = nextToken? meaning s := by
  unfold nextToken?
  rw [Text.skipBlanks_skipBlanks]

theorem nextToken?_cons {meaning : Char → Option β} {c : Char} {s : List Char}
    (h : Text.isBlank c = false) :
    nextToken? meaning (c :: s) = (meaning c).map fun b => (b, Text.skipBlanks s) := by
  unfold nextToken?
  rw [Text.skipBlanks_cons_of_not_blank (by simp [h])]

theorem nextToken?_eq_some_iff {meaning : Char → Option β} {s t : List Char} {b : β} :
    nextToken? meaning s = some (b, t) ↔
      ∃ c u, Text.skipBlanks s = c :: u ∧ meaning c = some b ∧ t = Text.skipBlanks u := by
  unfold nextToken?
  split
  · rename_i h
    simp [h]
  · rename_i c u h
    rw [h, Option.map_eq_some_iff]
    constructor
    · rintro ⟨b', hb', hbt⟩
      cases hbt
      exact ⟨c, u, rfl, hb', rfl⟩
    · rintro ⟨c', u', hcu, hb, rfl⟩
      cases hcu
      exact ⟨b, hb, rfl⟩

theorem nextToken?_eq_none_iff {meaning : Char → Option β} {s : List Char} :
    nextToken? meaning s = none ↔ ∀ c ∈ (Text.skipBlanks s).head?, meaning c = none := by
  unfold nextToken?
  split
  · rename_i h
    simp [h]
  · rename_i c u h
    simp [h]

theorem oneOf_eq_some_iff {chars : List Char} {c d : Char} :
    oneOf chars c = some d ↔ c ∈ chars ∧ d = c := by
  unfold oneOf
  split <;> simp_all [eq_comm]

theorem oneOf_eq_none_iff {chars : List Char} {c : Char} : oneOf chars c = none ↔ c ∉ chars := by
  unfold oneOf
  split <;> simp_all

namespace Rule

theorem parse_token?_of_some {meaning : Char → Option β} {s t : List Char} {b : β}
    (h : nextToken? meaning s = some (b, t)) : (token? meaning).parse s = .ok (some b, t) := by
  unfold parse
  rw [run_token?_of_some h]
  rfl

theorem parse_token?_of_none {meaning : Char → Option β} {s : List Char}
    (h : nextToken? meaning s = none) : (token? meaning).parse s = .ok (none, s) := by
  unfold parse
  rw [run_token?_of_none h]
  rfl

theorem nextToken?_of_parse {meaning : Char → Option β} {s t : List Char} {b : β}
    (h : (token? meaning).parse s = .ok (some b, t)) : nextToken? meaning s = some (b, t) := by
  cases hs : nextToken? meaning s with
  | some x =>
    rw [parse_token?_of_some hs] at h
    cases h
    rfl
  | none =>
    rw [parse_token?_of_none hs] at h
    cases h

theorem parse_expect_of_some {chars : List Char} {what : String} {s t : List Char} {c : Char}
    (h : nextToken? (oneOf chars) s = some (c, t)) : (expect chars what).parse s = .ok (c, t) := by
  unfold parse
  rw [run_expect_of_some h]
  rfl

theorem parse_expect_of_none {chars : List Char} {what : String} {s : List Char}
    (h : nextToken? (oneOf chars) s = none) :
    (expect chars what).parse s =
      .error ⟨.missing what (Text.skipBlanks s).head?, Text.skipBlanks s⟩ := by
  unfold parse
  rw [run_expect_of_none h]
  rfl

/-- A token is missed behind the blanks. -/
theorem rest_of_parse_expect {chars : List Char} {what : String} {s : List Char} {f : Failure}
    (h : (expect chars what).parse s = .error f) : f.rest = Text.skipBlanks s := by
  cases hs : nextToken? (oneOf chars) s with
  | some x =>
    rw [parse_expect_of_some hs] at h
    cases h
  | none =>
    rw [parse_expect_of_none hs] at h
    cases h
    rfl

/-- A required token is there just if it stands behind the blanks. -/
theorem parse_expect_eq_ok_iff {chars : List Char} {what : String} {s t : List Char} {c : Char} :
    (expect chars what).parse s = .ok (c, t) ↔
      ∃ u, Text.skipBlanks s = c :: u ∧ c ∈ chars ∧ t = Text.skipBlanks u := by
  cases h : nextToken? (oneOf chars) s with
  | some x =>
    obtain ⟨d, v⟩ := x
    obtain ⟨d', u, hu, hd, hv⟩ := nextToken?_eq_some_iff.mp h
    obtain ⟨hd, rfl⟩ := oneOf_eq_some_iff.mp hd
    rw [parse_expect_of_some h, hu]
    constructor
    · intro he
      cases he
      exact ⟨u, rfl, hd, hv⟩
    · rintro ⟨u', hu', _, rfl⟩
      cases hu'
      rw [hv]
  | none =>
    rw [parse_expect_of_none h]
    constructor
    · intro he
      cases he
    · rintro ⟨u, hu, hc, _⟩
      have := nextToken?_eq_none_iff.mp h c (by simp [hu])
      exact absurd hc (oneOf_eq_none_iff.mp this)

/-- The token is there. -/
theorem parse_expect_cons {chars : List Char} {what : String} {c : Char} {s : List Char}
    (hb : Text.isBlank c = false) (hc : c ∈ chars) :
    (expect chars what).parse (c :: s) = .ok (c, Text.skipBlanks s) :=
  parse_expect_eq_ok_iff.mpr ⟨s, Text.skipBlanks_cons_of_not_blank (by simp [hb]), hc, rfl⟩

/-- The sign is there. -/
theorem parse_expect_sign {what : String} {c : Char} {s : List Char}
    (hb : Text.isBlank c = false) :
    (expect [c] what).parse (c :: s) = .ok (c, Text.skipBlanks s) :=
  parse_expect_cons hb (List.mem_singleton_self c)

/-- Another character stands in the place of the token. -/
theorem parse_expect_of_not_mem {chars : List Char} {what : String} {s : List Char}
    (h : ∀ c ∈ (Text.skipBlanks s).head?, c ∉ chars) :
    (expect chars what).parse s =
      .error ⟨.missing what (Text.skipBlanks s).head?, Text.skipBlanks s⟩ :=
  parse_expect_of_none (nextToken?_eq_none_iff.mpr fun c hc => oneOf_eq_none_iff.mpr (h c hc))

theorem skipsBlanks_expect (chars : List Char) (what : String) :
    (expect chars what).SkipsBlanks := by
  intro s
  cases h : nextToken? (oneOf chars) s with
  | some x =>
    rw [parse_expect_of_some h, parse_expect_of_some ((nextToken?_skipBlanks _ s).trans h)]
  | none =>
    rw [parse_expect_of_none h, parse_expect_of_none ((nextToken?_skipBlanks _ s).trans h),
      Text.skipBlanks_skipBlanks]

end Rule

end Asm65816
