import Asm65816.Proofs.Grammar.Soundness
import Asm65816.Proofs.Rule.Agreement
import Asm65816.Proofs.Rule.Extension
import Asm65816.Proofs.Grammar.Placement

/-!
# More text behind an expression

An expression goes back in one case only: an operator is given back if no operand can be read behind
it. Where the operand is only not finished, what stands behind the expression is then the operator,
although more text might lead further. So a text that is not settled for the rule for expressions
ends too early, or breaks off behind an operator that was given back.
-/

namespace Asm65816

open Rule Asm65816.Derivation

namespace Rule

variable {Open : Failure → Prop} {Loose Loose' : List Char → Prop}

/-! ## Repetition -/

/-- A repetition of operands is steady if its operand is. What becomes of an operand that fails, and
what is made of a place that the operand left open, has to be looked at. -/
theorem steady_follow {α β γ : Type} {meaning : Char → Option β} {step : β → α → Rule (Option α)}
    {operand : Rule γ} (join : α → β → γ → α) (h : operand.Steady Open Loose)
    (hspaced : ∀ {s u c}, operand.parse s = .ok (c, u) → Unspaced u)
    (hok : ∀ {s v u b c} a, nextToken? meaning s = some (b, v) → operand.parse v = .ok (c, u) →
      (follow meaning step a).parse s = (follow meaning step (join a b c)).parse u)
    (herror : ∀ {s v b f} a, Unspaced s → nextToken? meaning s = some (b, v) →
      operand.parse v = .error f →
        Pending Open Loose' ((follow meaning step a).parse s) ∨ (follow meaning step a).Settled s)
    (hloose : ∀ a u, Loose u → Pending Open Loose' ((follow meaning step a).parse u))
    (a : α) {s : List Char} (hs : Unspaced s) :
    Pending Open Loose' ((follow meaning step a).parse s) ∨ (follow meaning step a).Settled s := by
  generalize hn : s.length = n
  induction n using Nat.strongRecOn generalizing a s with
  | ind n ih =>
    cases ho : nextToken? meaning s with
    | none =>
      by_cases hnil : s = []
      · rw [hnil]
        exact .inl (pending_nil _)
      · have hne : Text.skipBlanks s ≠ [] := by rwa [hs.skipBlanks_eq]
        exact .inr (settled_of_ok (parse_follow_of_none ho) fun t =>
          parse_follow_of_none (nextToken?_append_of_none ho hne t))
    | some x =>
      obtain ⟨b, v⟩ := x
      cases hv : operand.parse v with
      | error f => exact herror a hs ho hv
      | ok y =>
        obtain ⟨c, u⟩ := y
        have hnow := hok a ho hv
        by_cases hne : v = []
        · subst hne
          rw [hnow, List.suffix_nil.mp (parse_suffix hv)]
          exact .inl (pending_nil _)
        rcases h v with hp | hsettled
        · rw [hv] at hp
          cases hp with
          | ended =>
            rw [hnow]
            exact .inl (pending_nil _)
          | loose _ hu =>
            rw [hnow]
            exact .inl (hloose _ u hu)
        · -- the round leads on from a shorter text, with anything behind it
          have hlt : u.length < s.length :=
            Nat.lt_of_le_of_lt (parse_suffix hv).length_le (nextToken?_suffix ho).2
          exact pending_or_settled_of_eq (ih u.length (hn ▸ hlt) (join a b c) (hspaced hv) rfl)
            fun t => hok a (nextToken?_append ho hne t) (hsettled.ok hv t)

/-! ## Chains -/

section Chain

variable {operator? : Char → Option Operator} {operand : Rule Expression}

/-- Where an operand fails, its operator is given back, or the chain fails too. -/
theorem steady_chainFrom_of_error {s v : List Char} {o : Operator} {f : Failure}
    (h : operand.Steady Open Loose) (ho : nextToken? operator? s = some (o, v))
    (hv : operand.parse v = .error f)
    (hback : f.fault.isSoft = true → f.rest = [] ∨ Open f → Loose' s) (a : Expression) :
    Pending Open Loose' ((chainFrom operator? operand a).parse s) ∨
      (chainFrom operator? operand a).Settled s := by
  by_cases hend : f.rest = [] ∨ Open f
  · -- the operand is not finished, and the operator may be given back
    refine .inl ?_
    cases hf : f.fault.isSoft with
    | true =>
      rw [parse_chainFrom_of_soft ho hv hf]
      exact .loose a (hback hf hend)
    | false =>
      rw [parse_chainFrom_of_hard ho hv hf]
      exact hend.elim .failed .opened
  · obtain ⟨hrest, hopen⟩ := not_or.mp hend
    have hsettled : operand.Settled v := h.settled hv hrest hopen
    have hne : v ≠ [] := by
      rintro rfl
      exact hrest (rest_eq_nil_of_parse_nil hv)
    refine .inr ?_
    cases hf : f.fault.isSoft with
    | true =>
      exact settled_of_ok (parse_chainFrom_of_soft ho hv hf) fun t =>
        parse_chainFrom_of_soft (nextToken?_append ho hne t) (hsettled.soft hv hf t) hf
    | false =>
      intro t
      obtain ⟨g, hg, hext⟩ := hsettled.error hv t
      have hg' : g.fault.isSoft = false := (Fault.isSoft_of_kind hext.kind).trans hf
      rw [parse_chainFrom_of_hard ho hv hf,
        parse_chainFrom_of_hard (nextToken?_append ho hne t) hg hg']
      exact .error hext

/-- A chain is steady if its operands are. Before an operator whose operand is not finished the
chain ends loosely. -/
theorem Steady.chain (h : operand.Steady Open Loose)
    (hspaced : ∀ {s u e}, operand.parse s = .ok (e, u) → Unspaced u)
    (hloose : ∀ u, Loose u → nextToken? operator? u = none ∧ Loose' u)
    (hback : ∀ {s o v f}, Unspaced s → nextToken? operator? s = some (o, v) →
      operand.parse v = .error f → f.fault.isSoft = true → f.rest = [] ∨ Open f → Loose' s) :
    (chain operator? operand).Steady Open Loose' := by
  have hend : ∀ a u, Loose u →
      Pending Open Loose' ((chainFrom operator? operand a).parse u) := by
    intro a u hu
    obtain ⟨hnone, hu⟩ := hloose u hu
    rw [parse_chainFrom_of_none hnone]
    exact .loose a hu
  rw [chain_eq]
  refine h.bind (fun hs => ?_) hend
  exact steady_follow (fun a o b => .binary o a b) h hspaced (fun _ => parse_chainFrom_of_ok)
    (fun a hs ho hv => steady_chainFrom_of_error h ho hv (hback hs ho hv) a) hend _ (hspaced hs)

end Chain

/-! ## Arguments -/

section Arguments

variable {inner : Rule Expression}

/-- Where an argument fails, so does the list. -/
theorem steady_argumentsFrom_of_error {s v : List Char} {c : Char} {f : Failure}
    (h : inner.Steady Open Loose) (ho : nextToken? (oneOf [',']) s = some (c, v))
    (hv : inner.parse v = .error f) (earlier : List Expression) :
    Pending Open Loose' ((argumentsFrom inner earlier).parse s) ∨
      (argumentsFrom inner earlier).Settled s := by
  have hnow : (argumentsFrom inner earlier).parse s = .error f :=
    parse_argumentsFrom_of_error ho hv
  by_cases hne : v = []
  · -- the text breaks off behind the comma
    subst hne
    rw [hnow]
    exact .inl (.failed (rest_eq_nil_of_parse_nil hv))
  rcases h v with hp | hsettled
  · rw [hnow]
    rw [hv] at hp
    cases hp with
    | failed hf => exact .inl (.failed hf)
    | opened hf => exact .inl (.opened hf)
  · refine .inr fun t => ?_
    obtain ⟨g, hg, hext⟩ := hsettled.error hv t
    rw [hnow, parse_argumentsFrom_of_error (nextToken?_append ho hne t) hg]
    exact .error hext

theorem Steady.someArguments (h : inner.Steady Open Loose)
    (hspaced : ∀ {s u e}, inner.parse s = .ok (e, u) → Unspaced u)
    (hloose : ∀ u, Loose u → nextToken? (oneOf [',']) u = none) :
    (someArguments inner).Steady Open Loose := by
  have hend : ∀ es u, Loose u → Pending Open Loose ((argumentsFrom inner es).parse u) := by
    intro es u hu
    rw [parse_argumentsFrom_of_none (hloose u hu)]
    exact .loose es hu
  refine h.bind (fun hs => ?_) fun e => hend [e]
  exact steady_follow (fun es _ e => e :: es) h hspaced (fun _ => parse_argumentsFrom_of_ok)
    (fun es _ ho hv => steady_argumentsFrom_of_error h ho hv es) hend _ (hspaced hs)

end Arguments

/-! ## Literals and names -/

theorem exists_takeWhile_append (p : Char → Bool) (s t : List Char) :
    ∃ d, (s ++ t).takeWhile p = s.takeWhile p ++ d ∧
      d ++ (s ++ t).dropWhile p = s.dropWhile p ++ t := by
  by_cases hs : s.dropWhile p = []
  · -- the run goes on into what comes behind
    have hall : s.takeWhile p = s := by
      have h := List.takeWhile_append_dropWhile (p := p) (l := s)
      rwa [hs, List.append_nil] at h
    refine ⟨t.takeWhile p, ?_, ?_⟩
    · rw [List.takeWhile_append, if_pos (congrArg List.length hall), hall]
    · rw [List.dropWhile_append, if_pos (by simp [hs]), List.takeWhile_append_dropWhile, hs]
      rfl
  · refine ⟨[], ?_, ?_⟩
    · rw [takeWhile_append_of_ne_nil hs, List.append_nil]
    · rw [dropWhile_append_of_ne_nil hs, List.nil_append]

/-- A literal that is too great remains so, and from the same digit on. -/
theorem readFrom_append_of_error {r : Radix} {bound value : Nat} {run late : List Char}
    (h : r.readFrom bound value run = .error late) (d : List Char) :
    r.readFrom bound value (run ++ d) = .error (late ++ d) := by
  induction run generalizing value with
  | nil => cases h
  | cons c run ih =>
    rw [Radix.readFrom] at h
    rw [List.cons_append, Radix.readFrom]
    split at h
    · rename_i hc
      rw [if_pos hc]
      exact ih h
    · rename_i hc
      cases h
      rw [if_neg hc, List.cons_append]

theorem firm_digits (radix : Radix) (what : String) (lead : List Char) :
    (digits radix what lead).Firm := by
  intro s
  cases s with
  | nil => exact .inl (pending_nil _)
  | cons c s =>
    cases hc : radix.isDigit c with
    | false =>
      have herror : ∀ s, (digits radix what lead).parse (c :: s) =
          .error ⟨.missing what (some c), c :: s⟩ := fun s =>
        parse_digits_of_not_digit (by simpa using hc)
      exact .inr (settled_of_error (herror s) fun t => herror (s ++ t))
    | true =>
      cases hread : radix.read maxNumber (c :: s.takeWhile radix.isDigit) with
      | ok value =>
        by_cases hs : Text.skipBlanks (s.dropWhile radix.isDigit) = []
        · rw [parse_digits_cons hc, hread]
          dsimp only
          rw [hs]
          exact .inl (.ended _)
        · have hne : s.dropWhile radix.isDigit ≠ [] := by
            intro hnil
            exact hs (by rw [hnil]; rfl)
          refine .inr fun t => ?_
          rw [List.cons_append, parse_digits_cons hc, parse_digits_cons hc,
            takeWhile_append_of_ne_nil hne, dropWhile_append_of_ne_nil hne, hread,
            Text.skipBlanks_append hs]
          exact .ok _ _
      | error late =>
        refine .inr fun t => ?_
        obtain ⟨d, hd, hrest⟩ := exists_takeWhile_append radix.isDigit s t
        have hlate : radix.read maxNumber (c :: (s ++ t).takeWhile radix.isDigit) =
            .error (late ++ d) := by
          rw [hd]
          exact readFrom_append_of_error hread d
        rw [List.cons_append, parse_digits_cons hc, parse_digits_cons hc, hread, hlate]
        refine .error ⟨?_, rfl⟩
        rw [List.append_assoc, hrest, ← List.append_assoc]

theorem firm_identifier : identifier.Firm :=
  (firm_satisfy _ _).bind fun _ => (firm_takeWhile _).bind fun _ => firm_pure _

theorem firm_decimal : decimal.Firm :=
  firm_blanks.bind fun _ => (firm_digits _ _ _).bind fun _ => firm_pure _

theorem firm_hexadecimal : hexadecimal.Firm :=
  (firm_expect _ _).bind fun _ => (firm_digits _ _ _).bind fun _ => firm_pure _

end Rule

/-! ## What is not finished -/

/-- What is missing where a group or a list of arguments is not closed. -/
def closers : List String := ["')' to close expression", "',' or ')' in argument list"]

/-- A failure that more text may mend, for a rule for expressions. Either the text ends too early,
or the sign is missing that closes something, and the operator in its place is one whose operand is
not finished. -/
inductive Unfinished (expression : Rule Expression) : Failure → Prop where
  | atEnd (what : String) : Unfinished expression ⟨.missing what none, []⟩
  | atOperator {what : String} {op : Char} {s : List Char} {f : Failure} :
      what ∈ closers → op ∈ operatorSigns → expression.parse s = .error f →
      Unfinished expression f → Unfinished expression ⟨.missing what (some op), op :: s⟩

/-- A text that begins with an operator, one of the given signs, whose operand is not finished. -/
def Dangling (expression : Rule Expression) (signs : List Char) (s : List Char) : Prop :=
  ∃ op t f, s = op :: t ∧ op ∈ signs ∧ expression.parse t = .error f ∧ Unfinished expression f

variable {expression : Rule Expression}

theorem Unfinished.isSoft {f : Failure} (h : Unfinished expression f) :
    f.fault.isSoft = true := by
  cases h <;> rfl

/-- An unfinished failure stands at the end of the text or before an operator. -/
theorem Unfinished.rest {f : Failure} (h : Unfinished expression f) :
    f.rest = [] ∨ Dangling expression operatorSigns f.rest := by
  cases h with
  | atEnd what => exact .inl rfl
  | atOperator _ hop hf hunfinished => exact .inr ⟨_, _, _, rfl, hop, hf, hunfinished⟩

/-- What is missing before an operator is the sign that closes something. -/
theorem not_unfinished_of_not_mem {what : String} {c : Char} {s : List Char} (h : what ∉ closers) :
    ¬Unfinished expression ⟨.missing what (some c), s⟩ := by
  intro hunfinished
  cases hunfinished with
  | atOperator hwhat _ _ _ => exact h hwhat

theorem Dangling.mono {signs signs' : List Char} {s : List Char}
    (h : Dangling expression signs s) (hsigns : ∀ c ∈ signs, c ∈ signs') :
    Dangling expression signs' s := by
  obtain ⟨op, t, f, hs, hop, hf, hunfinished⟩ := h
  exact ⟨op, t, f, hs, hsigns op hop, hf, hunfinished⟩

/-- No token but an operator is found before an operator. -/
theorem Dangling.nextToken? {β : Type} {meaning : Char → Option β} {signs s : List Char}
    (h : Dangling expression signs s) (hsigns : ∀ c ∈ signs, c ∈ operatorSigns)
    (hmeaning : ∀ c ∈ signs, meaning c = none) : nextToken? meaning s = none := by
  obtain ⟨op, t, f, rfl, hop, _⟩ := h
  have hb : Text.isBlank op = false := not_blank_of_operatorSign (hsigns op hop)
  rw [nextToken?_cons hb, hmeaning op hop]
  rfl

theorem Operator.mem_of_multiplicative? {c : Char} {o : Operator}
    (h : multiplicative? c = some o) : c ∈ ['*', '/'] := by
  unfold multiplicative? at h
  split at h
  · simp
  · simp
  · cases h

theorem Operator.mem_of_additive? {c : Char} {o : Operator} (h : additive? c = some o) :
    c ∈ operatorSigns := by
  by_contra hc
  rw [additive?_eq_none hc] at h
  cases h

namespace Rule

/-- A token is missing before an operator. If it closes something, and the operand of the operator
is not finished, neither is the failure. -/
theorem parse_expect_of_dangling {c : Char} {s : List Char} (what : String)
    (h : Dangling expression operatorSigns s) (hc : c ∉ operatorSigns) :
    ∃ f, (expect [c] what).parse s = .error f ∧ f.rest = s ∧ f.fault.isTooDeep = false ∧
      (what ∈ closers → Unfinished expression f) := by
  have hnone : nextToken? (oneOf [c]) s = none := by
    refine h.nextToken? (fun _ => id) fun d hd => oneOf_eq_none_iff.mpr ?_
    rintro hmem
    exact hc (List.mem_singleton.mp hmem ▸ hd)
  obtain ⟨op, t, f, rfl, hop, hf, hunfinished⟩ := h
  have hb : Text.isBlank op = false := not_blank_of_operatorSign hop
  have hskip : Text.skipBlanks (op :: t) = op :: t :=
    Text.skipBlanks_cons_of_not_blank (by simp [hb])
  refine ⟨_, parse_expect_of_none hnone, hskip, rfl, fun hwhat => ?_⟩
  rw [hskip]
  exact .atOperator hwhat hop hf hunfinished

/-! ## The parts of an expression -/

/-- A sign that closes something leaves nothing open. -/
theorem Steady.closed {α β : Type} {r : Rule α} {next : α → Char → Rule β} {c : Char}
    {what : String} (h : r.Steady (Unfinished expression) (Dangling expression operatorSigns))
    (hc : c ∉ operatorSigns) (hwhat : what ∈ closers) (hnext : ∀ a d, (next a d).Firm) :
    (r >>= fun a => expect [c] what >>= next a).Steady (Unfinished expression)
      (fun _ => False) := by
  refine h.bind (fun _ => (firm_expect _ _).bind (fun d => (hnext _ d).steady) _) fun a u hu => ?_
  obtain ⟨f, hf, _, _, hunfinished⟩ := parse_expect_of_dangling what hu hc
  rw [parse_bind_of_error hf]
  exact .opened (hunfinished hwhat)

section

variable {inner : Rule Expression}
  (h : inner.Steady (Unfinished expression) (Dangling expression operatorSigns))

include h

/-- What is in parentheses leaves nothing open behind them. -/
theorem Steady.group : (group inner).Steady (Unfinished expression) (fun _ => False) :=
  (firm_expect _ _).bind fun _ => h.closed (by decide) (by decide) fun _ _ => firm_pure _

variable (hskip : inner.SkipsBlanks)
  (hspaced : ∀ {s u e}, inner.parse s = .ok (e, u) → Unspaced u)

include hskip hspaced

theorem Steady.arguments : (arguments inner).Steady (Unfinished expression) (fun _ => False) := by
  have hclosed : (Rule.someArguments inner >>= fun reversed => do
      let _ ← expect [')'] "',' or ')' in argument list"
      return reversed.reverse).Steady (Unfinished expression) (fun _ => False) := by
    refine Steady.closed (h.someArguments hspaced fun u hu => ?_) (by decide) (by decide)
      fun _ _ => firm_pure _
    exact hu.nextToken? (fun _ => id) (forall_mem_of_all (by decide))
  intro s
  cases hs : nextToken? (oneOf [')']) s with
  | some x =>
    obtain ⟨c, u⟩ := x
    rw [parse_arguments_of_close hs]
    by_cases hu : u = []
    · rw [hu]
      exact .inl (.ended _)
    · exact .inr (settled_of_ok (parse_arguments_of_close hs) fun t =>
        parse_arguments_of_close (nextToken?_append hs hu t))
  | none =>
    by_cases hnil : Text.skipBlanks s = []
    · have hskip' : (Rule.someArguments inner >>= fun reversed => do
          let _ ← expect [')'] "',' or ')' in argument list"
          return reversed.reverse).SkipsBlanks := (hskip.bind _).bind _
      rw [parse_arguments_of_not_close hs, ← hskip' s, hnil]
      exact .inl (pending_nil _)
    · exact pending_or_settled_of_eq (hclosed s) fun t =>
        parse_arguments_of_not_close (nextToken?_append_of_none hs hnil t)

theorem Steady.nameEnd (identifier : String) :
    (nameEnd inner identifier).Steady (Unfinished expression) (fun _ => False) := by
  intro s
  cases hs : nextToken? (oneOf ['(']) s with
  | some x =>
    obtain ⟨c, u⟩ := x
    by_cases hu : u = []
    · rw [parse_nameEnd_of_open hs, hu]
      exact .inl (pending_nil _)
    · have hcall : (Rule.arguments inner >>= fun es => pure (Expression.call identifier es)).Steady
          (Unfinished expression) (fun _ => False) :=
        (Steady.arguments h hskip hspaced).bind (fun _ => (firm_pure _).steady _)
          fun _ _ hu => absurd hu id
      exact pending_or_settled_of_eq (hcall u) fun t =>
        parse_nameEnd_of_open (nextToken?_append hs hu t)
  | none =>
    by_cases hnil : Text.skipBlanks s = []
    · rw [parse_nameEnd_of_none hs, hnil]
      exact .inl (.ended _)
    · refine .inr (settled_of_ok (parse_nameEnd_of_none hs) fun t => ?_)
      rw [parse_nameEnd_of_none (nextToken?_append_of_none hs hnil t), Text.skipBlanks_append hnil]

theorem Steady.name : (name inner).Steady (Unfinished expression) (fun _ => False) := by
  rw [name_eq]
  exact firm_blanks.bind fun _ => firm_identifier.bind fun _ => Steady.nameEnd h hskip hspaced _

theorem Steady.primary : (primary inner).Steady (Unfinished expression) (fun _ => False) := by
  intro s
  by_cases hnil : Text.skipBlanks s = []
  · rw [← skipsBlanks_primary inner s, hnil]
    exact .inl (pending_nil _)
  obtain ⟨c, u, hs⟩ := List.exists_cons_of_ne_nil hnil
  -- a form that begins with the first character stands for the whole choice
  have hform : ∀ r : Rule Expression,
      (∀ u, (Rule.primary inner).parse (c :: u) = r.parse (c :: u)) →
      r.Steady (Unfinished expression) (fun _ => False) →
      Pending (Unfinished expression) (fun _ => False) ((Rule.primary inner).parse s) ∨
        (Rule.primary inner).Settled s := by
    intro r hr hsteady
    refine pending_or_settled_of_eq (hsteady (c :: u)) fun t => ?_
    rw [← skipsBlanks_primary inner (s ++ t), Text.skipBlanks_append hnil, hs, List.cons_append, hr]
  cases primaryStart (c :: u) with
  | opening => exact hform _ (fun _ => parse_primary_open) (Steady.group h)
  | digit hc => exact hform _ (fun _ => parse_primary_digit hc) firm_decimal.steady
  | dollar => exact hform _ (fun _ => parse_primary_dollar) firm_hexadecimal.steady
  | start hc => exact hform _ (fun _ => parse_primary_start hc) (Steady.name h hskip hspaced)
  | nothing hnot =>
    have hb : Text.isBlank c = false := Text.not_blank_of_skipBlanks_eq_cons hs
    refine hform (missing "expression") (fun u => ?_) ?_
    · exact parse_primary_of_not_begins (unspaced_cons u hb) hnot
    · exact (firm_missing _).steady

end

/-! ## Expressions -/

/-- A chain that fails softly fails with its first operand. Behind that, the operator is given back
instead. -/
theorem parse_of_chain_soft {operator? : Char → Option Operator} {operand : Rule Expression}
    {s : List Char} {f : Failure} (h : (chain operator? operand).parse s = .error f)
    (hf : f.fault.isSoft = true) : operand.parse s = .error f := by
  rw [chain_eq] at h
  cases hs : operand.parse s with
  | error g =>
    rw [parse_bind_of_error hs] at h
    exact h
  | ok x =>
    obtain ⟨a, u⟩ := x
    rw [parse_bind_of_ok hs] at h
    obtain ⟨o, a', t, ht⟩ := exists_round_of_parse_follow h
    cases hoperand : operand.parse t with
    | ok y =>
      rw [parse_bind_of_ok (parse_attempt_of_ok hoperand)] at ht
      cases ht
    | error g =>
      cases hg : g.fault.isSoft with
      | true =>
        rw [parse_bind_of_ok (parse_attempt_of_soft hoperand hg)] at ht
        cases ht
      | false =>
        rw [parse_bind_of_error (parse_attempt_of_hard hoperand hg)] at ht
        cases ht
        rw [hf] at hg
        cases hg

/-- Rules that agree make the same of a text, unless the first one nests too deep. -/
theorem Agrees.parse {α : Type} {r r' : Rule α} (h : r.Agrees r') {s : List Char}
    (hs : ∀ f, r.parse s = .error f → f.fault.isTooDeep = false) : r'.parse s = r.parse s := by
  refine congrArg Outcome.parsed (h s ?_)
  rintro ⟨f, hf, hd⟩
  rw [hs f (parse_eq_error_iff.mpr hf)] at hd
  cases hd

section

variable {limit m k : Nat} {s : List Char} {f : Failure}

/-- With one more level an expression is read alike, unless it nests too deep. -/
theorem parse_nested_succ_of_not_tooDeep
    (h : ∀ f, (nested limit m).parse s = .error f → f.fault.isTooDeep = false) :
    (nested limit (m + 1)).parse s = (nested limit m).parse s :=
  (agrees_nested (Nat.le_succ m) limit limit).parse h

/-- What is soft does not depend on the levels that are left, so it makes an expression fail with
any number of them. -/
theorem parse_nested_of_primary (hk : k ≤ m) (h : (primary (nested limit k)).parse s = .error f)
    (hf : f.fault.isSoft = true) : (nested limit (m + 1)).parse s = .error f := by
  have hagrees := congruence_agrees.primary (agrees_nested hk limit limit)
  have hprimary : (primary (nested limit m)).parse s = .error f := by
    rw [hagrees.parse, h]
    intro g hg
    rw [h] at hg
    cases hg
    exact Fault.isTooDeep_of_isSoft hf
  rw [parse_nested_succ, sum, chain_eq]
  exact parse_bind_of_error (parse_bind_of_error hprimary)

/-- An operator stands loose if its operand is not finished. -/
theorem dangling_of_operand {operator? : Char → Option Operator} {signs : List Char}
    {o : Operator} {v : List Char} (hk : k ≤ m)
    (hsigns : ∀ {c o}, operator? c = some o → c ∈ signs) (hs : Unspaced s)
    (ho : nextToken? operator? s = some (o, v)) (hv : (primary (nested limit k)).parse v = .error f)
    (hf : f.fault.isSoft = true)
    (hend : f.rest = [] ∨ Unfinished (nested limit (m + 1)) f) :
    Dangling (nested limit (m + 1)) signs s := by
  obtain ⟨c, w, rfl, hc, rfl⟩ := hs.eq_cons_of_nextToken? ho
  have hw := parse_nested_of_primary hk hv hf
  rw [skipsBlanks_nested] at hw
  refine ⟨c, w, f, rfl, hsigns hc, hw, hend.elim (fun hrest => ?_) id⟩
  -- at the end of the text something is missing
  have hnames := elementary_names.primary (placed_nested limit k) hv
  obtain ⟨fault, rest⟩ := f
  dsimp only at hrest hf hnames
  subst hrest
  obtain ⟨what, rfl⟩ := hnames.eq_missing hf
  exact .atEnd what

/-- **An expression is settled** unless the text ends too early or breaks off behind an operator. -/
theorem steady_nested (limit : Nat) (hk : k ≤ m + 1) :
    (nested limit k).Steady (Unfinished (nested limit (m + 1)))
      (Dangling (nested limit (m + 1)) operatorSigns) := by
  induction k with
  | zero =>
    intro s
    by_cases hnil : Text.skipBlanks s = []
    · rw [parse_nested_zero, hnil]
      exact .inl (.failed rfl)
    · refine .inr (settled_of_error (parse_nested_zero limit s) fun t => ?_)
      rw [parse_nested_zero, Text.skipBlanks_append hnil]
  | succ k ih =>
    have hk : k ≤ m := Nat.le_of_succ_le_succ hk
    have hreads := reads_nested limit k
    have hspaced : ∀ {s u e}, (nested limit k).parse s = .ok (e, u) → Unspaced u := by
      intro s u e h
      obtain ⟨_, _, _, _, _, hu⟩ := hreads.derives h
      exact hu
    have hprimary := Steady.primary (ih (Nat.le_succ_of_le hk)) (skipsBlanks_nested limit k) hspaced
    have hterm : (term (nested limit k)).Steady (Unfinished (nested limit (m + 1)))
        (Dangling (nested limit (m + 1)) ['*', '/']) := by
      refine hprimary.chain (fun h => ?_) (fun _ hu => absurd hu id) fun hs ho hv hf hend => ?_
      · obtain ⟨_, hframed, _⟩ := hreads.primary h
        exact hframed.unspaced
      · exact dangling_of_operand hk Operator.mem_of_multiplicative? hs ho hv hf hend
    have hsum : (sum (nested limit k)).Steady (Unfinished (nested limit (m + 1)))
        (Dangling (nested limit (m + 1)) operatorSigns) := by
      refine hterm.chain (fun h => ?_) (fun u hu => ⟨?_, ?_⟩) fun hs ho hv hf hend => ?_
      · obtain ⟨_, hframed, _⟩ := hreads.term h
        exact hframed.unspaced
      · exact hu.nextToken? (forall_mem_of_all (by decide)) (forall_mem_of_all (by decide))
      · exact hu.mono (forall_mem_of_all (by decide))
      · have hv := parse_of_chain_soft hv hf
        exact dangling_of_operand hk Operator.mem_of_additive? hs ho hv hf hend
    exact fun s => pending_or_settled_of_eq (hsum s) fun t => parse_nested_succ limit k (s ++ t)

/-- An expression that fails softly fails in its first primary. -/
theorem parse_primary_of_nested (h : (nested limit (m + 1)).parse s = .error f)
    (hf : f.fault.isSoft = true) : (primary (nested limit m)).parse s = .error f := by
  rw [parse_nested_succ] at h
  exact parse_of_chain_soft (parse_of_chain_soft h hf) hf

end

end Rule

end Asm65816
