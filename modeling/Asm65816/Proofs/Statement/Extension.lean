import Asm65816.Proofs.Grammar.Extension
import Asm65816.Proofs.Statement.Completeness

/-!
# More text behind an operand

An operand that cannot be read fails with the furthest of nine failures, and each of the nine forms
may have stopped where more text would lead it on. But all forms that get anywhere begin in the same
way: behind the sign in front they read the same expression, and where that is not finished they all
stop at its end. So if one of the failures is not finished, the furthest one is not finished either.
-/

namespace Asm65816

open Rule Asm65816.Derivation

namespace Rule

variable {inner : Rule Expression} {form : OperandForm} {c : Char} {s : List Char} {f : Failure}

/-! ## The parts of a form -/

/-- A form part by part, and what must not follow. -/
def formParts (inner : Rule Expression) (form : OperandForm) : Rule (List Expression) := do
  let values ← sequence inner form.production
  notBehind form
  return values

/-- A form fails just as its parts do. -/
theorem parse_operandForm_eq_error_iff :
    (operandForm inner form).parse s = .error f ↔ (formParts inner form).parse s = .error f := by
  rw [formParts, ← operandExpressions_eq]
  exact parse_bind_pure_eq_error_iff.trans parse_bind_pure_eq_error_iff.symm

theorem settled_operandForm (h : (formParts inner form).Settled s)
    (hf : (operandForm inner form).parse s = .error f) : (operandForm inner form).Settled s := by
  intro t
  obtain ⟨g, hg, hext⟩ := h.error (parse_operandForm_eq_error_iff.mp hf) t
  rw [hf, parse_operandForm_eq_error_iff.mpr hg]
  exact .error hext

/-- A row of tokens leaves nothing open. -/
theorem firm_sequence : ∀ {parts : List Part}, (∀ part ∈ parts, part ≠ .value) →
    (sequence inner parts).Firm
  | [], _ => firm_pure []
  | .token _ _ :: _, h =>
    (firm_expect _ _).bind fun _ =>
      firm_sequence fun part hpart => h part (List.mem_cons_of_mem _ hpart)
  | .value :: _, h => absurd rfl (h .value List.mem_cons_self)

theorem firm_noOperator : noOperator.Firm := by
  intro s
  cases s with
  | nil => exact .inl (pending_nil _)
  | cons c s =>
    by_cases hc : c ∈ operatorSigns
    · exact .inr (settled_of_error (parse_noOperator_of_mem hc) fun t => parse_noOperator_of_mem hc)
    · have hok : ∀ s, noOperator.parse (c :: s) = .ok ((), c :: s) := fun s =>
        parse_noOperator_eq_ok_iff.mpr ⟨rfl, noOperator_cons s hc⟩
      exact .inr (settled_of_ok (hok s) fun t => hok (s ++ t))

theorem firm_notBehind (form : OperandForm) : (notBehind form).Firm := by
  cases form with
  | indirect => exact firm_noOperator
  | indirectY | xIndirect | move | address | immediate | longIndirectY | longIndirect
  | stackIndirectY => exact firm_pure ()

/-- A form behind its first expression. -/
def behindFirst (inner : Rule Expression) (form : OperandForm) (value : Expression) :
    Rule (List Expression) := do
  let others ← sequence inner (form.production.drop 2)
  notBehind form
  return value :: others

theorem exists_formParts_eq (inner : Rule Expression) (hsign : form.sign? = some c) :
    ∃ what, formParts inner form =
      expect [c] what >>= fun _ => inner >>= behindFirst inner form := by
  have hproduction : ∃ what parts, form.production = .token [c] what :: .value :: parts := by
    cases form <;> cases hsign <;> exact ⟨_, _, rfl⟩
  obtain ⟨what, parts, hproduction⟩ := hproduction
  refine ⟨what, ?_⟩
  unfold formParts behindFirst
  simp [hproduction, sequence]

/-- Behind the first expression a form with a sign leaves nothing open. -/
theorem firm_behindFirst (inner : Rule Expression) (hsign : form.sign? = some c)
    (value : Expression) : (behindFirst inner form value).Firm := by
  refine (firm_sequence ?_).bind fun _ => (firm_notBehind form).bind fun _ => firm_pure _
  cases form <;> cases hsign <;> simp [OperandForm.production]

/-- No form in parentheses or brackets goes on before an operator. -/
theorem behindFirst_of_dangling {u : List Char} (hc : c ∈ ['(', '[']) (hsign : form.sign? = some c)
    (value : Expression) (hu : Dangling inner operatorSigns u) :
    ∃ f, (behindFirst inner form value).parse u = .error f ∧ f.rest = u := by
  have htoken : ∃ d what parts, form.production.drop 2 = .token [d] what :: parts ∧
      d ∉ operatorSigns := by
    cases form <;> cases hsign <;> first
      | exact absurd hc (by decide)
      | exact ⟨_, _, _, rfl, by decide⟩
  obtain ⟨d, what, parts, hparts, hd⟩ := htoken
  obtain ⟨f, hf, hrest, _⟩ := parse_expect_of_dangling what hu hd
  refine ⟨f, ?_, hrest⟩
  rw [behindFirst, hparts, sequence]
  exact parse_bind_of_error (parse_bind_of_error hf)

/-! ## The sign in front -/

section Sign

variable {y : List Char} (hb : Text.isBlank c = false)

include hb

/-- A form is not there without its sign. -/
theorem parse_operandForm_of_other_sign (inner : Rule Expression) {d : Char}
    (hsign : form.sign? = some d) (hne : c ≠ d) :
    ∃ what, ∀ y, (operandForm inner form).parse (c :: y) =
      .error ⟨.missing what (some c), c :: y⟩ := by
  obtain ⟨what, hparts⟩ := exists_formParts_eq inner hsign
  refine ⟨what, fun y => parse_operandForm_eq_error_iff.mpr ?_⟩
  have hskip : Text.skipBlanks (c :: y) = c :: y :=
    Text.skipBlanks_cons_of_not_blank (by simp [hb])
  have hexpect : (expect [d] what).parse (c :: y) = _ := parse_expect_of_not_mem (by
    rw [hskip]
    simpa using hne)
  rw [hskip] at hexpect
  rw [hparts]
  exact parse_bind_of_error hexpect

theorem settled_operandForm_of_other_sign {d : Char} (hsign : form.sign? = some d) (hne : c ≠ d) :
    (operandForm inner form).Settled (c :: y) := by
  obtain ⟨what, herror⟩ := parse_operandForm_of_other_sign hb inner hsign hne
  exact settled_of_error (herror y) fun t => herror (y ++ t)

/-- Behind its sign, a form fails as the rest of it does. -/
theorem parse_operandForm_of_sign (hsign : form.sign? = some c) :
    (operandForm inner form).parse (c :: y) = .error f ↔
      (inner >>= behindFirst inner form).parse (Text.skipBlanks y) = .error f := by
  obtain ⟨what, hparts⟩ := exists_formParts_eq inner hsign
  rw [parse_operandForm_eq_error_iff, hparts, parse_bind_of_ok (parse_expect_sign hb)]

theorem settled_operandForm_of_sign (hsign : form.sign? = some c)
    (h : (inner >>= behindFirst inner form).Settled (Text.skipBlanks y))
    (hy : Text.skipBlanks y ≠ []) (hf : (operandForm inner form).parse (c :: y) = .error f) :
    (operandForm inner form).Settled (c :: y) := by
  obtain ⟨what, hparts⟩ := exists_formParts_eq inner hsign
  refine settled_operandForm ?_ hf
  rw [hparts]
  refine Settled.bind_of_ok (settled_of_ok (parse_expect_sign hb) fun t => ?_)
    (parse_expect_sign hb) h
  rw [List.cons_append, parse_expect_sign hb, Text.skipBlanks_append hy]

end Sign

/-! ## The nine failures -/

/-- In a text, this rest is what an expression leaves that begins behind a parenthesis or a
bracket. -/
def Inside (expression : Rule Expression) (s rest : List Char) : Prop :=
  ∃ c y e, c ∈ ['(', '['] ∧ c :: y <:+ s ∧ expression.parse y = .ok (e, rest)

theorem Inside.mono {t rest : List Char} (h : Inside inner s rest) (hs : s <:+ t) :
    Inside inner t rest := by
  obtain ⟨c, y, e, hc, hy, he⟩ := h
  exact ⟨c, y, e, hc, hy.trans hs, he⟩

/-- A failure that more text does not mend: it neither stands at the end of the text nor was
something given back that is not finished. -/
structure Lasting (expression : Rule Expression) (s : List Char) (f : Failure) : Prop where
  /-- It is not the failure of nesting too deep. -/
  not_tooDeep : f.fault.isTooDeep = false
  /-- The text does not end there. -/
  rest_ne_nil : f.rest ≠ []
  /-- It is not that of an expression that is not finished. -/
  finished : ¬Unfinished expression f
  /-- It does not stand behind one in parentheses or brackets either. -/
  inside : Inside expression s f.rest → ¬Dangling expression operatorSigns f.rest

theorem Lasting.of_suffix {t : List Char} (h : Lasting inner t f) (hs : s <:+ t) :
    Lasting inner s f :=
  ⟨h.not_tooDeep, h.rest_ne_nil, h.finished, fun hinside => h.inside (hinside.mono hs)⟩

/-- An operand fails, and more text does not mend it. -/
structure Stops (inner : Rule Expression) (s : List Char) (f : Failure) : Prop where
  /-- It is the failure of an operand. -/
  furthest : Furthest s (OperandForm.all.map (operandBranch inner)) f
  /-- It is there for good. -/
  lasting : Lasting inner s f

namespace Stops

variable {y : List Char} {g : Failure}

/-- Every form fails, and none of them at the end of the text. -/
theorem fails (h : Stops inner s f) (form : OperandForm) :
    ∃ g, (operandForm inner form).parse s = .error g ∧ g.fault.isTooDeep = false ∧
      g.rest ≠ [] := by
  have hmem := List.mem_map_of_mem (f := operandBranch inner) (OperandForm.mem_all form)
  obtain ⟨g, ⟨hg, hd⟩, hle⟩ := h.furthest.le _ hmem
  refine ⟨g, hg, hd, fun hnil => ?_⟩
  rw [hnil] at hle
  exact h.lasting.rest_ne_nil (List.eq_nil_of_length_eq_zero (Nat.le_zero.mp hle))

theorem of_forall (h : Stops inner s f) {P : Failure → Prop}
    (hall : ∀ form g, (operandForm inner form).parse s = .error g → g.fault.isTooDeep = false →
      P g ∨ g.rest = s)
    (hsome : ∃ form g, (operandForm inner form).parse s = .error g ∧ g.rest.length < s.length) :
    P f := by
  refine h.furthest.of_forall (fun b hb g hg => ?_) ?_
  · obtain ⟨form, _, rfl⟩ := List.mem_map.mp hb
    exact hall form g hg.1 hg.2
  · obtain ⟨form, g, hg, hlt⟩ := hsome
    obtain ⟨g', hg', hd, _⟩ := h.fails form
    rw [hg] at hg'
    cases hg'
    exact ⟨_, List.mem_map_of_mem (OperandForm.mem_all form), g, ⟨hg, hd⟩, hlt⟩

/-- The forms without a sign in front fail as the expression does with which they begin. -/
theorem value (h : Stops inner s f) : ∃ v, inner.parse s = .error v ∧ v.fault.isTooDeep = false ∧
    v.rest ≠ [] ∧ ∀ form : OperandForm, form.sign? = none →
      (operandForm inner form).parse s = .error v ∧
        (inner.Settled s → (operandForm inner form).Settled s) := by
  obtain ⟨v, hv, hd, hrest⟩ := h.fails .address
  have hvalue : inner.parse s = .error v := by
    cases hp : inner.parse s with
    | ok x =>
      rw [operandForm, operandExpressions, bind_assoc, parse_bind_of_ok hp] at hv
      cases hv
    | error v' =>
      rw [operandForm, operandExpressions, bind_assoc, parse_bind_of_error hp] at hv
      cases hv
      rfl
  refine ⟨v, hvalue, hd, hrest, fun form hform => ⟨parse_operandForm_of_value_error hform hvalue,
    fun hsettled => ?_⟩⟩
  cases form with
  | move | address =>
    exact (hsettled.bind_of_error hvalue _).bind_of_error (parse_bind_of_error hvalue) _
  | indirectY | indirect | xIndirect | immediate | longIndirectY | longIndirect
  | stackIndirectY => cases hform

/-- What holds of the forms with the sign that stands there, and of the expression the others begin
with, holds of the operand. Those that fail at once do not count. -/
theorem of_sign (h : Stops inner (c :: y) f) (hb : Text.isBlank c = false) {P : Failure → Prop}
    (hvalue : ∀ v, inner.parse (c :: y) = .error v → v.fault.isTooDeep = false →
      P v ∨ v.rest = c :: y)
    (hsign : ∀ form g, form.sign? = some c → (operandForm inner form).parse (c :: y) = .error g →
      P g)
    (hsome : ∃ form g, (operandForm inner form).parse (c :: y) = .error g ∧
      g.rest.length < (c :: y).length) : P f := by
  obtain ⟨v, hv, hd, _, hforms⟩ := h.value
  refine h.of_forall (fun form g hg _ => ?_) hsome
  cases hform : form.sign? with
  | none =>
    rw [(hforms form hform).1] at hg
    cases hg
    exact hvalue _ hv hd
  | some d =>
    by_cases hd : c = d
    · subst hd
      exact .inl (hsign form g hform hg)
    · obtain ⟨what, herror⟩ := parse_operandForm_of_other_sign hb inner hform hd
      rw [herror y] at hg
      cases hg
      exact .inr rfl

/-- There is something behind the sign in front. -/
theorem skipBlanks_ne_nil (h : Stops inner (c :: y) f) (hb : Text.isBlank c = false)
    (hsign : form.sign? = some c) : Text.skipBlanks y ≠ [] := by
  intro hnil
  obtain ⟨g, hg, _, hrest⟩ := h.fails form
  have hbehind := (parse_operandForm_of_sign hb hsign).mp hg
  rw [hnil] at hbehind
  exact hrest (rest_eq_nil_of_parse_nil hbehind)

/-- There is something behind the expression that follows the sign. -/
theorem rest_behind_ne_nil {e : Expression} {u : List Char} (h : Stops inner (c :: y) f)
    (hb : Text.isBlank c = false) (hsign : form.sign? = some c)
    (he : inner.parse (Text.skipBlanks y) = .ok (e, u)) : u ≠ [] := by
  rintro rfl
  obtain ⟨g, hg, _, hrest⟩ := h.fails form
  have hbehind := (parse_operandForm_of_sign hb hsign).mp hg
  rw [parse_bind_of_ok he] at hbehind
  exact hrest (rest_eq_nil_of_parse_nil hbehind)

/-- Where the expression behind the sign fails, that is not for want of more text, unless the
expression in front fails otherwise. -/
theorem not_unfinished_behind (h : Stops inner (c :: y) f) (hb : Text.isBlank c = false)
    (hsign : form.sign? = some c)
    (hvalue : ∀ v, inner.parse (c :: y) = .error v → v.fault.isTooDeep = false →
      v = g ∨ v.rest = c :: y)
    (hg : inner.parse (Text.skipBlanks y) = .error g) : ¬Unfinished inner g := by
  have hall : ∀ form, form.sign? = some c → (operandForm inner form).parse (c :: y) = .error g :=
    fun form hsign => (parse_operandForm_of_sign hb hsign).mpr (parse_bind_of_error hg)
  intro hunfinished
  -- then all forms that get anywhere fail in that way
  refine h.lasting.finished (h.of_sign hb (fun v hv hd => ?_) (fun form g' hsign hg' => ?_)
    ⟨form, g, hall form hsign, ?_⟩)
  · refine (hvalue v hv hd).imp_left fun heq => ?_
    rwa [heq]
  · rw [hall form hsign] at hg'
    cases hg'
    exact hunfinished
  · have h₁ := (parse_failure_suffix hg).length_le
    have h₂ := (Text.skipBlanks_suffix y).length_le
    rw [List.length_cons]
    omega

variable (hinner : inner.Steady (Unfinished inner) (Dangling inner operatorSigns))

include hinner

/-- All forms fail for good if the expression in front and those behind the sign do. -/
theorem settled_of_behind (h : Stops inner (c :: y) f) (hb : Text.isBlank c = false)
    (hvalue : ∀ v, inner.parse (c :: y) = .error v → v.fault.isTooDeep = false →
      ¬Unfinished inner v)
    (hbehind : ∀ form, form.sign? = some c →
      (inner >>= behindFirst inner form).Settled (Text.skipBlanks y))
    (form : OperandForm) : (operandForm inner form).Settled (c :: y) := by
  obtain ⟨v, hv, hd, hrest, hforms⟩ := h.value
  cases hsign : form.sign? with
  | none => exact (hforms form hsign).2 (hinner.settled hv hrest (hvalue v hv hd))
  | some d =>
    by_cases hd : c = d
    · subst hd
      obtain ⟨g, hg, _⟩ := h.fails form
      exact settled_operandForm_of_sign hb hsign (hbehind form hsign)
        (h.skipBlanks_ne_nil hb hsign) hg
    · exact settled_operandForm_of_other_sign hb hsign hd

/-- Where the expression behind a sign fails, or leaves no operator behind that is not finished, all
forms fail for good. The forms without a sign have to fail at once, or as that expression does. -/
theorem settled_of_sign (h : Stops inner (c :: y) f) (hb : Text.isBlank c = false)
    (form₀ : OperandForm) (hsign₀ : form₀.sign? = some c)
    (hvalue : ∀ v, inner.parse (c :: y) = .error v → v.fault.isTooDeep = false →
      (v.rest = c :: y ∧ ¬Unfinished inner v) ∨
        (∀ g, inner.parse (Text.skipBlanks y) = .error g → v = g) ∧
          ∀ e u, inner.parse (Text.skipBlanks y) = .ok (e, u) → Unfinished inner v →
            u = [] ∨ Dangling inner operatorSigns u)
    (hdangling : ∀ e u, inner.parse (Text.skipBlanks y) = .ok (e, u) →
      ¬Dangling inner operatorSigns u) (form : OperandForm) :
    (operandForm inner form).Settled (c :: y) := by
  cases hp : inner.parse (Text.skipBlanks y) with
  | error g =>
    have hg : ¬Unfinished inner g := by
      refine h.not_unfinished_behind hb hsign₀ (fun v hv hd => ?_) hp
      exact (hvalue v hv hd).elim (fun hv => .inr hv.1) fun hv => .inl (hv.1 g hp)
    have hrest : g.rest ≠ [] := by
      obtain ⟨f₀, hf₀, _, hrest⟩ := h.fails form₀
      rw [(parse_operandForm_of_sign hb hsign₀).mpr (parse_bind_of_error hp)] at hf₀
      cases hf₀
      exact hrest
    refine h.settled_of_behind hinner hb (fun v hv hd => ?_)
      (fun form _ => (hinner.settled hp hrest hg).bind_of_error hp _) form
    rcases hvalue v hv hd with hv | hv
    · exact hv.2
    · rwa [hv.1 g hp]
  | ok x =>
    obtain ⟨e, u⟩ := x
    have hu := h.rest_behind_ne_nil hb hsign₀ hp
    have hsettled : inner.Settled (Text.skipBlanks y) :=
      hinner.settled_of_rest hp hu (hdangling e u hp)
    refine h.settled_of_behind hinner hb (fun v hv hd hunfinished => ?_)
      (fun form hsign => hsettled.bind_of_ok hp ?_) form
    · rcases hvalue v hv hd with hv | hv
      · exact hv.2 hunfinished
      · exact (hv.2 e u hp hunfinished).elim hu (hdangling e u hp)
    · obtain ⟨g, hg, _, hrest⟩ := h.fails form
      have hbehind := (parse_operandForm_of_sign hb hsign).mp hg
      rw [parse_bind_of_ok hp] at hbehind
      exact (firm_behindFirst inner hsign e).settled hbehind hrest id

/-- Before a character with which no sign begins, the expression is all there is. -/
theorem settled_of_other (h : Stops inner (c :: y) f) (hb : Text.isBlank c = false)
    (hsign : ∀ form : OperandForm, form.sign? ≠ some c)
    (hvalue : ∀ v, inner.parse (c :: y) = .error v → Unfinished inner v →
      v.rest.length < (c :: y).length) (form : OperandForm) :
    (operandForm inner form).Settled (c :: y) := by
  refine h.settled_of_behind hinner hb (fun v hv _ hunfinished => ?_)
    (fun form hform => absurd hform (hsign form)) form
  refine h.lasting.finished (h.of_sign hb (fun v' hv' _ => ?_)
    (fun form _ hform _ => absurd hform (hsign form)) ⟨.address, v, ?_, hvalue v hv hunfinished⟩)
  · rw [hv] at hv'
    cases hv'
    exact .inl hunfinished
  · obtain ⟨v', hv', _, _, hforms⟩ := h.value
    rw [hv] at hv'
    cases hv'
    exact (hforms .address rfl).1

end Stops

/-! ## The expression behind a parenthesis -/

section Group

variable {limit m : Nat} {y u : List Char} {e : Expression} {g : Failure}

/-- An expression that begins with a parenthesis reads what is behind it with one level less, to the
same effect unless it nests too deep. -/
theorem parse_nested_inside (h : (nested limit (m + 1)).parse ('(' :: y) = .error f)
    (hd : f.fault.isTooDeep = false) :
    (nested limit (m + 1)).parse (Text.skipBlanks y) =
      (nested limit m).parse (Text.skipBlanks y) := by
  refine parse_nested_succ_of_not_tooDeep fun g hg => ?_
  rw [skipsBlanks_nested] at hg
  rw [parse_nested_open_of_error hg] at h
  cases h
  exact hd

/-- It fails as what is in the parentheses does. -/
theorem eq_of_parse_inside (h : (nested limit (m + 1)).parse ('(' :: y) = .error f)
    (hd : f.fault.isTooDeep = false)
    (hg : (nested limit (m + 1)).parse (Text.skipBlanks y) = .error g) : f = g := by
  rw [parse_nested_inside h hd, skipsBlanks_nested] at hg
  rw [parse_nested_open_of_error hg] at h
  cases h
  rfl

/-- Where the group is not closed, that is the failure. Where it is closed, no soft failure comes
behind it. -/
theorem expect_or_hard (h : (nested limit (m + 1)).parse ('(' :: y) = .error f)
    (hd : f.fault.isTooDeep = false)
    (he : (nested limit (m + 1)).parse (Text.skipBlanks y) = .ok (e, u)) :
    (expect [')'] "')' to close expression").parse u = .error f ∨
      f.fault.isSoft = false ∧ ∃ x, (expect [')'] "')' to close expression").parse u = .ok x := by
  rw [parse_nested_inside h hd, skipsBlanks_nested] at he
  cases hclose : (expect [')'] "')' to close expression").parse u with
  | error g =>
    rw [parse_nested_open_of_not_close he hclose] at h
    cases h
    exact .inl rfl
  | ok x =>
    refine .inr ⟨?_, x, rfl⟩
    rw [Bool.eq_false_iff]
    intro hsoft
    have hprimary := parse_primary_of_nested h hsoft
    rw [parse_primary_of_close he hclose] at hprimary
    cases hprimary

/-- Before an operator that is not finished the group is not closed. -/
theorem rest_of_parse_dangling (h : (nested limit (m + 1)).parse ('(' :: y) = .error f)
    (hd : f.fault.isTooDeep = false)
    (he : (nested limit (m + 1)).parse (Text.skipBlanks y) = .ok (e, u))
    (hu : Dangling (nested limit (m + 1)) operatorSigns u) : f.rest = u := by
  obtain ⟨g, hg, hrest, _⟩ :=
    parse_expect_of_dangling "')' to close expression" hu (by decide : ')' ∉ operatorSigns)
  rcases expect_or_hard h hd he with hclose | ⟨_, x, hx⟩
  · rw [hg] at hclose
    cases hclose
    exact hrest
  · rw [hg] at hx
    cases hx

end Group

namespace Stops

variable {limit m : Nat} {y u : List Char} {e : Expression}

/-- Before an operator that is not finished, the forms with the sign in front stop. -/
theorem exists_failure_of_dangling (hb : Text.isBlank c = false) (hc : c ∈ ['(', '['])
    (hsign : form.sign? = some c) (he : inner.parse (Text.skipBlanks y) = .ok (e, u))
    (hu : Dangling inner operatorSigns u) :
    ∃ f, (operandForm inner form).parse (c :: y) = .error f ∧ f.rest = u := by
  obtain ⟨f, hf, hrest⟩ := behindFirst_of_dangling hc hsign e hu
  refine ⟨f, (parse_operandForm_of_sign hb hsign).mpr ?_, hrest⟩
  rw [parse_bind_of_ok he, hf]

/-- No operator that is not finished stands behind the expression in parentheses or brackets, unless
the expression in front fails elsewhere. -/
theorem not_dangling (h : Stops inner (c :: y) f) (hskip : inner.SkipsBlanks)
    (hb : Text.isBlank c = false) (hc : c ∈ ['(', '[']) (hsign : form.sign? = some c)
    (he : inner.parse (Text.skipBlanks y) = .ok (e, u))
    (hvalue : ∀ v, inner.parse (c :: y) = .error v → v.fault.isTooDeep = false →
      Dangling inner operatorSigns u → v.rest = u ∨ v.rest = c :: y) :
    ¬Dangling inner operatorSigns u := by
  intro hu
  obtain ⟨g, hg, hgrest⟩ := exists_failure_of_dangling hb hc hsign he hu
  have hlt : g.rest.length < (c :: y).length := by
    have h₁ := (parse_suffix he).length_le
    have h₂ := (Text.skipBlanks_suffix y).length_le
    rw [hgrest, List.length_cons]
    omega
  -- all forms that get anywhere stop before the operator
  have hrest : f.rest = u := by
    refine h.of_sign (P := fun g => g.rest = u) hb (fun v hv hd => hvalue v hv hd hu)
      (fun form' g' hsign' hg' => ?_) ⟨form, g, hg, hlt⟩
    obtain ⟨g'', hg'', hrest⟩ := exists_failure_of_dangling hb hc hsign' he hu
    rw [hg''] at hg'
    cases hg'
    exact hrest
  rw [hskip] at he
  exact h.lasting.inside ⟨c, y, e, hc, List.suffix_refl _, hrest ▸ he⟩ (hrest ▸ hu)

/-- An immediate value needs nothing behind it. -/
theorem not_ok_of_immediate (h : Stops inner ('#' :: y) f) :
    inner.parse (Text.skipBlanks y) ≠ .ok (e, u) := by
  intro he
  obtain ⟨g, hg, _⟩ := h.fails .immediate
  have hbehind := (parse_operandForm_of_sign (by decide) rfl).mp hg
  rw [parse_bind_of_ok he] at hbehind
  cases hbehind

end Stops

/-! ## Operands -/

variable {limit m : Nat}

/-- **An operand that cannot be read can never be read**, whatever comes behind the text, unless it
fails at the end of the text or in a way that is not finished. -/
theorem Stops.settled {y : List Char} (h : Stops (nested limit (m + 1)) (c :: y) f)
    (hb : Text.isBlank c = false) : (operand (nested limit (m + 1))).Settled (c :: y) := by
  have hinner := steady_nested limit (Nat.le_refl (m + 1))
  have hexpression : "expression" ∉ closers := by decide
  refine settled_firstOf fun b hb' => ?_
  obtain ⟨form, _, rfl⟩ := List.mem_map.mp hb'
  obtain ⟨g, hg, hd, _⟩ := h.fails form
  refine ⟨?_, g, hg, hd⟩
  -- an expression that has not begun fails at once
  have hvalue : beginsPrimary c = false → ∀ v, (nested limit (m + 1)).parse (c :: y) = .error v →
      v.rest = c :: y ∧ ¬Unfinished (nested limit (m + 1)) v := by
    intro hc v hv
    rw [parse_nested_of_not_begins hb hc] at hv
    cases hv
    exact ⟨rfl, not_unfinished_of_not_mem hexpression⟩
  have hskip := skipsBlanks_nested limit (m + 1)
  by_cases hopen : c = '('
  · subst hopen
    refine h.settled_of_sign hinner hb .indirectY rfl (fun v hv hd => .inr ⟨?_, ?_⟩)
      (fun e u he => h.not_dangling hskip hb (by decide) (rfl : OperandForm.indirectY.sign? = _) he
        fun v hv hd hu => .inl (rest_of_parse_dangling hv hd he hu)) form
    · exact fun g hg => eq_of_parse_inside hv hd hg
    · intro e u he hunfinished
      rcases expect_or_hard hv hd he with hclose | ⟨hhard, _⟩
      · have hu : Unspaced u := by
          obtain ⟨_, _, _, _, _, hu⟩ := (reads_nested limit (m + 1)).derives he
          exact hu
        have hrest := hunfinished.rest
        rwa [rest_of_parse_expect hclose, hu.skipBlanks_eq] at hrest
      · rw [hunfinished.isSoft] at hhard
        cases hhard
  by_cases hbracket : c = '['
  · subst hbracket
    have hvalue := hvalue (by decide)
    exact h.settled_of_sign hinner hb .longIndirect rfl (fun v hv _ => .inl (hvalue v hv))
      (fun e u he => h.not_dangling hskip hb (by decide)
        (rfl : OperandForm.longIndirect.sign? = _) he fun v hv _ _ => .inr (hvalue v hv).1) form
  by_cases himmediate : c = '#'
  · subst himmediate
    exact h.settled_of_sign hinner hb .immediate rfl
      (fun v hv _ => .inl (hvalue (by decide) v hv))
      (fun e u he => absurd he h.not_ok_of_immediate) form
  refine h.settled_of_other hinner hb (fun form hsign => ?_) (fun v hv hunfinished => ?_) form
  · cases form <;> cases hsign <;> contradiction
  · cases hc : beginsPrimary c with
    | true => exact primary_failure_lt hc (parse_primary_of_nested hv hunfinished.isSoft)
    | false => exact absurd hunfinished (hvalue hc v hv).2

end Rule

end Asm65816
