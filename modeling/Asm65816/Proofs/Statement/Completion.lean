import Asm65816.Proofs.Grammar.Completion
import Asm65816.Proofs.Statement.Exactness

/-!
# Instructions that end too early

Each form of an operand can be completed part by part. Which form is completed matters, though, for
the forms in front of it must refuse the completed text as well. The form to complete is the
foremost of those that come to the end of the text.
-/

namespace Asm65816

open Rule Asm65816.Derivation

variable {limit n : Nat} {s : List Char}

/-! ## The parts of a form -/

/-- Any row of parts can be written, if every token has a character. -/
theorem exists_pieces {parts : List Part} (h : ∀ what, .token [] what ∉ parts) :
    ∃ d : Pieces parts, d.levels ≤ 1 ∧ d.Fits := by
  induction parts with
  | nil => exact ⟨.nil, Nat.zero_le 1, trivial⟩
  | cons part parts ih =>
    obtain ⟨d, hlevels, hfits⟩ := ih fun what hmem => h what (List.mem_cons_of_mem part hmem)
    cases part with
    | token chars what =>
      cases chars with
      | nil => exact absurd List.mem_cons_self (h what)
      | cons c chars => exact ⟨.token c List.mem_cons_self .none d, hlevels, hfits⟩
    | value =>
      exact ⟨.value .one d, Nat.max_le.mpr ⟨Nat.le_refl 1, hlevels⟩, Spaced.fits_one, hfits⟩

/-- **A row of parts that ends too early can be completed.** -/
theorem exists_completion_sequence (hn : 0 < n) {parts : List Part}
    (hparts : ∀ what, .token [] what ∉ parts)
    (h : (sequence (nested limit n) parts).EndsEarly s) :
    ∃ more, ∃ d : Pieces parts, d.text = Text.skipBlanks s ++ more ∧ d.levels ≤ n ∧ d.Fits := by
  induction parts generalizing s with
  | nil => exact absurd h (not_endsEarly_of_ok (parse_pure _ _))
  | cons part parts ih =>
    have hparts' : ∀ what, .token [] what ∉ parts :=
      fun what hmem => hparts what (List.mem_cons_of_mem part hmem)
    cases part with
    | token chars what =>
      rcases endsEarly_bind_iff.mp h with htoken | ⟨c, t, hc, hothers⟩
      · -- nothing is left, so all the parts are still to be written
        obtain ⟨d, hlevels, hfits⟩ := exists_pieces hparts
        exact ⟨d.text, d, by rw [htoken.of_expect]; rfl, Nat.le_trans hlevels hn, hfits⟩
      · obtain ⟨u, hs, hmem, rfl⟩ := parse_expect_eq_ok_iff.mp hc
        obtain ⟨more, d, hd, hlevels, hfits⟩ := ih hparts' hothers
        refine ⟨more, .token c hmem (.leading u) d, ?_, hlevels, hfits⟩
        rw [Pieces.text, hd, Text.skipBlanks_skipBlanks, hs, ← List.append_assoc,
          Blanks.leading_append, List.cons_append]
    | value =>
      have hskip : (sequence (nested limit n) (.value :: parts)).SkipsBlanks :=
        skipsBlanks_sequence (skipsBlanks_nested limit n) (List.cons_ne_nil _ _)
      rcases endsEarly_bind_iff.mp (hskip.endsEarly_iff.mpr h) with hvalue | ⟨e, t, he, hothers⟩
      · obtain ⟨more, _, x, hx, _, hlevels, hfits⟩ := exists_completion_nested hvalue
        obtain ⟨d, hlevels', hfits'⟩ := exists_pieces hparts'
        refine ⟨more ++ d.text, .value x d, ?_, Nat.max_le.mpr ⟨hlevels, Nat.le_trans hlevels' hn⟩,
          hfits, hfits'⟩
        rw [Pieces.text, hx, List.append_assoc]
      · obtain ⟨x, hs, _, hlevels, hfits, ht⟩ := (reads_nested limit n).derives he
        obtain ⟨more, d, hd, hlevels', hfits'⟩ := ih hparts' (endsEarly_bind_pure_iff.mp hothers)
        refine ⟨more, .value x d, ?_, Nat.max_le.mpr ⟨hlevels, hlevels'⟩, hfits, hfits'⟩
        rw [Pieces.text, hd, ht.skipBlanks_eq, hs, List.append_assoc]

/-! ## The form to complete -/

namespace Rule

variable {inner : Rule Expression} {form : OperandForm}

theorem not_endsEarly_notBehind : ¬(notBehind form).EndsEarly s := by
  rintro ⟨what, h⟩
  cases form with
  | indirect =>
    rw [notBehind, noOperator, parse_bind_of_ok (parse_peek s)] at h
    cases s with
    | nil => cases h
    | cons c s =>
      dsimp only [List.head?_cons] at h
      split at h <;> cases h
  | indirectY | xIndirect | move | address | immediate | longIndirectY | longIndirect
  | stackIndirectY => cases h

/-- A form that ends too early does so in one of its parts. -/
theorem EndsEarly.sequence (h : (operandForm inner form).EndsEarly s) :
    (Rule.sequence inner form.production).EndsEarly s := by
  have hvalues : (Rule.sequence inner form.production >>= fun values =>
      notBehind form >>= fun _ => pure values).EndsEarly s := by
    rw [← operandExpressions_eq]
    exact endsEarly_bind_pure_iff.mpr (endsEarly_bind_pure_iff.mp h)
  rcases endsEarly_bind_iff.mp hvalues with hparts | ⟨_, t, _, hbehind⟩
  · exact hparts
  · exact absurd (endsEarly_bind_pure_iff.mp hbehind) not_endsEarly_notBehind

/-- What a rule does with a text does not depend on how it is given. -/
theorem endsEarly_bind_congr {α β : Type} {r r' : Rule α} {next : α → Rule β} {t : List Char}
    (h : r.parse t = r'.parse t) : (r >>= next).EndsEarly t ↔ (r' >>= next).EndsEarly t := by
  unfold EndsEarly
  cases hr : r'.parse t with
  | ok x => rw [parse_bind_of_ok hr, parse_bind_of_ok (h.trans hr)]
  | error f => rw [parse_bind_of_error hr, parse_bind_of_error (h.trans hr)]

/-- A group that ends too early makes the form `(e),y` end too early. -/
theorem EndsEarly.indirectY {u : List Char} (hs : Text.skipBlanks s = '(' :: u)
    (h : (group (nested limit n)).EndsEarly ('(' :: u)) :
    (operandForm (nested limit (n + 1)) .indirectY).EndsEarly s := by
  have hopen : (expect ['('] "'('").parse s = .ok ('(', Text.skipBlanks u) :=
    parse_expect_eq_ok_iff.mpr ⟨u, hs, List.mem_singleton_self _, rfl⟩
  rw [group, endsEarly_bind_of_ok (parse_expect_sign (by decide))] at h
  -- the form has a level more for its expression than the group, and does not need it
  have hread : (nested limit (n + 1)).parse (Text.skipBlanks u) =
      (nested limit n).parse (Text.skipBlanks u) := by
    obtain ⟨what, h⟩ := h
    refine parse_nested_succ_of_not_tooDeep fun f hf => ?_
    rw [parse_bind_of_error hf] at h
    cases h
    rfl
  refine endsEarly_bind_pure_iff.mpr ?_
  rcases endsEarly_bind_iff.mp ((endsEarly_bind_congr hread).mpr h) with hinner | ⟨e, t, he, hclose⟩
  · exact endsEarly_bind_iff.mpr (.inl ((endsEarly_bind_of_ok hopen).mpr hinner))
  · have hend := (endsEarly_bind_pure_iff.mp hclose).of_expect
    have hvalue : (openParenthesis (nested limit (n + 1))).parse s = .ok (e, t) :=
      (parse_bind_of_ok hopen).trans he
    have hmissing : closeParenthesis.EndsEarly t := by
      refine endsEarly_bind_pure_iff.mpr ⟨"')'", ?_⟩
      rw [parse_expect_of_not_mem (by simp [hend]), hend]
      rfl
    exact (endsEarly_bind_of_ok hvalue).mpr (endsEarly_bind_iff.mpr (.inl hmissing))

/-- An operand that begins with a parenthesis ends too early in a form with a parenthesis, if all
forms fail. -/
theorem EndsEarly.indirectY_of_value {u : List Char} {form : OperandForm}
    (hs : Text.skipBlanks s = '(' :: u) (hform : form.sign? = none)
    (hall : ∀ form, (operandBranch (nested limit n) form).Rejects s)
    (h : (operandForm (nested limit n) form).EndsEarly s) :
    (operandForm (nested limit n) .indirectY).EndsEarly s := by
  obtain ⟨f, haddress, hdeep⟩ := hall .address
  have hvalue : (nested limit n).parse s = .error f :=
    parse_bind_pure_eq_error_iff.mp (parse_bind_pure_eq_error_iff.mp haddress)
  have hnested : (nested limit n).EndsEarly s := by
    cases form with
    | move =>
      rcases endsEarly_bind_iff.mp (endsEarly_bind_pure_iff.mp h) with hfirst | ⟨e, t, he, _⟩
      · exact hfirst
      · rw [hvalue] at he
        cases he
    | address => exact endsEarly_bind_pure_iff.mp (endsEarly_bind_pure_iff.mp h)
    | indirectY | indirect | xIndirect | immediate | longIndirectY | longIndirect
    | stackIndirectY => cases hform
  cases n with
  | zero =>
    rw [parse_nested_zero] at hvalue
    cases hvalue
    cases hdeep
  | succ n =>
    obtain ⟨what, hnested⟩ := hnested
    have hprimary := parse_primary_of_nested hnested rfl
    rw [← skipsBlanks_primary, hs, parse_primary_open] at hprimary
    exact EndsEarly.indirectY hs ⟨what, hprimary⟩

/-- The form `(e,s),y` leaves a level for the group that its beginning is taken for. -/
theorem EndsEarly.stackIndirectY (hs : Text.skipBlanks s ≠ [])
    (hmove : (operandBranch (nested limit n) .move).Rejects s)
    (h : (Rule.sequence (nested limit n) OperandForm.stackIndirectY.production).EndsEarly s) :
    0 < n - 1 ∧
      (Rule.sequence (nested limit (n - 1)) OperandForm.stackIndirectY.production).EndsEarly s := by
  have hmove := rejects_operandBranch_iff.mp hmove
  rcases endsEarly_bind_iff.mp h with hopen | ⟨c, t, hopen, h⟩
  · exact absurd hopen.of_expect hs
  obtain ⟨u, hu, hc, rfl⟩ := parse_expect_eq_ok_iff.mp hopen
  rw [List.mem_singleton.mp hc] at hu
  match n with
  | 0 =>
    rcases endsEarly_bind_iff.mp h with ⟨_, hvalue⟩ | ⟨_, _, hvalue, _⟩ <;>
    · rw [parse_nested_zero] at hvalue
      cases hvalue
  | 1 => cases not_tooDeep_of_move hu hmove (parse_nested_zero limit (Text.skipBlanks u))
  | n + 2 =>
    refine ⟨Nat.succ_pos n, (endsEarly_bind_of_ok hopen).mpr ?_⟩
    have hread : (nested limit (n + 2)).parse (Text.skipBlanks u) =
        (nested limit (n + 1)).parse (Text.skipBlanks u) :=
      parse_nested_succ_of_not_tooDeep fun _ => not_tooDeep_of_move hu hmove
    exact (endsEarly_bind_congr hread).mp h

end Rule

/-! ## Operands -/

namespace Derivation

theorem Pieces.sign?_of_first? {form : OperandForm} {d : Pieces form.production} {e : Spaced}
    (h : d.first? = some e) : form.sign? = none := by
  cases form with
  | move | address => rfl
  | indirectY | indirect | xIndirect | immediate | longIndirectY | longIndirect
  | stackIndirectY =>
    cases d with
    | token => cases h

/-- A text that begins with a group begins with a parenthesis. -/
theorem Pieces.head?_of_isGroup {parts : List Part} {d : Pieces parts} {e : Spaced}
    (h : d.first? = some e) (he : e.IsGroup) : (Text.skipBlanks d.text).head? = some '(' := by
  cases d with
  | nil => cases h
  | token => cases h
  | value x others =>
    cases h
    obtain ⟨before, _, after⟩ := e
    obtain ⟨inner, rfl⟩ := he
    simp only [Pieces.text, Spaced.text, Sum.text, Term.text, Primary.text, List.append_assoc,
      List.cons_append]
    rw [before.skipBlanks_append, Text.skipBlanks_cons_of_not_blank (by decide)]
    rfl

/-- A short operand that begins with a sign. -/
def Operand.one : Operand where
  form := .immediate
  pieces := .token '#' (List.mem_singleton_self _) .none (.value .one .nil)
  first_not_group := Pieces.not_isGroup_of_token

theorem Operand.levels_one (hn : 0 < n) :
    Operand.one.pieces.levels ≤ Operand.one.form.levelsInside n :=
  Nat.max_le.mpr ⟨hn, Nat.zero_le n⟩

theorem Operand.fits_one : Operand.one.Fits := ⟨Spaced.fits_one, trivial⟩

/-- Every operand says something. -/
theorem Operand.exists_says (d : Operand) (hfits : d.Fits) : ∃ o, d.Says o := by
  have hread := d.pieces.parse 0 .none (delimited_production d.form) (Nat.le_refl _) hfits
    (follows_nil _) noOperator_nil
  rw [List.append_nil] at hread
  have hvalues : (do
      let values ← sequence (nested 0 d.pieces.levels) d.form.production
      notBehind d.form
      return values).parse d.pieces.text = .ok (d.pieces.trees, []) := by
    rw [parse_bind_of_ok hread,
      parse_bind_of_ok (parse_notBehind_eq_ok_iff.mpr ⟨rfl, fun _ => noOperator_nil⟩), parse_pure]
  rw [← operandExpressions_eq] at hvalues
  obtain ⟨⟨value, second⟩, t, _, hpure⟩ := parse_bind_eq_ok_iff.mp hvalues
  exact ⟨{ mode := d.form.mode, value, second }, rfl, (eq_of_parse_pure hpure).1⟩

end Derivation

/-- A form that ends too early is completed to an operand, if what was written of it is no group. -/
theorem exists_completion_form (form : OperandForm) (hpos : 0 < form.levelsInside n)
    (h : (sequence (nested limit (form.levelsInside n)) form.production).EndsEarly s)
    (hs : Text.skipBlanks s ≠ [])
    (hsign : form.sign? = none → (Text.skipBlanks s).head? ≠ some '(') :
    ∃ more, ∃ d : Derivation.Operand, d.text = Text.skipBlanks s ++ more ∧
      d.pieces.levels ≤ d.form.levelsInside n ∧ d.Fits := by
  obtain ⟨more, d, hd, hlevels, hfits⟩ := exists_completion_sequence hpos
    (by cases form <;> simp [OperandForm.production]) h
  refine ⟨more, ⟨form, d, fun e he hgroup => hsign (Pieces.sign?_of_first? he) ?_⟩, hd, hlevels,
    hfits⟩
  have hhead := Pieces.head?_of_isGroup he hgroup
  rwa [hd, Text.skipBlanks_append (by rwa [Text.skipBlanks_skipBlanks]),
    Text.skipBlanks_skipBlanks, List.head?_append_of_ne_nil _ hs] at hhead

/-- Where an operand ends too early, all its forms fail, and there are levels left. -/
theorem Rule.EndsEarly.rejects (h : (operand (nested limit n)).EndsEarly s) :
    (∀ form, (operandBranch (nested limit n) form).Rejects s) ∧ 0 < n := by
  obtain ⟨what, hs⟩ := h
  have hall : ∀ form, (operandBranch (nested limit n) form).Rejects s := by
    intro form
    obtain ⟨g, hg, _⟩ := (furthest_of_parse_firstOf hs rfl).le (operandBranch _ form)
      (List.mem_map_of_mem (OperandForm.mem_all form))
    exact ⟨g, hg⟩
  refine ⟨hall, Nat.pos_of_ne_zero ?_⟩
  rintro rfl
  obtain ⟨f, hf, hdeep⟩ := hall .address
  have hvalue := parse_bind_pure_eq_error_iff.mp (parse_bind_pure_eq_error_iff.mp hf)
  rw [parse_nested_zero] at hvalue
  cases hvalue
  cases hdeep

/-- **An operand that ends too early can be completed.** -/
theorem exists_completion_operand (h : (operand (nested limit n)).EndsEarly s)
    (hnil : Text.skipBlanks s ≠ []) :
    ∃ more, ∃ d : Derivation.Operand, d.text = Text.skipBlanks s ++ more ∧
      d.pieces.levels ≤ d.form.levelsInside n ∧ d.Fits := by
  obtain ⟨hall, hn⟩ := h.rejects
  obtain ⟨what, hs⟩ := h
  cases foremost_of_parse_firstOf hs with
  | here hfirst _ =>
    exact exists_completion_form .indirectY hn (EndsEarly.sequence ⟨what, hfirst⟩) hnil nofun
  | later hg hlt hothers =>
    obtain ⟨b, hb, hf⟩ := hothers.exists_mem
    have hb : b ∈ (OperandForm.all.drop 1).map (operandBranch (nested limit n)) := hb
    obtain ⟨form, _, rfl⟩ := List.mem_map.mp hb
    by_cases hstack : form = .stackIndirectY
    · subst hstack
      obtain ⟨hpos, hinside⟩ :=
        EndsEarly.stackIndirectY hnil (hall .move) (EndsEarly.sequence ⟨what, hf⟩)
      exact exists_completion_form .stackIndirectY hpos hinside hnil nofun
    · have hinside : form.levelsInside n = n := by
        cases form <;> first | rfl | exact absurd rfl hstack
      have hparts :
          (sequence (nested limit (form.levelsInside n)) form.production).EndsEarly s := by
        rw [hinside]
        exact EndsEarly.sequence ⟨what, hf⟩
      refine exists_completion_form form (by rwa [hinside]) hparts hnil fun hsign hhead => ?_
      -- the form `(e),y` in front would have come to the end of the text, too
      obtain ⟨u, hu⟩ := List.head?_eq_some_iff.mp hhead
      obtain ⟨what', hfirst⟩ := EndsEarly.indirectY_of_value hu hsign hall ⟨what, hf⟩
      have hsame := hg.1.symm.trans hfirst
      cases hsame
      exact absurd (hlt rfl) (Nat.lt_irrefl _)

/-! ## Instructions -/

/-- A name of one letter. -/
def Word.letter : Word where
  first := 'a'
  others := []
  starts := by decide
  continues := by simp

namespace Derivation

/-- The text of an instruction is read to its end, as some instruction. -/
theorem Instruction.exists_parse (d : Instruction) (limit : Nat)
    (hlevels : d.operand.pieces.levels ≤ d.operand.form.levelsInside n) (hfits : d.operand.Fits) :
    ∃ i, (instruction (nested limit n)).parse d.text = .ok (i, []) := by
  obtain ⟨o, ho⟩ := d.operand.exists_says hfits
  have hparse := d.parse (i := ⟨d.name.name, d.suffix.map Suffix.size, o⟩) ⟨rfl, rfl, ho⟩ limit
    hlevels hfits (ends_nil _)
  rw [List.append_nil] at hparse
  exact ⟨_, hparse⟩

end Derivation

/-- What stands behind a mnemonic is completed to a size, if there is one, and an operand. Where
nothing was written of the operand yet, a sign comes first, so that it stands apart from the
name. -/
theorem exists_completion_behindMnemonic {t u : List Char} {size : Option Size}
    (hlongest : ∀ c ∈ t.head?, Text.isIdentifierContinue c = false)
    (hsize : size?.parse t = .ok (size, u)) (h : (operand (nested limit n)).EndsEarly u) :
    ∃ more, ∃ (between : Blanks) (suffix : Option Suffix) (d : Derivation.Operand),
      between.chars ++ (suffixText suffix ++ d.text) = t ++ more ∧
      d.pieces.levels ≤ d.form.levelsInside n ∧ d.Fits ∧
      ∀ c ∈ (suffixText suffix ++ d.text).head?, Text.isIdentifierContinue c = true →
        between.chars ≠ [] := by
  obtain ⟨more, d, hd, hlevels, hfits, hhead⟩ : ∃ more, ∃ d : Derivation.Operand,
      d.text = Text.skipBlanks u ++ more ∧ d.pieces.levels ≤ d.form.levelsInside n ∧ d.Fits ∧
        ∀ c ∈ d.text.head?, c ∈ (Text.skipBlanks u).head? ∨ c = '#' := by
    by_cases hnil : Text.skipBlanks u = []
    · refine ⟨['#', '1'], .one, ?_, Operand.levels_one h.rejects.2, Operand.fits_one, ?_⟩
      · rw [hnil]
        rfl
      · intro c hc
        cases hc
        exact .inr rfl
    · obtain ⟨more, d, hd, hlevels, hfits⟩ := exists_completion_operand h hnil
      refine ⟨more, d, hd, hlevels, hfits, fun c hc => .inl ?_⟩
      rwa [hd, List.head?_append_of_ne_nil _ hnil] at hc
  rcases exists_suffix_of_parse hsize with ⟨_, rfl⟩ | ⟨between, suffix, ht, _, hu⟩
  · refine ⟨more, .leading u, none, d, ?_, hlevels, hfits, fun c hc hcontinue hblanks => ?_⟩
    · show (Blanks.leading u).chars ++ d.text = u ++ more
      rw [hd, ← List.append_assoc, Blanks.leading_append]
    · have hu := Blanks.leading_append u
      rw [hblanks, List.nil_append] at hu
      rcases hhead c hc with hc | rfl
      · rw [hu] at hc
        rw [hlongest c hc] at hcontinue
        cases hcontinue
      · exact absurd hcontinue (by decide)
  · refine ⟨more, between, some suffix, d, ?_, hlevels, hfits, fun c hc hcontinue => ?_⟩
    · show between.chars ++ (suffix.text ++ d.text) = t ++ more
      rw [hd, hu.skipBlanks_eq, ht]
      simp only [List.append_assoc]
    · cases hc
      exact absurd hcontinue (by decide)

/-- **An instruction that ends too early can be completed.** -/
theorem exists_completion_instruction (hn : 0 < n)
    (h : (instruction (nested limit n)).EndsEarly s) :
    ∃ more i, (instruction (nested limit n)).parse (s ++ more) = .ok (i, []) := by
  suffices hd : ∃ more, ∃ d : Derivation.Instruction, d.text = s ++ more ∧
      d.operand.pieces.levels ≤ d.operand.form.levelsInside n ∧ d.operand.Fits by
    obtain ⟨more, d, hd, hlevels, hfits⟩ := hd
    obtain ⟨i, hi⟩ := d.exists_parse limit hlevels hfits
    exact ⟨more, i, hd ▸ hi⟩
  have hbefore := Blanks.leading_append s
  rw [instruction, endsEarly_bind_of_ok (parse_blanks s)] at h
  rcases endsEarly_bind_iff.mp h with hname | ⟨name, t, hname, h⟩
  · -- everything is still to be written
    rw [hname.of_identifier, List.append_nil] at hbefore
    refine ⟨['a', '#', '1'], ⟨.leading s, .letter, .none, none, .one, ?_⟩, ?_,
      Operand.levels_one hn, Operand.fits_one⟩
    · intro c hc hcontinue
      cases hc
      exact absurd hcontinue (by decide)
    · rw [Instruction.text, hbefore]
      rfl
  obtain ⟨word, hs, _, hlongest⟩ := exists_word_of_parse hname
  rcases endsEarly_bind_iff.mp h with ⟨what, hsize⟩ | ⟨size, u, hsize, h⟩
  · exact absurd (total_size? hsize) id
  have hoperand : (operand (nested limit n)).EndsEarly u := by
    rcases endsEarly_bind_iff.mp h with hoperand | ⟨o, v, _, hend⟩
    · exact hoperand
    · rw [endsEarly_bind_of_ok (parse_record _ _)] at hend
      exact absurd hend (not_endsEarly_of_ok (parse_pure _ _))
  obtain ⟨more, between, suffix, d, hbehind, hlevels, hfits, hapart⟩ :=
    exists_completion_behindMnemonic hlongest hsize hoperand
  refine ⟨more, ⟨.leading s, word, between, suffix, d, hapart⟩, ?_, hlevels, hfits⟩
  rw [Derivation.Instruction.text, hbehind, ← List.append_assoc word.chars, ← hs,
    ← List.append_assoc, hbefore]

/-! ## Assignments -/

/-- The text of an assignment is read to its end. -/
theorem parse_assignment_of_derives (limit : Nat) (before : Blanks) (word : Word) (between : Blanks)
    {x : List Char} {e : Expression} (h : Derives n x e) :
    (assignment (nested limit n)).parse
        (before.chars ++ (word.chars ++ (between.chars ++ '=' :: x))) =
      .ok (.assignment word.name e, []) := by
  have hskip : (assignment (nested limit n)).SkipsBlanks := skipsBlanks_blanks.bind _
  have hlongest : ∀ c ∈ ('=' :: x).head?, Text.isIdentifierContinue c = true →
      between.chars ≠ [] := by
    intro c hc hcontinue
    cases hc
    exact absurd hcontinue (by decide)
  have hsign : (expect ['='] "'='").parse (between.chars ++ '=' :: x) =
      .ok ('=', Text.skipBlanks x) := by
    refine parse_expect_eq_ok_iff.mpr ⟨x, ?_, List.mem_singleton_self _, rfl⟩
    rw [between.skipBlanks_append, Text.skipBlanks_cons_of_not_blank (by decide)]
  have hvalue := (parse_nested_eq_ok_nil_iff limit).mpr h
  rw [← skipsBlanks_nested] at hvalue
  rw [hskip.parse_append, assignment]
  refine (parse_blanks_identifier _ word hlongest).trans ?_
  rw [parse_bind_of_ok hsign, parse_bind_of_ok hvalue, parse_pure]

/-- **An assignment that ends too early can be completed.** -/
theorem exists_completion_assignment (hn : 0 < n) (h : (assignment (nested limit n)).EndsEarly s) :
    ∃ more x, (assignment (nested limit n)).parse (s ++ more) = .ok (x, []) := by
  have hone : Derives n ['1'] Spaced.one.tree := ⟨.one, rfl, rfl, hn, Spaced.fits_one⟩
  have hbefore := Blanks.leading_append s
  rw [assignment, endsEarly_bind_of_ok (parse_blanks s)] at h
  rcases endsEarly_bind_iff.mp h with hname | ⟨name, t, hname, h⟩
  · rw [hname.of_identifier, List.append_nil] at hbefore
    refine ⟨['a', '=', '1'], .assignment Word.letter.name Spaced.one.tree, ?_⟩
    have hparse := parse_assignment_of_derives limit (.leading s) .letter .none hone
    rwa [hbefore] at hparse
  obtain ⟨word, hs, _, _⟩ := exists_word_of_parse hname
  rw [hs] at hbefore
  rcases endsEarly_bind_iff.mp h with hsign | ⟨c, u, hsign, h⟩
  · have hbetween := Blanks.leading_append t
    rw [hsign.of_expect, List.append_nil] at hbetween
    refine ⟨['=', '1'], .assignment word.name Spaced.one.tree, ?_⟩
    have hparse := parse_assignment_of_derives limit (.leading s) word (.leading t) hone
    rwa [hbetween, ← List.append_assoc, ← List.append_assoc, List.append_assoc _ word.chars,
      hbefore] at hparse
  · obtain ⟨x, ht, hc, rfl⟩ := parse_expect_eq_ok_iff.mp hsign
    have hbetween := Blanks.leading_append t
    rw [ht, List.mem_singleton.mp hc] at hbetween
    have hvalue := (skipsBlanks_nested limit n).endsEarly_iff.mp (endsEarly_bind_pure_iff.mp h)
    obtain ⟨more, e, he⟩ := exists_completion_nested hvalue
    refine ⟨more, .assignment word.name e, ?_⟩
    have hparse := parse_assignment_of_derives limit (.leading s) word (.leading t) he
    have htext : s ++ more = (Blanks.leading s).chars ++
        (word.chars ++ ((Blanks.leading t).chars ++ '=' :: (x ++ more))) := by
      conv_lhs => rw [← hbefore, ← hbetween]
      simp only [List.append_assoc, List.cons_append]
    rwa [htext]

end Asm65816
