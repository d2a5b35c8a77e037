import Asm65816.Proofs.Reading
import Asm65816.Proofs.Statement.Extension
import Asm65816.Proofs.Statement.Instruction

/-!
# Failures that are final

Where a reading finds another character than the one that is required, the text is wrong for good:
whatever is written behind it, the reading fails in the same place for the same reason. Two cases
are different, both because something that was not finished was given back. An operator is given
back if its operand breaks off, and then stands where a closing sign is missed. And the point of a
size is given back if no letter follows, and then stands where the operand should begin.
-/

namespace Asm65816

open Rule Asm65816.Derivation

/-- A text that ends at the point behind a mnemonic. The letter of a size may still come. -/
def EndsAtPoint (s : List Char) : Prop :=
  ∃ (before : Blanks) (mnemonic : Word) (between after : Blanks),
    s = before.chars ++ (mnemonic.chars ++ (between.chars ++ '.' :: after.chars))

namespace Rule

variable {s u : List Char} {f : Failure}

/-! ## Sizes -/

theorem parse_size?_of_no_point (h : nextToken? (oneOf ['.']) s = none) :
    size?.parse s = .ok (none, s) := by
  refine parse_backIfNone_of_none (t := s) ?_
  rw [parse_bind_of_ok (parse_token?_of_none h), parse_pure]

/-- A point without a letter is given back. -/
theorem parse_size?_of_no_letter {c : Char} (h : nextToken? (oneOf ['.']) s = some (c, u))
    (hu : nextToken? Size.ofLetter? u = none) : size?.parse s = .ok (none, s) := by
  refine parse_backIfNone_of_none (t := u) ?_
  rw [parse_bind_of_ok (parse_token?_of_some h), parse_token?_of_none hu]

theorem parse_size?_of_letter {c : Char} {size : Size} {v : List Char}
    (h : nextToken? (oneOf ['.']) s = some (c, u))
    (hu : nextToken? Size.ofLetter? u = some (size, v)) : size?.parse s = .ok (some size, v) := by
  refine parse_backIfNone_of_some ?_
  rw [parse_bind_of_ok (parse_token?_of_some h), parse_token?_of_some hu]

/-- The size behind a mnemonic is settled unless the text ends there. -/
theorem settled_size? (hs : Text.skipBlanks s ≠ [])
    (hpoint : ∀ c, nextToken? (oneOf ['.']) s ≠ some (c, [])) :
    ∃ size u, size?.parse s = .ok (size, u) ∧ (u = [] ∨ size?.Settled s) := by
  cases ho : nextToken? (oneOf ['.']) s with
  | none =>
    have hsettled := settled_of_ok (parse_size?_of_no_point ho) fun t =>
      parse_size?_of_no_point (nextToken?_append_of_none ho hs t)
    exact ⟨none, s, parse_size?_of_no_point ho, .inr hsettled⟩
  | some x =>
    obtain ⟨c, v⟩ := x
    have hv : v ≠ [] := by
      rintro rfl
      exact hpoint c ho
    cases hl : nextToken? Size.ofLetter? v with
    | none =>
      have hskip : Text.skipBlanks v ≠ [] := by
        obtain ⟨_, w, _, _, rfl⟩ := nextToken?_eq_some_iff.mp ho
        rwa [Text.skipBlanks_skipBlanks]
      have hsettled := settled_of_ok (parse_size?_of_no_letter ho hl) fun t =>
        parse_size?_of_no_letter (nextToken?_append ho hv t) (nextToken?_append_of_none hl hskip t)
      exact ⟨none, s, parse_size?_of_no_letter ho hl, .inr hsettled⟩
    | some x =>
      obtain ⟨size, w⟩ := x
      refine ⟨some size, w, parse_size?_of_letter ho hl, ?_⟩
      by_cases hw : w = []
      · exact .inl hw
      · exact .inr (settled_of_ok (parse_size?_of_letter ho hl) fun t =>
          parse_size?_of_letter (nextToken?_append ho hv t) (nextToken?_append hl hw t))

theorem endsAtPoint_of_parse {name : String} {c : Char}
    (hname : identifier.parse (Text.skipBlanks s) = .ok (name, u))
    (hpoint : nextToken? (oneOf ['.']) u = some (c, [])) : EndsAtPoint s := by
  obtain ⟨word, hword, _, _⟩ := exists_word_of_parse hname
  obtain ⟨d, v, hv, hd, hnil⟩ := nextToken?_eq_some_iff.mp hpoint
  have hpoint : d = '.' := List.mem_singleton.mp (oneOf_eq_some_iff.mp hd).1
  have hblank := Blanks.leading_append v
  rw [← hnil, List.append_nil] at hblank
  refine ⟨.leading s, word, .leading u, .leading v, ?_⟩
  rw [hblank, ← hpoint, ← hv, Blanks.leading_append, ← hword, Blanks.leading_append]

/-! ## Statements -/

variable {limit m : Nat}

/-- **An operand that cannot be read can never be read**, with blanks in front of it. -/
theorem settled_operand (h : (operand (nested limit (m + 1))).parse s = .error f)
    (hf : Lasting (nested limit (m + 1)) s f) : (operand (nested limit (m + 1))).Settled s := by
  have hskip := skipsBlanks_operand (skipsBlanks_nested limit (m + 1))
  rw [← hskip s] at h
  have hs : Text.skipBlanks s ≠ [] := by
    intro hnil
    rw [hnil] at h
    exact hf.rest_ne_nil (rest_eq_nil_of_parse_nil h)
  obtain ⟨c, y, hcy⟩ := List.exists_cons_of_ne_nil hs
  have hb : Text.isBlank c = false := Text.not_blank_of_skipBlanks_eq_cons hcy
  refine (hskip.settled_iff hs).mp ?_
  have hlasting := hf.of_suffix (Text.skipBlanks_suffix s)
  rw [hcy] at h hlasting ⊢
  exact Stops.settled ⟨furthest_of_parse_firstOf h hf.not_tooDeep, hlasting⟩ hb

/-- The part of an instruction behind its mnemonic. -/
def behindMnemonic (inner : Rule Expression) (mnemonic : String) : Rule Instruction := do
  let size ← size?
  let operand ← operand inner
  record (.addressed mnemonic operand.mode)
  return { mnemonic, size, operand }

theorem instruction_eq (inner : Rule Expression) :
    instruction inner = blanks >>= fun _ => identifier >>= behindMnemonic inner := rfl

/-- What stands behind a mnemonic can never be read if it cannot be read now. -/
theorem settled_behindMnemonic {mnemonic : String}
    (h : (behindMnemonic (nested limit (m + 1)) mnemonic).parse s = .error f)
    (hf : Lasting (nested limit (m + 1)) s f)
    (hpoint : ∀ c, nextToken? (oneOf ['.']) s ≠ some (c, [])) :
    (behindMnemonic (nested limit (m + 1)) mnemonic).Settled s := by
  have hs : Text.skipBlanks s ≠ [] := by
    intro hs
    have hnone : nextToken? (oneOf ['.']) s = none := nextToken?_eq_none_iff.mpr (by simp [hs])
    -- the operand is then looked for at the end of the text
    have hskip : (operand (nested limit (m + 1)) >>= fun o => record (.addressed mnemonic o.mode)
        >>= fun _ => pure { mnemonic, size := none, operand := o : Instruction }).SkipsBlanks :=
      (skipsBlanks_operand (skipsBlanks_nested limit (m + 1))).bind _
    rw [behindMnemonic, parse_bind_of_ok (parse_size?_of_no_point hnone), ← hskip s, hs] at h
    exact hf.rest_ne_nil (rest_eq_nil_of_parse_nil h)
  obtain ⟨size, v, hsize, hv⟩ := settled_size? hs hpoint
  rw [behindMnemonic, parse_bind_of_ok hsize] at h
  rcases hv with rfl | hv
  · exact absurd (rest_eq_nil_of_parse_nil h) hf.rest_ne_nil
  refine hv.bind_of_ok hsize ?_
  cases hoperand : (operand (nested limit (m + 1))).parse v with
  | ok x =>
    rw [parse_bind_of_ok hoperand] at h
    cases h
  | error g =>
    rw [parse_bind_of_error hoperand] at h
    cases h
    have hv := hf.of_suffix (parse_suffix hsize)
    exact (settled_operand hoperand hv).bind_of_error hoperand _

/-- **An instruction that cannot be read can never be read**, with the two exceptions. -/
theorem settled_instruction (h : (instruction (nested limit (m + 1))).parse s = .error f)
    (hf : Lasting (nested limit (m + 1)) s f) (hpoint : ¬EndsAtPoint s) :
    (instruction (nested limit (m + 1))).Settled s := by
  rw [instruction_eq, parse_bind_of_ok (parse_blanks s)] at h
  have hs : Text.skipBlanks s ≠ [] := by
    intro hs
    rw [hs] at h
    exact hf.rest_ne_nil (rest_eq_nil_of_parse_nil h)
  rw [instruction_eq]
  refine (settled_blanks hs).bind_of_ok (parse_blanks s) ?_
  cases hname : identifier.parse (Text.skipBlanks s) with
  | error g =>
    rw [parse_bind_of_error hname] at h
    cases h
    exact (firm_identifier.settled hname hf.rest_ne_nil id).bind_of_error hname _
  | ok x =>
    obtain ⟨mnemonic, u⟩ := x
    rw [parse_bind_of_ok hname] at h
    have hu : u ≠ [] := by
      rintro rfl
      exact hf.rest_ne_nil (rest_eq_nil_of_parse_nil h)
    refine (firm_identifier.settled_of_rest hname hu id).bind_of_ok hname ?_
    have hlasting := hf.of_suffix ((parse_suffix hname).trans (Text.skipBlanks_suffix s))
    exact settled_behindMnemonic h hlasting fun c hc => hpoint (endsAtPoint_of_parse hname hc)

/-- **A statement that cannot be read can never be read**, with the two exceptions. -/
theorem settled_statement (h : (statement (nested limit (m + 1))).parse s = .error f)
    (hf : Lasting (nested limit (m + 1)) s f) (hpoint : ¬EndsAtPoint s) :
    (statement (nested limit (m + 1))).Settled s := by
  have hskip : (instruction (nested limit (m + 1))).SkipsBlanks := skipsBlanks_blanks.bind _
  have hs : Text.skipBlanks s ≠ [] := by
    intro hs
    rw [statement, parse_bind_of_ok (parse_blanks s), hs] at h
    exact hf.rest_ne_nil (rest_eq_nil_of_parse_nil h)
  rw [statement, parse_bind_of_ok (parse_blanks s)] at h
  refine (settled_blanks hs).bind_of_ok (parse_blanks s) ?_
  -- there is only one form to choose
  obtain ⟨b, hb, hrejects⟩ := (furthest_of_parse_firstOf h hf.not_tooDeep).mem
  obtain rfl := List.mem_singleton.mp hb
  have hinstruction : (instruction (nested limit (m + 1))).parse s = .error f := by
    rw [← hskip s]
    exact parse_bind_pure_eq_error_iff.mp hrejects.1
  have hsettled :=
    (hskip.settled_iff hs).mpr (settled_instruction hinstruction hf hpoint)
  refine settled_firstOf fun b hb' => ?_
  obtain rfl := List.mem_singleton.mp hb'
  exact ⟨hsettled.bind_of_error ((hskip s).trans hinstruction) _, f, hrejects⟩

end Rule

/-! ## Readings -/

/-- A report says that some character stands where another was required. -/
def Report.IsUnexpected (r : Report) : Prop :=
  ∃ message hint, r.diagnosis = .unexpected message hint

/-- A reading fails with what a report says, and in that place. -/
def Reading.FailsAs {α : Type} (reading : Reading α) (r : Report) : Prop :=
  ∃ r', reading.result = .error r' ∧ r'.diagnosis = r.diagnosis ∧ r'.position = r.position

/-- A rule fails on a text for an expression that more text may finish. -/
def Rule.BreaksOff {α : Type} (r : Rule α) (limit : NestingLimit) (text : String) : Prop :=
  ∃ f, (r.run text.toList).result = .error f ∧ Unfinished limit.expression f

/-- A rule fails on a text behind an expression in parentheses or brackets that more text may go on
with. -/
def Rule.BreaksOffInside {α : Type} (r : Rule α) (limit : NestingLimit) (text : String) : Prop :=
  ∃ f, (r.run text.toList).result = .error f ∧ Inside limit.expression text.toList f.rest ∧
    Dangling limit.expression operatorSigns f.rest

namespace Rule

variable {α : Type} {r : Rule α} {limit : NestingLimit} {text : String} {report : Report}

/-- A fault that some character stands in a place is soft, and there is such a character. -/
theorem soft_of_isUnexpected {f : Failure} (h : (f.report text).IsUnexpected)
    (hnames : f.fault.Names f.rest) : f.fault.isSoft = true ∧ f.rest ≠ [] := by
  obtain ⟨message, hint, h⟩ := h
  obtain ⟨fault, rest⟩ := f
  change fault.diagnosis = _ at h
  cases fault with
  | missing what found =>
    cases found with
    | none => cases h
    | some c =>
      refine ⟨rfl, ?_⟩
      rintro rfl
      cases hnames
  | trailing c | operatorAfterIndirect c =>
    refine ⟨rfl, ?_⟩
    rintro rfl
    cases hnames
  | overflow literal => cases h
  | tooDeep levels => cases h

/-- Before another character than an operator nothing breaks off. -/
theorem not_breaksOff (r : Rule α) (limit : NestingLimit) (text : String) {f : Failure} {c : Char}
    {s : List Char} (h : (r.run text.toList).result = .error f) (hrest : f.rest = c :: s)
    (hc : c ∉ operatorSigns) : ¬r.BreaksOff limit text ∧ ¬r.BreaksOffInside limit text := by
  have hdangling : ¬Dangling limit.expression operatorSigns f.rest := by
    rintro ⟨op, t, g, hop, hmem, _⟩
    rw [hrest] at hop
    cases hop
    exact hc hmem
  constructor
  · rintro ⟨g, hg, hunfinished⟩
    rw [h] at hg
    cases hg
    rcases hunfinished.rest with hnil | hu
    · rw [hrest] at hnil
      cases hnil
    · exact hdangling hu
  · rintro ⟨g, hg, _, hu⟩
    rw [h] at hg
    cases hg
    exact hdangling hu

/-- A settled text fails alike with more text behind it. -/
theorem read_append_of_settled (h : (r.read text).result = .error report)
    (hu : report.IsUnexpected) (hplaced : r.Placed) (hsettled : r.Settled text.toList)
    (more : String) : (r.read (text ++ more)).FailsAs report := by
  obtain ⟨f, hf, rfl⟩ := exists_failure_of_read h
  obtain ⟨hsoft, _⟩ := soft_of_isUnexpected hu (hplaced hf)
  have hmore : r.parse (text ++ more).toList = .error ⟨f.fault, f.rest ++ more.toList⟩ := by
    rw [String.toList_append]
    exact hsettled.soft hf hsoft more.toList
  refine ⟨_, read_result_of_error hmore, rfl, ?_⟩
  have hle := (parse_failure_suffix hf).length_le
  simp only [Failure.report, List.length_append, String.length_append, Option.some.injEq]
  rw [String.length_toList] at hle ⊢
  omega

end Rule

/-- **What is unexpected is final**: with any more text behind it, the reading fails with the same
fault in the same place. The text may not break off behind an operator, though, nor, for a
statement, at the point of a size. -/
theorem read_append_of_unexpected (limit : NestingLimit) (text more : String) (report : Report)
    (hu : report.IsUnexpected) :
    ((readExpression limit text).result = .error report →
      ¬limit.expression.BreaksOff limit text →
        (readExpression limit (text ++ more)).FailsAs report) ∧
    ((readStatement limit text).result = .error report →
      ¬(Rule.statement limit.expression).BreaksOff limit text →
      ¬(Rule.statement limit.expression).BreaksOffInside limit text → ¬EndsAtPoint text.toList →
        (readStatement limit (text ++ more)).FailsAs report) := by
  obtain ⟨m, hm⟩ := Nat.exists_eq_succ_of_ne_zero (Nat.pos_iff_ne_zero.mp limit.levels_pos)
  have hexpression : limit.expression = nested limit.levels (m + 1) := congrArg _ hm
  have hplaced : limit.expression.Placed := placed_nested limit.levels limit.levels
  constructor
  · intro h hbreaks
    refine read_append_of_settled h hu hplaced ?_ more
    obtain ⟨f, hf, rfl⟩ := exists_failure_of_read h
    obtain ⟨_, hrest⟩ := soft_of_isUnexpected hu (hplaced hf)
    have hfinished : ¬Unfinished limit.expression f :=
      fun hunfinished => hbreaks ⟨f, parse_eq_error_iff.mp hf, hunfinished⟩
    rw [hexpression] at hf hfinished ⊢
    exact (steady_nested limit.levels (Nat.le_refl (m + 1))).settled hf hrest hfinished
  · intro h hbreaks hinside hpoint
    refine read_append_of_settled h hu (placed_statement hplaced) ?_ more
    obtain ⟨f, hf, rfl⟩ := exists_failure_of_read h
    obtain ⟨hsoft, hrest⟩ := soft_of_isUnexpected hu (placed_statement hplaced hf)
    have hlasting : Lasting limit.expression text.toList f :=
      { not_tooDeep := Fault.isTooDeep_of_isSoft hsoft
        rest_ne_nil := hrest
        finished := fun hu => hbreaks ⟨f, parse_eq_error_iff.mp hf, hu⟩
        inside := fun hi hu => hinside ⟨f, parse_eq_error_iff.mp hf, hi, hu⟩ }
    rw [hexpression] at hf hlasting ⊢
    exact settled_statement hf hlasting hpoint

/-- A bracket ends no group, and no more text will make it do so. -/
theorem read_append_of_unexpected_bracket :
    (readExpression default ("(1]" ++ "+2)")).FailsAs
      { diagnosis := .unexpected "expected ')' to close expression, got ']'" none
        position := some 2
        source := some "(1]" } ∧
    (readStatement default ("LDA ($19],y" ++ ")")).FailsAs
      { diagnosis := .unexpected "expected ')', got ']'" none
        position := some 8
        source := some "LDA ($19],y" } := by
  constructor
  · have hfinished := not_breaksOff (default : NestingLimit).expression default "(1]"
      (f := ⟨.missing "')' to close expression" ']', [']']⟩)
      (eq_error_of_error? (by decide +kernel)) rfl (by decide)
    exact (read_append_of_unexpected default "(1]" "+2)" _ ⟨_, _, rfl⟩).1
      (eq_error_of_error? (by decide +kernel)) hfinished.1
  · have hfinished := not_breaksOff (Rule.statement (default : NestingLimit).expression) default
      "LDA ($19],y" (f := ⟨.missing "')'" ']', [']', ',', 'y']⟩)
      (eq_error_of_error? (by decide +kernel)) rfl (by decide)
    refine (read_append_of_unexpected default "LDA ($19],y" ")" _ ⟨_, _, rfl⟩).2
      (eq_error_of_error? (by decide +kernel)) hfinished.1 hfinished.2 ?_
    rintro ⟨before, mnemonic, between, after, h⟩
    have hpoint : '.' ∈ "LDA ($19],y".toList := by
      rw [h]
      simp
    exact absurd hpoint (by decide)

/-- The exceptions are there: operators and a point that end a text are given back, although more
text makes a reading of it. -/
theorem unexpected_not_final :
    ((∃ report, (readExpression default "(1+").result = .error report ∧ report.IsUnexpected) ∧
      (readExpression default ("(1+" ++ "2)")).result =
        .ok (.binary .add (.number 1 .none) (.number 2 .none))) ∧
    ((∃ report, (readStatement default "LDA (1+").result = .error report ∧ report.IsUnexpected) ∧
      (readStatement default ("LDA (1+" ++ "2)")).result = .ok (.instruction
        { mnemonic := "LDA"
          size := none
          operand :=
            { mode := .indirect
              value := .binary .add (.number 1 .none) (.number 2 .none)
              second := none } })) ∧
    (∃ report, (readStatement default "LDA.").result = .error report ∧ report.IsUnexpected) ∧
      (readStatement default ("LDA." ++ "b 1")).result = .ok (.instruction
        { mnemonic := "LDA"
          size := some .byte
          operand := { mode := .address, value := .number 1 .none, second := none } }) := by
  have hgroup : (readExpression default "(1+").result = .error
      ⟨.unexpected "expected ')' to close expression, got '+'" none, some 2, some "(1+"⟩ :=
    eq_error_of_error? (by decide +kernel)
  have hindirect : (readStatement default "LDA (1+").result = .error
      ⟨.unexpected "expected ')', got '+'" none, some 6, some "LDA (1+"⟩ :=
    eq_error_of_error? (by decide +kernel)
  have hsize : (readStatement default "LDA.").result = .error
      ⟨.unexpected "expected '(', got '.'" none, some 3, some "LDA."⟩ :=
    eq_error_of_error? (by decide +kernel)
  refine ⟨⟨⟨_, hgroup, _, _, rfl⟩, ?_⟩, ⟨⟨_, hindirect, _, _, rfl⟩, ?_⟩,
    ⟨_, hsize, _, _, rfl⟩, ?_⟩
  · exact eq_ok_of_toOption (by decide +kernel)
  · exact eq_ok_of_toOption (by decide +kernel)
  · exact eq_ok_of_toOption (by decide +kernel)

end Asm65816
