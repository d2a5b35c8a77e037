import Asm65816.Proofs.Statement.Operand
import Asm65816.Proofs.Statement.Pieces

/-!
# What is derived as an operand is read

The text of an operand is read in the form of its derivation, where a statement may end. The forms
that are tried earlier refuse it: another sign stands where they need theirs. An operand that begins
with an expression may begin with a parenthesis. As that expression is no group by itself, an
operator stands behind the closing one, and the forms in parentheses are refused there.
-/

namespace Asm65816

open Rule

/-- Where a statement may end: nothing stands there with which an operand could go on. -/
structure Ends (w : Blanks) (t : List Char) : Prop extends Follows w t where
  /-- No expression becomes longer. -/
  noOperator : NoOperator t
  /-- No expression becomes a part of another form. -/
  noComma : ∀ c ∈ t.head?, c ≠ ','

theorem ends_nil (w : Blanks) : Ends w [] := ⟨follows_nil w, noOperator_nil, by simp⟩

namespace Derivation

/-! ## The group in front of an expression -/

/-- A text begins with a group and an operator behind it. The group has no more than so many levels
inside. -/
def GroupAndOperator (n : Nat) (s : List Char) : Prop :=
  ∃ (inner : Spaced) (between : Blanks) (c : Char) (v : List Char),
    s = '(' :: (inner.text ++ ')' :: (between.chars ++ c :: v)) ∧ c ∈ operatorSigns ∧
      inner.levels ≤ n ∧ inner.Fits

theorem GroupAndOperator.append {n : Nat} {s : List Char} (h : GroupAndOperator n s)
    (t : List Char) : GroupAndOperator n (s ++ t) := by
  obtain ⟨inner, between, c, v, rfl, hc, hlevels, hfits⟩ := h
  refine ⟨inner, between, c, v ++ t, ?_, hc, hlevels, hfits⟩
  simp only [List.cons_append, List.append_assoc]

/-- A group and an operator make the beginning of a longer expression. -/
theorem groupAndOperator_join {n : Nat} {inner : Spaced} {o : Operator} (ho : o.IsWritten)
    (before : Blanks) (t : List Char) (hlevels : inner.levels ≤ n) (hfits : inner.Fits) :
    GroupAndOperator n ((Primary.group inner).text ++ before.chars ++ o.symbol.toList ++ t) := by
  obtain ⟨c, hsymbol, hc⟩ : ∃ c, o.symbol.toList = [c] ∧ c ∈ operatorSigns := by
    rcases ho with (rfl | rfl) | (rfl | rfl) <;> exact ⟨_, rfl, by decide⟩
  refine ⟨inner, before, c, t, ?_, hc, hlevels, hfits⟩
  simp only [Primary.text, hsymbol, List.cons_append, List.append_assoc, List.nil_append]

variable {n : Nat}

/-- A primary that begins with a parenthesis is a group. -/
theorem Primary.eq_group {p : Primary} {u : List Char} (h : p.text = '(' :: u) :
    ∃ inner, p = .group inner := by
  have word : ∀ (name : Word) (s : List Char), name.chars ++ s ≠ '(' :: u := by
    intro name s hs
    have hfirst : name.first = '(' := (List.cons_eq_cons.mp hs).1
    have hmem : name.first ∈ name.chars := List.mem_cons_self
    exact (Expression.not_paren_of_word hmem).1 hfirst
  cases p with
  | group inner => exact ⟨inner, rfl⟩
  | decimal run =>
    have hdigit := run.all_digits '(' (by rw [show run.chars = '(' :: u from h]; simp)
    exact absurd hdigit (by decide)
  | hexadecimal between run => cases h
  | reference name => exact absurd ((List.append_nil _).trans h) (word name [])
  | emptyCall name between inside =>
    simp only [Primary.text, List.append_assoc] at h
    exact absurd h (word name _)
  | call name between arguments =>
    simp only [Primary.text, List.append_assoc] at h
    exact absurd h (word name _)

/-- The operand on the left of an operator begins with the same character. -/
theorem eq_cons_of_append {s t u : List Char} {c d : Char} (hs : ∃ v, s = d :: v)
    (h : s ++ t = c :: u) : ∃ v, s = c :: v := by
  obtain ⟨v, rfl⟩ := hs
  exact ⟨v, by rw [(List.cons_eq_cons.mp h).1]⟩

/-- A term that begins with a parenthesis is a group, or an operator stands behind a group. -/
theorem Term.group_or : ∀ (x : Term) {u : List Char}, x.text = '(' :: u → x.levels ≤ n + 1 →
    x.Fits → (∃ inner, x = .primary (.group inner)) ∨ GroupAndOperator n x.text
  | .primary p, u, h, _, _ => by
    obtain ⟨inner, rfl⟩ := p.eq_group h
    exact .inl ⟨inner, rfl⟩
  | .join left before o multiplicative after right, u, h, hlevels, hfits => by
    obtain ⟨hl, _⟩ := Nat.max_le.mp hlevels
    simp only [Term.text, List.append_assoc] at h ⊢
    obtain ⟨c, v, hv, _⟩ := left.begins
    obtain ⟨v, hv⟩ := eq_cons_of_append ⟨v, hv⟩ h
    rcases left.group_or hv hl hfits.1 with ⟨inner, rfl⟩ | hgroup
    · have := groupAndOperator_join (.inr multiplicative) before (after.chars ++ right.text)
        (Nat.le_of_succ_le_succ hl) hfits.1
      simp only [List.append_assoc] at this
      exact .inr this
    · exact .inr (hgroup.append _)

/-- A sum that begins with a parenthesis is a group, or an operator stands behind a group. -/
theorem Sum.group_or : ∀ (x : Sum) {u : List Char}, x.text = '(' :: u → x.levels ≤ n + 1 → x.Fits →
    x.IsGroup ∨ GroupAndOperator n x.text
  | .term x, u, h, hlevels, hfits => by
    rcases x.group_or h hlevels hfits with ⟨inner, rfl⟩ | hgroup
    · exact .inl ⟨inner, rfl⟩
    · exact .inr hgroup
  | .join left before o additive after right, u, h, hlevels, hfits => by
    obtain ⟨hl, _⟩ := Nat.max_le.mp hlevels
    simp only [Sum.text, List.append_assoc] at h ⊢
    obtain ⟨c, v, hv, _⟩ := left.begins
    obtain ⟨v, hv⟩ := eq_cons_of_append ⟨v, hv⟩ h
    rcases left.group_or hv hl hfits.1 with ⟨inner, rfl⟩ | hgroup
    · have := groupAndOperator_join (.inl additive) before (after.chars ++ right.text)
        (Nat.le_of_succ_le_succ hl) hfits.1
      simp only [List.append_assoc] at this
      exact .inr this
    · exact .inr (hgroup.append _)

end Derivation

namespace Rule

open Asm65816.Derivation

/-! ## Where a form is refused -/

section

variable {inner : Rule Expression} {c : Char} {s : List Char}

/-- A form is refused where its parts are. -/
theorem refuses_of_sequence {form : OperandForm} (h : (sequence inner form.production).Refuses s) :
    (operandExpressions inner form).Refuses s :=
  refuses_operandExpressions (h.bind _)

/-- A form is refused where its sign is missing. -/
theorem refuses_of_sign {form : OperandForm} (hsign : form.sign? = some c)
    (h : ∀ d ∈ (Text.skipBlanks s).head?, d ≠ c) : (operandExpressions inner form).Refuses s := by
  refine refuses_of_sequence ?_
  cases form with
  | indirectY | indirect | xIndirect | stackIndirectY | longIndirectY | longIndirect | immediate =>
    cases hsign
    exact refuses_sequence_of_missing (by simpa using h)
  | move | address => cases hsign

end

section

variable {limit n : Nat} {c : Char} {s u t : List Char} {parts : List Part}

/-- No expression begins with another character than a primary does. -/
theorem parse_nested_of_not_begins (hb : Text.isBlank c = false) (hc : beginsPrimary c = false) :
    (nested limit (n + 1)).parse (c :: s) = .error ⟨.missing "expression" (some c), c :: s⟩ := by
  rw [parse_nested_succ, sum, chain_eq]
  refine parse_bind_of_error ?_
  rw [term, chain_eq]
  refine parse_bind_of_error (parse_primary_of_not_begins (unspaced_cons s hb) ?_)
  intro d hd
  cases hd
  exact hc

/-- No expression begins with the sign of an immediate value or of a long address. -/
theorem refuses_nested_of_not_begins (hn : 0 < n) (hb : Text.isBlank c = false)
    (hc : beginsPrimary c = false) : (nested limit n).Refuses (c :: s) := by
  obtain ⟨n, rfl⟩ := Nat.exists_eq_succ_of_ne_zero (Nat.pos_iff_ne_zero.mp hn)
  exact ⟨_, parse_nested_of_not_begins hb hc, rfl⟩

/-- Before a sign that no expression begins with, all forms are refused that need another one. -/
theorem refuses_of_other_sign (hn : 0 < n) (hb : Text.isBlank c = false)
    (hc : beginsPrimary c = false) {form : OperandForm} (hsign : form.sign? ≠ some c) :
    (operandExpressions (nested limit n) form).Refuses (c :: s) := by
  cases hform : form.sign? with
  | some d =>
    refine refuses_of_sign hform ?_
    rw [(unspaced_cons s hb).skipBlanks_eq]
    intro e he hed
    cases he
    exact hsign (hed ▸ hform)
  | none =>
    have hexpression : (nested limit n).Refuses (c :: s) := refuses_nested_of_not_begins hn hb hc
    cases form with
    | move | address => exact hexpression.bind _
    | indirectY | indirect | xIndirect | immediate | longIndirectY | longIndirect
    | stackIndirectY => cases hform

/-! ### Behind a parenthesis -/

variable {e : Spaced} {w w' : Blanks}

/-- An expression is read up to a sign that ends it. -/
theorem parse_nested_endSign (limit : Nat) (hlevels : e.levels ≤ n) (hfits : e.Fits)
    (hc : c ∈ endSigns) (s : List Char) :
    (nested limit n).parse (e.text ++ c :: s) = .ok (e.tree, c :: s) :=
  e.parse_nested limit hlevels hfits (follows_endSign e.after s hc) (noOperator_endSign s hc)

/-- An expression between two signs is read. -/
theorem parse_sequence_enclosed {chars : List Char} {what : String} {o : Char} (limit : Nat)
    (hb : Text.isBlank o = false) (ho : o ∈ chars) (w : Blanks) (hlevels : e.levels ≤ n)
    (hfits : e.Fits) (hc : c ∈ endSigns) (s : List Char) :
    (sequence (nested limit n) (.token chars what :: .value :: parts)).parse
        (o :: (w.chars ++ (e.text ++ c :: s))) =
      (sequence (nested limit n) parts >>= fun others => pure (e.tree :: others)).parse
        (c :: s) := by
  rw [parse_sequence_token hb ho, sequence, parse_bind_of_ok ((skipsBlanks_nested limit n _).trans
    (parse_nested_endSign limit hlevels hfits hc s))]

/-- An expression behind an opening sign is refused if what stands behind it is. -/
theorem refuses_sequence_enclosed {chars : List Char} {what : String} {o : Char}
    (hb : Text.isBlank o = false) (ho : o ∈ chars) (w : Blanks) (hlevels : e.levels ≤ n)
    (hfits : e.Fits) (hc : c ∈ endSigns) (h : (sequence (nested limit n) parts).Refuses (c :: s)) :
    (sequence (nested limit n) (.token chars what :: .value :: parts)).Refuses
      (o :: (w.chars ++ (e.text ++ c :: s))) := by
  obtain ⟨f, hf, hd⟩ := h.bind fun others => pure (e.tree :: others)
  exact ⟨f, (parse_sequence_enclosed limit hb ho w hlevels hfits hc s).trans hf, hd⟩

/-- A token is refused where another sign stands. -/
theorem refuses_sequence_sign {inner : Rule Expression} {chars : List Char} {what : String}
    (hb : Text.isBlank c = false) (hc : c ∉ chars) :
    (sequence inner (.token chars what :: parts)).Refuses (c :: s) := by
  refine refuses_sequence_of_missing ?_
  rw [(unspaced_cons s hb).skipBlanks_eq]
  intro d hd
  cases hd
  exact hc

/-- The forms `(e),y` and `(e)` are refused where a comma stands behind the expression. -/
theorem refuses_comma (w : Blanks) (hlevels : e.levels ≤ n) (hfits : e.Fits) (s : List Char)
    {form : OperandForm} (hform : form = .indirectY ∨ form = .indirect) :
    (operandExpressions (nested limit n) form).Refuses
      ('(' :: (w.chars ++ (e.text ++ ',' :: s))) := by
  refine refuses_of_sequence ?_
  rcases hform with rfl | rfl <;>
    exact refuses_sequence_enclosed (by decide) (by decide) w hlevels hfits (by decide)
      (refuses_sequence_sign (by decide) (by decide))

/-- The form `(e),y` is refused where no comma stands behind the parenthesis. -/
theorem refuses_indirectY (w : Blanks) (hlevels : e.levels ≤ n) (hfits : e.Fits)
    (h : ∀ c ∈ (Text.skipBlanks s).head?, c ≠ ',') :
    (operandExpressions (nested limit n) .indirectY).Refuses
      ('(' :: (w.chars ++ (e.text ++ ')' :: (w'.chars ++ s)))) := by
  refine refuses_of_sequence
    (refuses_sequence_enclosed (by decide) (by decide) w hlevels hfits (by decide) ?_)
  refine refuses_sequence_token (by decide) (by decide) w' (refuses_sequence_of_missing ?_)
  rw [Text.skipBlanks_skipBlanks]
  simpa using h

/-- The parts of the form `(e)` are read from a group. -/
theorem parse_sequence_indirect (limit : Nat) (w w' : Blanks) (hlevels : e.levels ≤ n)
    (hfits : e.Fits) (s : List Char) :
    (sequence (nested limit n) OperandForm.indirect.production).parse
        ('(' :: (w.chars ++ (e.text ++ ')' :: (w'.chars ++ s)))) =
      .ok ([e.tree], Text.skipBlanks s) := by
  have hclose : (sequence (nested limit n) [.token [')'] "')'"]).parse (')' :: (w'.chars ++ s)) =
      .ok ([], Text.skipBlanks s) := parse_sequence_token (by decide) (by decide) w' s
  rw [OperandForm.production, parse_sequence_enclosed limit (by decide) (by decide) w hlevels hfits
    (by decide), parse_bind_of_ok hclose, parse_pure]

/-- The form `(e)` is refused where an operator stands behind the parenthesis. -/
theorem refuses_indirect (w : Blanks) (hlevels : e.levels ≤ n) (hfits : e.Fits)
    (hc : c ∈ operatorSigns) :
    (operandExpressions (nested limit n) .indirect).Refuses
      ('(' :: (w.chars ++ (e.text ++ ')' :: (w'.chars ++ c :: s)))) := by
  have hread := parse_sequence_indirect limit w w' hlevels hfits (c :: s)
  rw [(unspaced_cons s (not_blank_of_operatorSign hc)).skipBlanks_eq] at hread
  exact refuses_operandExpressions (.after hread ((refuses_noOperator hc).bind _))

/-- Nothing but an operator stands behind a group that an expression begins with. -/
theorem refuses_groupAndOperator (h : GroupAndOperator n s) {form : OperandForm}
    (hform : form = .indirectY ∨ form = .indirect ∨ form = .xIndirect) :
    (operandExpressions (nested limit n) form).Refuses s := by
  obtain ⟨e, w, c, v, rfl, hc, hlevels, hfits⟩ := h
  have hcomma : ∀ d ∈ (Text.skipBlanks (c :: v)).head?, d ≠ ',' := by
    have signs : ∀ c ∈ operatorSigns, Text.isBlank c = false ∧ c ≠ ',' :=
      forall_mem_of_all (by decide)
    rw [(unspaced_cons v (signs c hc).1).skipBlanks_eq]
    intro d hd
    cases hd
    exact (signs c hc).2
  rcases hform with rfl | rfl | rfl
  · exact refuses_indirectY .none hlevels hfits hcomma
  · exact refuses_indirect .none hlevels hfits hc
  · exact refuses_of_sequence (refuses_sequence_enclosed (by decide) (by decide) .none hlevels hfits
      (by decide) (refuses_sequence_sign (by decide) (by decide)))

/-- An expression that is no group by itself is not taken for an operand in parentheses. -/
theorem refuses_value (hlevels : e.levels ≤ n) (hfits : e.Fits) (hgroup : ¬e.IsGroup)
    {form : OperandForm} (hform : form = .indirectY ∨ form = .indirect ∨ form = .xIndirect)
    (s : List Char) : (operandExpressions (nested limit n) form).Refuses (e.text ++ s) := by
  obtain ⟨before, x, after⟩ := e
  have hskip := skipsBlanks_operandExpressions (skipsBlanks_nested limit n) form
  rw [Spaced.text, List.append_assoc, List.append_assoc]
  obtain ⟨n, rfl⟩ : ∃ m, n = m + 1 := Nat.exists_eq_succ_of_ne_zero (by
    have := x.levels_pos
    rw [Spaced.levels] at hlevels
    omega)
  obtain ⟨f, hf, hd⟩ : (operandExpressions (nested limit (n + 1)) form).Refuses
      (x.text ++ (after.chars ++ s)) := by
    obtain ⟨c, u, hu, hbegins⟩ := x.begins
    by_cases hopen : c = '('
    · subst hopen
      have hor := (x.group_or hu hlevels hfits).resolve_left hgroup
      obtain ⟨e, w, c, v, hs, hc, hle, hfit⟩ := hor.append (after.chars ++ s)
      exact refuses_groupAndOperator ⟨e, w, c, v, hs, hc, Nat.le_succ_of_le hle, hfit⟩ hform
    · refine refuses_of_sign (c := '(') (by rcases hform with rfl | rfl | rfl <;> rfl) ?_
      rw [(x.unspaced _).skipBlanks_eq, hu]
      intro d hd
      cases hd
      exact hopen
  exact ⟨f, (hskip.parse_append before _).trans hf, hd⟩

/-- A group is refused where a comma stands in place of the closing parenthesis. -/
theorem refuses_nested_comma (limit : Nat) (w : Blanks) (hlevels : e.levels ≤ n) (hfits : e.Fits)
    (s : List Char) :
    (nested limit (n + 1)).Refuses ('(' :: (w.chars ++ (e.text ++ ',' :: s))) := by
  obtain ⟨f, hf, hd⟩ : (expect [')'] "')' to close expression").Refuses (',' :: s) :=
    refuses_expect (by rw [Text.skipBlanks_cons_of_not_blank (by decide)]; simp)
  have he := parse_nested_endSign limit hlevels hfits (by decide : ',' ∈ endSigns) s
  rw [← (skipsBlanks_nested limit n).parse_append w] at he
  exact ⟨f, parse_nested_open_of_not_close he hf, hd⟩

/-! ## The forms in front -/

/-- **The forms that are tried earlier refuse the text of an operand.** -/
theorem refuses_before : ∀ (form : OperandForm) (d : Pieces form.production),
    (∀ e, d.first? = some e → ¬e.IsGroup) → d.levels ≤ form.levelsInside n → d.Fits →
    Ends (d.afterLast .none) t → ∀ g : OperandForm, g.Before form →
    (operandExpressions (nested limit n) g).Refuses (d.text ++ t)
  | .indirectY, _, _, _, _, _, _, hg => absurd hg (Nat.not_lt_zero _)
  | .indirect, .token _ ho v (.value e (.token _ hc u .nil)), _, hlevels, hfits, h, g, hg => by
    obtain rfl := List.mem_singleton.mp ho
    obtain rfl := List.mem_singleton.mp hc
    obtain ⟨hlevels, _⟩ := Nat.max_le.mp hlevels
    simp only [Pieces.text, List.cons_append, List.append_assoc, List.nil_append]
    cases g with
    | indirectY =>
      refine refuses_indirectY v hlevels hfits.1 ?_
      rw [h.unspaced.skipBlanks_eq]
      exact h.noComma
    | indirect | xIndirect | move | address | immediate | longIndirectY | longIndirect
    | stackIndirectY => exact absurd hg (by decide)
  | .xIndirect, .token _ ho v (.value e (.token _ hc u _)), _, hlevels, hfits, _, g, hg => by
    obtain rfl := List.mem_singleton.mp ho
    obtain rfl := List.mem_singleton.mp hc
    obtain ⟨hlevels, _⟩ := Nat.max_le.mp hlevels
    simp only [Pieces.text, List.cons_append, List.append_assoc]
    cases g with
    | indirectY => exact refuses_comma v hlevels hfits.1 _ (.inl rfl)
    | indirect => exact refuses_comma v hlevels hfits.1 _ (.inr rfl)
    | xIndirect | move | address | immediate | longIndirectY | longIndirect | stackIndirectY =>
      exact absurd hg (by decide)
  | .move, .value e others, hgroup, hlevels, hfits, _, g, hg => by
    obtain ⟨hlevels, _⟩ := Nat.max_le.mp hlevels
    simp only [Pieces.text, List.append_assoc]
    refine refuses_value hlevels hfits.1 (hgroup e rfl) ?_ _
    cases g <;> first | exact absurd hg (by decide) | simp
  | .address, .value e .nil, hgroup, hlevels, hfits, h, g, hg => by
    obtain ⟨hlevels, _⟩ := Nat.max_le.mp hlevels
    simp only [Pieces.text, List.append_nil]
    by_cases hmove : g = .move
    · subst hmove
      refine refuses_of_sequence (refuses_sequence_value
        (e.parse_nested limit hlevels hfits.1 h.toFollows h.noOperator)
        (refuses_sequence_of_missing ?_))
      rw [h.unspaced.skipBlanks_eq]
      simpa using h.noComma
    · refine refuses_value hlevels hfits.1 (hgroup e rfl) ?_ _
      cases g <;> first | exact absurd hg (by decide) | exact absurd rfl hmove | simp
  | .immediate, .token _ ho v (.value e _), _, hlevels, _, _, g, hg => by
    obtain rfl := List.mem_singleton.mp ho
    have hn : 0 < n := Nat.lt_of_lt_of_le e.levels_pos (Nat.max_le.mp hlevels).1
    refine refuses_of_other_sign hn (by decide) (by decide) ?_
    cases g <;> first | exact absurd hg (by decide) | decide
  | .longIndirectY, .token _ ho v (.value e _), _, hlevels, _, _, g, hg => by
    obtain rfl := List.mem_singleton.mp ho
    have hn : 0 < n := Nat.lt_of_lt_of_le e.levels_pos (Nat.max_le.mp hlevels).1
    refine refuses_of_other_sign hn (by decide) (by decide) ?_
    cases g <;> first | exact absurd hg (by decide) | decide
  | .longIndirect, .token _ ho v (.value e (.token _ hc u .nil)), _, hlevels, hfits, h, g, hg => by
    obtain rfl := List.mem_singleton.mp ho
    obtain rfl := List.mem_singleton.mp hc
    obtain ⟨hlevels, _⟩ := Nat.max_le.mp hlevels
    by_cases hlong : g = .longIndirectY
    · subst hlong
      simp only [Pieces.text, List.cons_append, List.append_assoc, List.nil_append]
      refine refuses_of_sequence (refuses_sequence_enclosed (by decide) (by decide) v hlevels
        hfits.1 (by decide) (refuses_sequence_token (by decide) (by decide) u
          (refuses_sequence_of_missing ?_)))
      rw [Text.skipBlanks_skipBlanks, h.unspaced.skipBlanks_eq]
      simpa using h.noComma
    · have hn : 0 < n := Nat.lt_of_lt_of_le e.levels_pos hlevels
      refine refuses_of_other_sign hn (by decide) (by decide) ?_
      cases g <;> first | exact absurd hg (by decide) | exact absurd rfl hlong | decide
  | .stackIndirectY, .token _ ho v (.value e (.token _ hc u (.token x hx _ _))), _, hlevels, hfits,
      _, g, hg => by
    obtain rfl := List.mem_singleton.mp ho
    obtain rfl := List.mem_singleton.mp hc
    obtain ⟨hinside, _⟩ := Nat.max_le.mp hlevels
    rw [OperandForm.levelsInside] at hinside
    obtain ⟨n, rfl⟩ : ∃ m, n = m + 1 := Nat.exists_eq_succ_of_ne_zero (by
      have := e.levels_pos
      omega)
    rw [Nat.add_sub_cancel] at hinside
    have hlevels : e.levels ≤ n + 1 := Nat.le_succ_of_le hinside
    simp only [Pieces.text, List.cons_append, List.append_assoc]
    -- every other form in parentheses fails at the comma or behind it
    cases g with
    | indirectY => exact refuses_comma v hlevels hfits.1 _ (.inl rfl)
    | indirect => exact refuses_comma v hlevels hfits.1 _ (.inr rfl)
    | xIndirect =>
      have registers : ∀ c ∈ ['s', 'S'], Text.isBlank c = false ∧ c ∉ ['x', 'X'] :=
        forall_mem_of_all (by decide)
      obtain ⟨hb, hne⟩ := registers x hx
      refine refuses_of_sequence (refuses_sequence_enclosed (by decide) (by decide) v hlevels
        hfits.1 (by decide) (refuses_sequence_token (by decide) (by decide) u ?_))
      rw [(unspaced_cons _ hb).skipBlanks_eq]
      exact refuses_sequence_sign hb hne
    | move | address => exact (refuses_nested_comma limit v hinside hfits.1 _).bind _
    | immediate | longIndirectY | longIndirect =>
      refine refuses_of_sign rfl ?_
      rw [Text.skipBlanks_cons_of_not_blank (by decide)]
      simp
    | stackIndirectY => exact absurd hg (Nat.lt_irrefl _)

end

end Rule

/-! ## Operands -/

namespace Derivation

/-- **The text of an operand is read as that operand**, whatever the form. -/
theorem Operand.parse (d : Operand) {o : Asm65816.Operand} (ho : d.Says o) (limit : Nat) {n : Nat}
    (hlevels : d.pieces.levels ≤ d.form.levelsInside n) (hfits : d.Fits) {t : List Char}
    (h : Ends d.after t) : (operand (nested limit n)).parse (d.text ++ t) = .ok (o, t) := by
  have hread := d.pieces.parse limit .none (delimited_production d.form)
    (Nat.le_trans hlevels (OperandForm.levelsInside_le n d.form)) hfits h.toFollows h.noOperator
  rw [← ho.values] at hread
  refine parse_operand_eq_ok_iff.mpr ⟨d.form, fun g hg => ?_, o.value, o.second, ?_, ?_⟩
  · exact refuses_before d.form d.pieces d.first_not_group hlevels hfits h g hg
  · exact parse_operandExpressions_eq_ok_iff.mpr ⟨hread, fun _ => h.noOperator⟩
  · rw [← ho.mode]

/-- An operand does not begin with the point of a size. -/
theorem Operand.begins (d : Operand) (t : List Char) :
    ∃ c u, Text.skipBlanks (d.text ++ t) = c :: u ∧ c ≠ '.' := by
  obtain ⟨form, pieces, _⟩ := d
  rw [Operand.text]
  cases form with
  | indirectY | indirect | xIndirect | stackIndirectY | longIndirectY | longIndirect | immediate =>
    cases pieces with
    | token c hc after others =>
      obtain rfl := List.mem_singleton.mp hc
      exact ⟨_, _, Text.skipBlanks_cons_of_not_blank (by decide), by decide⟩
  | move | address =>
    cases pieces with
    | value e others =>
      obtain ⟨c, u, hu, hc⟩ := e.begins (others.text ++ t)
      refine ⟨c, u, ?_, ?_⟩
      · simp only [Pieces.text, List.append_assoc]
        exact hu
      · rintro rfl
        exact absurd hc (by decide)

/-! ## Instructions -/

theorem Suffix.not_blank (x : Suffix) : Text.isBlank x.letter = false := by
  rw [Bool.eq_false_iff]
  intro hb
  have hmeans := x.means
  rcases Text.isBlank_iff.mp hb with h | h | h | h <;>
  · rw [h] at hmeans
    cases hmeans

end Derivation

namespace Rule

open Asm65816.Derivation

/-- The size behind a mnemonic is read, up to something that is no size. -/
theorem parse_size? {α : Type} {next : Option Size → Rule α} (suffix : Option Suffix)
    (between : Blanks) (hskip : (next (suffix.map Suffix.size)).SkipsBlanks) {s : List Char}
    (hs : ∀ c ∈ (Text.skipBlanks s).head?, c ≠ '.') :
    (size? >>= next).parse (between.chars ++ (suffixText suffix ++ s)) =
      (next (suffix.map Suffix.size)).parse s := by
  cases suffix with
  | none =>
    have hnone : nextToken? (oneOf ['.']) (between.chars ++ s) = none := by
      rw [nextToken?_eq_none_iff, between.skipBlanks_append]
      exact fun c hc => oneOf_eq_none_iff.mpr (by simpa using hs c hc)
    have hsize : size?.parse (between.chars ++ s) = .ok (none, between.chars ++ s) := by
      refine parse_backIfNone_of_none (t := between.chars ++ s) ?_
      rw [parse_bind_of_ok (parse_token?_of_none hnone), parse_pure]
    exact (parse_bind_of_ok hsize).trans (hskip.parse_append between s)
  | some x =>
    have hpoint : nextToken? (oneOf ['.']) (between.chars ++ (x.text ++ s)) =
        some ('.', x.letter :: (x.after.chars ++ s)) := by
      rw [← nextToken?_skipBlanks, between.skipBlanks_append, nextToken?_skipBlanks, Suffix.text,
        List.cons_append, nextToken?_cons (by decide), List.append_assoc,
        x.between.skipBlanks_append, List.cons_append, (unspaced_cons _ x.not_blank).skipBlanks_eq]
      rfl
    have hletter : nextToken? Size.ofLetter? (x.letter :: (x.after.chars ++ s)) =
        some (x.size, Text.skipBlanks s) := by
      rw [nextToken?_cons x.not_blank, x.means, x.after.skipBlanks_append]
      rfl
    have hsize : size?.parse (between.chars ++ (x.text ++ s)) =
        .ok (some x.size, Text.skipBlanks s) :=
      parse_backIfNone_of_some
        ((parse_bind_of_ok (parse_token?_of_some hpoint)).trans (parse_token?_of_some hletter))
    exact (parse_bind_of_ok hsize).trans (hskip s)

end Rule

namespace Derivation

/-- Reading the text of an instruction leads to its operand. -/
theorem Instruction.parse_text (d : Instruction) (limit n : Nat) (t : List Char) :
    (instruction (nested limit n)).parse (d.text ++ t) =
      (Rule.operand (nested limit n) >>= fun o =>
        record (.addressed d.name.name o.mode) >>= fun _ =>
          pure { mnemonic := d.name.name, size := d.suffix.map Suffix.size, operand := o }).parse
        (d.operand.text ++ t) := by
  have hskip := skipsBlanks_operand (skipsBlanks_nested limit n)
  have hpoint : ∀ c ∈ (Text.skipBlanks (d.operand.text ++ t)).head?, c ≠ '.' := by
    obtain ⟨c, u, hu, hc⟩ := d.operand.begins t
    rw [hu]
    intro e he
    cases he
    exact hc
  have hlongest : ∀ c ∈ (suffixText d.suffix ++ (d.operand.text ++ t)).head?,
      Text.isIdentifierContinue c = true → d.between.chars ≠ [] := by
    have hne : suffixText d.suffix ++ d.operand.text ≠ [] := by
      obtain ⟨c, u, hu, _⟩ := d.operand.begins []
      intro hnil
      rw [(List.append_eq_nil_iff.mp hnil).2] at hu
      cases hu
    rw [← List.append_assoc, List.head?_append_of_ne_nil _ hne]
    exact d.longest
  have hinstruction : (instruction (nested limit n)).SkipsBlanks := skipsBlanks_blanks.bind _
  simp only [Instruction.text, List.append_assoc]
  rw [hinstruction.parse_append, instruction]
  refine (parse_blanks_identifier _ d.name hlongest).trans ?_
  exact parse_size? d.suffix d.between (hskip.bind _) hpoint

/-- **The text of an instruction is read as that instruction**, where a statement may end. -/
theorem Instruction.parse (d : Instruction) {i : Asm65816.Instruction} (hi : d.Says i) (limit : Nat)
    {n : Nat} (hlevels : d.operand.pieces.levels ≤ d.operand.form.levelsInside n)
    (hfits : d.operand.Fits) {t : List Char} (h : Ends d.operand.after t) :
    (instruction (nested limit n)).parse (d.text ++ t) = .ok (i, t) := by
  rw [d.parse_text, parse_bind_of_ok (d.operand.parse hi.operand limit hlevels hfits h),
    parse_bind_of_ok (parse_record _ _), parse_pure, ← hi.mnemonic, ← hi.size]

end Derivation

end Asm65816
