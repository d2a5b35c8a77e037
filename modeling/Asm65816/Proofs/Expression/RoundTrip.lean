import Asm65816.Proofs.Expression.Image
import Asm65816.Proofs.Expression.Nesting
import Asm65816.Proofs.Grammar.Exactness

/-!
# Writing and reading expressions

What is written of an expression is read as that expression just if the expression is canonical and
does not nest too deep. Conversely all that is read is canonical, and nests no deeper when it is
written than the text did from which it was read.
-/

namespace Asm65816

open Rule Asm65816.Derivation

namespace Expression

variable {e : Expression}

theorem toList_render (e : Expression) : e.render.toList = e.chars := String.toList_ofList

/-- The text of a canonical expression is derived within the levels that it needs, and not as a
group. -/
theorem Canonical.exists_spaced (h : e.Canonical) (hvalid : e.Valid) (before after : Blanks) :
    ∃ d : Spaced, d.text = before.chars ++ e.chars ++ after.chars ∧ d.after = after ∧ d.tree = e ∧
      d.levels = e.depth + 1 ∧ d.Fits ∧ ¬d.IsGroup := by
  obtain ⟨x, ⟨hs, he, hlevels, hfits⟩, hgroup⟩ := (h.written hvalid).sum
  exact ⟨.mk before x after, by rw [Spaced.text, hs], rfl, he, hlevels, hfits, hgroup⟩

/-- An expression that is read from its text within a number of levels. -/
structure Readable (levels : Nat) (e : Expression) : Prop where
  /-- It may be part of a program. -/
  valid : e.Valid
  /-- A text can say it. -/
  canonical : e.Canonical
  /-- There are levels enough for its text. -/
  depth_lt : e.depth < levels

theorem Readable.mono {m n : Nat} (h : e.Readable m) (hmn : m ≤ n) : e.Readable n :=
  ⟨h.valid, h.canonical, Nat.lt_of_lt_of_le h.depth_lt hmn⟩

/-- A text derives no expressions but readable ones. -/
theorem readable_of_derives {n : Nat} {s : List Char} (h : Derives n s e) : e.Readable n := by
  obtain ⟨d, _, rfl, hlevels, hfits⟩ := h
  exact ⟨d.valid hfits, d.canonical, Nat.lt_of_lt_of_le d.depth_lt hlevels⟩

/-- A readable expression is derived from its text. -/
theorem Readable.derives {n : Nat} (h : e.Readable n) : Derives n e.chars e := by
  obtain ⟨d, hs, _, he, hlevels, hfits, _⟩ := h.canonical.exists_spaced h.valid .none .none
  refine ⟨d, by simpa [Blanks.none] using hs, he, ?_, hfits⟩
  have := h.depth_lt
  omega

/-- **An expression is derived from its text just if it is readable.** -/
theorem derives_chars_iff {n : Nat} : Derives n e.chars e ↔ e.Readable n :=
  ⟨readable_of_derives, Readable.derives⟩

/-- What is read within a number of levels is readable within them. -/
theorem readable_of_parse {limit n : Nat} {s t : List Char}
    (h : (nested limit n).parse s = .ok (e, t)) : e.Readable n := by
  obtain ⟨d, _, he, hlevels, hfits, _⟩ := (reads_nested limit n).derives h
  exact readable_of_derives ⟨d, rfl, he, hlevels, hfits⟩

/-- A readable expression is read from its text, up to something that ends it. -/
theorem Readable.parse {n : Nat} (h : e.Readable n) (limit : Nat) {w : Blanks} {t : List Char}
    (hfollows : Follows w t) (ht : NoOperator t) :
    (nested limit n).parse (e.chars ++ (w.chars ++ t)) = .ok (e, t) := by
  obtain ⟨d, hs, rfl, rfl, hlevels, hfits, _⟩ := h.canonical.exists_spaced h.valid .none w
  have hlt := h.depth_lt
  have hparse := d.parse_nested limit (n := n) (by omega) hfits hfollows ht
  rw [hs] at hparse
  simpa only [Blanks.none, List.nil_append, List.append_assoc] using hparse

/-- The text of a canonical expression without levels enough fails by its nesting, whatever ends
it. -/
theorem Canonical.tooDeep_append (h : e.Canonical) (hvalid : e.Valid) (limit : Nat) {n : Nat}
    (hn : n ≤ e.depth) {w : Blanks} {t : List Char} (hfollows : Follows w t) (ht : NoOperator t) :
    ∃ f, (nested limit n).parse (e.chars ++ (w.chars ++ t)) = .error f ∧
      f.fault = .tooDeep limit := by
  obtain ⟨d, hs, rfl, _, hlevels, hfits, _⟩ := h.exists_spaced hvalid .none w
  have hparse : (nested limit n).parse (d.text ++ t) = _ := d.parse_text n hfollows ht
  rw [hs] at hparse
  simp only [Blanks.none, List.nil_append, List.append_assoc] at hparse
  cases hf : d.fault? limit n t with
  | none =>
    have := ((d.fault?_eq_none_iff n t).mp hf).1
    omega
  | some f =>
    rw [hf] at hparse
    exact ⟨f, hparse, Spaced.tooDeep_of_fault? hf hfits⟩

theorem Canonical.tooDeep (h : e.Canonical) (hvalid : e.Valid) (limit : Nat) {n : Nat}
    (hn : n ≤ e.depth) :
    ∃ f, (nested limit n).parse e.chars = .error f ∧ f.fault = .tooDeep limit := by
  have hparse := h.tooDeep_append hvalid limit hn (follows_nil .none) noOperator_nil
  rwa [Blanks.none, List.append_nil, List.append_nil] at hparse

end Expression

/-- **Writing and reading are inverse just on the canonical expressions that do not nest too deep.**
A canonical one that nests deeper is refused for that reason. -/
theorem parseExpression_render (limit : NestingLimit) (e : Expression) (h : e.Valid) :
    (parseExpression limit e.render = .ok e ↔ e.Canonical ∧ e.nest ≤ limit.levels) ∧
      (e.Canonical → limit.levels < e.nest → ∃ report,
        parseExpression limit e.render = .error report ∧
          report.diagnosis = .tooDeep limit.levels) := by
  constructor
  · rw [parseExpression_eq_ok_iff, Expression.toList_render, Expression.derives_chars_iff]
    constructor
    · intro hread
      refine ⟨hread.canonical, ?_⟩
      rw [hread.canonical.nest_eq h]
      exact hread.depth_lt
    · rintro ⟨hcanonical, hnest⟩
      rw [hcanonical.nest_eq h] at hnest
      exact ⟨h, hcanonical, hnest⟩
  · intro hcanonical hnest
    rw [hcanonical.nest_eq h] at hnest
    obtain ⟨f, hf, hfault⟩ := hcanonical.tooDeep h limit.levels (Nat.le_of_lt_succ hnest)
    rw [← Expression.toList_render] at hf
    refine ⟨f.report e.render, read_result_of_error (parse_bind_of_error hf), ?_⟩
    rw [Failure.report, hfault]
    rfl

/-- The parentheses around a sum take one level more. -/
theorem parseExpression_render_product :
    let e : Expression := .binary .mul (.binary .add (.reference (.named "a")) (.number 1 .none))
      (.number 0xff .oneByte)
    e.Valid ∧ parseExpression { levels := 2 } e.render = .ok e ∧ ∃ report,
      parseExpression { levels := 1 } e.render = .error report ∧
        report.diagnosis = .tooDeep 1 := by
  intro e
  have hvalid : e.Valid :=
    .binary (.binary (.reference (.named (by decide))) (.number (by decide))) (.number (by decide))
  have hname : IsName "a" := ⟨⟨'a', [], by decide, by simp⟩, by decide⟩
  have hcanonical : e.Canonical :=
    .binary (.inr (.inl rfl)) (.binary (.inl (.inl rfl)) (.reference hname) (.number trivial))
      (.number (Nat.le_refl 0xff))
  have hnest : e.nest = 2 := by decide +kernel
  refine ⟨hvalid, ?_, ?_⟩
  · exact (parseExpression_render { levels := 2 } e hvalid).1.mpr ⟨hcanonical, Nat.le_of_eq hnest⟩
  · exact (parseExpression_render { levels := 1 } e hvalid).2 hcanonical (by rw [hnest]; decide)

end Asm65816
