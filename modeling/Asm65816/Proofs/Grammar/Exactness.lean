import Asm65816.Proofs.Grammar.Soundness
import Asm65816.Proofs.Reading

/-!
# The grammar is exact

A text is read as an expression just if it derives the expression in the grammar, within the levels
of the limit. As a text is read in one way only, it also derives one tree at most.
-/

namespace Asm65816

open Rule

/-! ## The rule for expressions -/

theorem Derives.mono {m n : Nat} {s : List Char} {e : Expression} (h : Derives m s e)
    (hmn : m ≤ n) : Derives n s e := by
  obtain ⟨d, hs, he, hlevels, hfits⟩ := h
  exact ⟨d, hs, he, Nat.le_trans hlevels hmn, hfits⟩

/-- A derivation that fits within the levels is read, and nothing that stands behind it. -/
theorem Derivation.Spaced.parse_nested {d : Spaced} {n : Nat} {t : List Char} (limit : Nat)
    (hlevels : d.levels ≤ n) (hfits : d.Fits) (hfollows : Follows d.after t) (ht : NoOperator t) :
    (nested limit n).parse (d.text ++ t) = .ok (d.tree, t) := by
  rw [d.parse_text n hfollows ht, (d.fault?_eq_none_iff n t).mpr ⟨hlevels, hfits⟩]
  rfl

/-- A text is read to its end just if it is derived. -/
theorem parse_nested_eq_ok_nil_iff (limit : Nat) {n : Nat} {s : List Char} {e : Expression} :
    (nested limit n).parse s = .ok (e, []) ↔ Derives n s e := by
  constructor
  · intro h
    obtain ⟨d, hs, he, hlevels, hfits, _⟩ := (Derivation.reads_nested limit n).derives h
    rw [List.append_nil] at hs
    exact ⟨d, hs.symm, he, hlevels, hfits⟩
  · rintro ⟨d, rfl, rfl, hlevels, hfits⟩
    have h := d.parse_nested limit hlevels hfits (follows_nil d.after) noOperator_nil
    rwa [List.append_nil] at h

theorem Derives.unique {m n : Nat} {s : List Char} {e e' : Expression} (h : Derives m s e)
    (h' : Derives n s e') : e = e' := by
  -- both are read within the greater number of levels
  have hm := (parse_nested_eq_ok_nil_iff 0).mpr (h.mono (Nat.le_max_left m n))
  have hn := (parse_nested_eq_ok_nil_iff 0).mpr (h'.mono (Nat.le_max_right m n))
  rw [hm] at hn
  cases hn
  rfl

/-! ## Whole texts -/

theorem parseExpression_eq_ok_iff {limit : NestingLimit} {text : String} {e : Expression} :
    parseExpression limit text = .ok e ↔ Derives limit.levels text.toList e := by
  unfold parseExpression
  rw [read_result_eq_ok_iff, ← parse_nested_eq_ok_nil_iff limit.levels]
  constructor
  · rintro ⟨t, h⟩
    obtain ⟨u, hu, hskip, rfl⟩ := parse_whole_eq_ok_iff.mp h
    obtain ⟨_, _, _, _, _, hunspaced⟩ := (Derivation.reads_nested _ _).derives hu
    rw [hunspaced.skipBlanks_eq] at hskip
    rwa [hskip] at hu
  · intro h
    exact ⟨[], parse_whole_eq_ok_iff.mpr ⟨[], h, rfl, rfl⟩⟩

/-- **A text is read as an expression just if it derives that expression**, and it derives no other
one, with any number of levels. -/
theorem parseExpression_exact (limit : NestingLimit) (text : String) :
    (∀ e, parseExpression limit text = .ok e ↔ Derives limit.levels text.toList e) ∧
      ∀ m n e e', Derives m text.toList e → Derives n text.toList e' → e = e' :=
  ⟨fun _ => parseExpression_eq_ok_iff, fun _ _ _ _ h h' => h.unique h'⟩

/-- Blanks may stand anywhere between tokens, even behind `$`. -/
theorem parseExpression_exact_blanks :
    Derives 2 "(a+1)* $ FF".toList
      (.binary .mul (.binary .add (.reference (.named "a")) (.number 1 .none))
        (.number 0xff .oneByte)) :=
  ((parseExpression_exact { levels := 2 } "(a+1)* $ FF").1 _).mp
    (eq_ok_of_toOption (by decide +kernel))

end Asm65816
