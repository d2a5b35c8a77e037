import Asm65816.Proofs.Statement.Completeness
import Asm65816.Statement.Printer

/-!
# What is written of an operand

The text of a readable operand is derived as that operand, without blanks inside. So it is read as
that operand, and nothing that stands behind it, where a statement may end.
-/

namespace Asm65816

open Rule Asm65816.Derivation

/-- The text of a readable expression is derived, with blanks behind it. -/
theorem Expression.Readable.exists_spaced {n : Nat} {e : Expression} (h : e.Readable n)
    (w : Blanks) :
    ∃ d : Spaced, d.text = e.chars ++ w.chars ∧ d.after = w ∧ d.tree = e ∧ d.levels ≤ n ∧ d.Fits ∧
      ¬d.IsGroup := by
  obtain ⟨d, hs, hafter, he, hlevels, hfits, hgroup⟩ := h.canonical.exists_spaced h.valid .none w
  have hlt := h.depth_lt
  exact ⟨d, by simpa [Blanks.none] using hs, hafter, he, by omega, hfits, hgroup⟩

namespace Operand

variable {n : Nat} {o : Operand}

/-- An operand is derived from its text, with blanks behind it, within a number of levels. -/
def Written (n : Nat) (o : Operand) (w : Blanks) : Prop :=
  ∃ d : Derivation.Operand, d.text = o.chars ++ w.chars ∧ d.after = w ∧ d.Says o ∧
    d.pieces.levels ≤ d.form.levelsInside n ∧ d.Fits

theorem written_of_pieces (form : OperandForm) (d : Pieces form.production) {w : Blanks}
    (hfirst : ∀ e, d.first? = some e → ¬e.IsGroup) (htext : d.text = o.chars ++ w.chars)
    (hafter : d.afterLast .none = w) (hmode : o.mode = form.mode)
    (hvalues : o.value :: o.second.toList = d.trees) (hlevels : d.levels ≤ form.levelsInside n)
    (hfits : d.Fits) : o.Written n w :=
  ⟨⟨form, d, hfirst⟩, htext, hafter, ⟨hmode, hvalues⟩, hlevels, hfits⟩

/-- **The text of a readable operand is derived as that operand**, whatever the mode. -/
theorem Readable.written (h : o.Readable n) (w : Blanks) : o.Written n w := by
  cases h with
  | @move value second hvalue hsecond =>
    obtain ⟨x, hx, _, rfl, hlevels, hfits, hgroup⟩ := hvalue.exists_spaced .none
    obtain ⟨y, hy, rfl, rfl, hlevels', hfits', _⟩ := hsecond.exists_spaced w
    refine written_of_pieces .move
      (.value x (.token ',' List.mem_cons_self .none (.value y .nil))) ?_ ?_ rfl rfl rfl ?_
      ⟨hfits, hfits', trivial⟩
    · rintro _ ⟨⟩
      exact hgroup
    · simp [Pieces.text, Operand.chars, hx, hy, Blanks.none]
    · exact Nat.max_le.mpr ⟨hlevels, Nat.max_le.mpr ⟨hlevels', Nat.zero_le n⟩⟩
  | @single form value hform hvalue =>
    obtain ⟨x, hx, _, rfl, hlevels, hfits, _⟩ := hvalue.exists_spaced .none
    have hmax : max x.levels 0 ≤ form.levelsInside n := Nat.max_le.mpr ⟨hlevels, Nat.zero_le _⟩
    cases form with
    | move => exact absurd rfl hform
    | indirectY =>
      refine written_of_pieces .indirectY
        (.token '(' List.mem_cons_self .none (.value x (.token ')' List.mem_cons_self .none
          (.token ',' List.mem_cons_self .none (.token 'y' List.mem_cons_self w .nil)))))
        Pieces.not_isGroup_of_token ?_ rfl rfl rfl hmax ⟨hfits, trivial⟩
      simp [Pieces.text, Operand.chars, OperandForm.mode, hx, Blanks.none]
    | indirect =>
      refine written_of_pieces .indirect
        (.token '(' List.mem_cons_self .none (.value x (.token ')' List.mem_cons_self w .nil)))
        Pieces.not_isGroup_of_token ?_ rfl rfl rfl hmax ⟨hfits, trivial⟩
      simp [Pieces.text, Operand.chars, OperandForm.mode, hx, Blanks.none]
    | xIndirect =>
      refine written_of_pieces .xIndirect
        (.token '(' List.mem_cons_self .none (.value x (.token ',' List.mem_cons_self .none
          (.token 'x' List.mem_cons_self .none (.token ')' List.mem_cons_self w .nil)))))
        Pieces.not_isGroup_of_token ?_ rfl rfl rfl hmax ⟨hfits, trivial⟩
      simp [Pieces.text, Operand.chars, OperandForm.mode, hx, Blanks.none]
    | address =>
      obtain ⟨y, hy, rfl, he, hlevels, hfits, hgroup⟩ := hvalue.exists_spaced w
      refine written_of_pieces .address (.value y .nil) ?_ ?_ rfl rfl
        (congrArg (fun e => [e]) he.symm) (Nat.max_le.mpr ⟨hlevels, Nat.zero_le n⟩) ⟨hfits, trivial⟩
      · rintro _ ⟨⟩
        exact hgroup
      · simp [Pieces.text, Operand.chars, OperandForm.mode, hy]
    | immediate =>
      obtain ⟨y, hy, rfl, he, hlevels, hfits, _⟩ := hvalue.exists_spaced w
      refine written_of_pieces .immediate
        (.token '#' List.mem_cons_self .none (.value y .nil))
        Pieces.not_isGroup_of_token ?_ rfl rfl (congrArg (fun e => [e]) he.symm)
        (Nat.max_le.mpr ⟨hlevels, Nat.zero_le n⟩) ⟨hfits, trivial⟩
      simp [Pieces.text, Operand.chars, OperandForm.mode, hy, Blanks.none]
    | longIndirectY =>
      refine written_of_pieces .longIndirectY
        (.token '[' List.mem_cons_self .none (.value x (.token ']' List.mem_cons_self .none
          (.token ',' List.mem_cons_self .none (.token 'y' List.mem_cons_self w .nil)))))
        Pieces.not_isGroup_of_token ?_ rfl rfl rfl hmax ⟨hfits, trivial⟩
      simp [Pieces.text, Operand.chars, OperandForm.mode, hx, Blanks.none]
    | longIndirect =>
      refine written_of_pieces .longIndirect
        (.token '[' List.mem_cons_self .none (.value x (.token ']' List.mem_cons_self w .nil)))
        Pieces.not_isGroup_of_token ?_ rfl rfl rfl hmax ⟨hfits, trivial⟩
      simp [Pieces.text, Operand.chars, OperandForm.mode, hx, Blanks.none]
    | stackIndirectY =>
      refine written_of_pieces .stackIndirectY
        (.token '(' List.mem_cons_self .none (.value x (.token ',' List.mem_cons_self .none
          (.token 's' List.mem_cons_self .none (.token ')' List.mem_cons_self .none
            (.token ',' List.mem_cons_self .none (.token 'y' List.mem_cons_self w .nil)))))))
        Pieces.not_isGroup_of_token ?_ rfl rfl rfl hmax ⟨hfits, trivial⟩
      simp [Pieces.text, Operand.chars, OperandForm.mode, hx, Blanks.none]

end Operand

end Asm65816
