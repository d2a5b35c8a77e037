import Asm65816.Proofs.Expression.Written
import Asm65816.Proofs.Grammar.Completeness

/-!
# The nesting of a written expression

The parentheses in the text of a canonical expression nest just as deep as the tree says. Those of a
name without arguments stand next to each other, and nowhere else does a closing parenthesis stand
right behind an opening one.
-/

namespace Asm65816.Expression

/-! ## Counting parentheses -/

theorem le_parenDepth (d : Nat) (s : List Char) : d ≤ parenDepth d s := by
  fun_induction parenDepth d s with
  | case1 => exact Nat.le_refl _
  | case2 _ _ ih => exact ih
  | case3 _ _ _ ih => omega
  | case4 _ _ ih => exact Nat.le_max_left _ _
  | case5 _ _ _ _ _ _ ih => exact ih

theorem parenDepth_open {s : List Char} (h : ∀ c ∈ s.head?, c ≠ ')') (d : Nat) :
    parenDepth d ('(' :: s) = parenDepth (d + 1) s := by
  cases s with
  | nil => rfl
  | cons c s =>
    rw [parenDepth]
    intro u hu
    cases hu
    exact h ')' rfl rfl

theorem parenDepth_close (d : Nat) (s : List Char) :
    parenDepth (d + 1) (')' :: s) = max (d + 1) (parenDepth d s) := by
  rw [parenDepth]
  rfl

/-- Characters other than parentheses do not count. -/
theorem parenDepth_append {x : List Char} (h : ∀ c ∈ x, c ≠ '(' ∧ c ≠ ')') (d : Nat)
    (s : List Char) : parenDepth d (x ++ s) = parenDepth d s := by
  induction x with
  | nil => rfl
  | cons c x ih =>
    obtain ⟨ho, hc⟩ := h c (by simp)
    rw [List.cons_append, parenDepth]
    · exact ih fun c hc => h c (List.mem_cons_of_mem _ hc)
    · exact fun _ hu _ => ho hu
    · exact ho
    · exact hc

/-! ## The parentheses of an expression -/

/-- A text that nests by so much on its own, and does not begin with a closing parenthesis. -/
structure Nests (x : List Char) (k : Nat) : Prop where
  /-- All parentheses are closed in the end. -/
  parenDepth_append : ∀ d s, parenDepth d (x ++ s) = max (d + k) (parenDepth d s)
  /-- It may stand behind an opening parenthesis. -/
  begins : ∃ c u, x = c :: u ∧ c ≠ ')'

theorem Nests.parenDepth_open {x : List Char} {k : Nat} (h : Nests x k) (d : Nat)
    (s : List Char) : parenDepth d ('(' :: (x ++ s)) = max (d + 1 + k) (parenDepth (d + 1) s) := by
  obtain ⟨c, u, rfl, hc⟩ := h.begins
  rw [Expression.parenDepth_open (by rw [List.cons_append, List.head?_cons]; rintro d ⟨⟩; exact hc),
    h.parenDepth_append]

theorem parenDepth_parenthesized {x : List Char} {k : Nat} (h : Nests x k) (needed : Bool)
    (d : Nat) (s : List Char) :
    parenDepth d (parenthesized needed x ++ s) = max (d + (k + needed.toNat)) (parenDepth d s) := by
  cases needed with
  | false => exact h.parenDepth_append d s
  | true =>
    have hle := le_parenDepth d s
    rw [parenthesized, if_pos rfl, List.cons_append, List.cons_append, List.append_assoc,
      h.parenDepth_open, List.singleton_append, parenDepth_close]
    simp only [Bool.toNat_true]
    omega

theorem parenDepth_moreChars {es : List Expression} (h : ∀ e ∈ es, Nests e.chars e.depth) (d : Nat)
    (s : List Char) :
    parenDepth d (moreChars es ++ s) = max (d + depthAll es) (parenDepth d s) := by
  induction es with
  | nil =>
    have hle := le_parenDepth d s
    show parenDepth d s = max (d + 0) (parenDepth d s)
    omega
  | cons e es ih =>
    have hrest := ih fun f hf => h f (List.mem_cons_of_mem e hf)
    have he := (h e (by simp)).parenDepth_append d (moreChars es ++ s)
    have hcomma : parenDepth d (moreChars (e :: es) ++ s) =
        parenDepth d (e.chars ++ (moreChars es ++ s)) := by
      rw [moreChars, List.flatMap_cons, List.append_assoc]
      exact parenDepth_append (x := [',', ' ']) (forall_mem_of_all (by decide)) d _
    rw [hcomma, he, hrest, depthAll]
    omega

theorem not_paren_of_word {word : Word} {c : Char} (h : c ∈ word.chars) : c ≠ '(' ∧ c ≠ ')' := by
  rcases List.mem_cons.mp h with rfl | h
  · constructor <;> intro hc <;> exact absurd (hc ▸ word.starts) (by decide)
  · constructor <;> intro hc <;> exact absurd (hc ▸ word.continues c h) (by decide)

theorem not_paren_of_mem_write {r : Radix} {width n : Nat} {c : Char} (h : c ∈ r.write width n) :
    c ≠ '(' ∧ c ≠ ')' := by
  have hd := Text.isIdentifierContinue_of_isDigit (r.isDigit_of_mem_write h)
  constructor <;> intro hc <;> exact absurd (hc ▸ hd) (by decide)

theorem not_paren_of_numberChars {value : Nat} {width : LiteralWidth} {c : Char}
    (h : c ∈ numberChars value width) : c ≠ '(' ∧ c ≠ ')' := by
  cases width with
  | none => exact not_paren_of_mem_write h
  | oneByte | twoBytes =>
    rcases List.mem_cons.mp h with rfl | h
    · decide
    · exact not_paren_of_mem_write h

theorem not_paren_of_symbol (o : Operator) : ∀ c ∈ o.symbol.toList, c ≠ '(' ∧ c ≠ ')' := by
  cases o <;> exact forall_mem_of_all (by decide)

theorem Canonical.begins {e : Expression} (h : e.Canonical) (hvalid : e.Valid) :
    ∃ c u, e.chars = c :: u ∧ c ≠ ')' := by
  obtain ⟨x, ⟨hx, _⟩, _⟩ := (h.written hvalid).sum
  obtain ⟨c, u, hu, hc⟩ := x.begins
  refine ⟨c, u, hx.symm.trans hu, ?_⟩
  rintro rfl
  exact absurd hc (by decide)

/-- **The text of a canonical expression nests as deep as its tree.** -/
theorem Canonical.nests {e : Expression} (h : e.Canonical) (hvalid : e.Valid) :
    Nests e.chars e.depth := by
  refine ⟨?_, h.begins hvalid⟩
  induction h with
  | number _ =>
    intro d s
    have hle := le_parenDepth d s
    rw [chars, parenDepth_append fun c hc => not_paren_of_numberChars hc, depth]
    omega
  | reference hname =>
    intro d s
    have hle := le_parenDepth d s
    obtain ⟨word, hchars, rfl⟩ := IsName.exists_word hname
    rw [chars, Label.chars, ← hchars, parenDepth_append fun c hc => not_paren_of_word hc, depth]
    omega
  | @binary o l r ho hl hr ihl ihr =>
    intro d s
    cases hvalid with
    | binary hvl hvr =>
      have hleft := parenDepth_parenthesized ⟨ihl hvl, hl.begins hvl⟩
        (l.joinedBy (· < o.precedence)) d
        (' ' :: o.symbol.toList ++
          ' ' :: (parenthesized (r.joinedBy (· ≤ o.precedence)) r.chars ++ s))
      have hright := parenDepth_parenthesized ⟨ihr hvr, hr.begins hvr⟩
        (r.joinedBy (· ≤ o.precedence)) d s
      -- between the operands nothing counts
      have hsign : ∀ u, parenDepth d (' ' :: o.symbol.toList ++ ' ' :: u) = parenDepth d u := by
        intro u
        have happend := parenDepth_append (x := ' ' :: o.symbol.toList ++ [' ']) (d := d) (s := u)
        simp only [List.cons_append, List.append_assoc, List.nil_append] at happend ⊢
        refine happend fun c hc => ?_
        rcases List.mem_cons.mp hc with rfl | hc
        · decide
        · rcases List.mem_append.mp hc with hc | hc
          · exact not_paren_of_symbol o c hc
          · rw [List.mem_singleton.mp hc]
            decide
      rw [hsign, hright] at hleft
      rw [chars, List.append_assoc, List.append_assoc]
      refine hleft.trans ?_
      rw [depth]
      omega
  | @call name es hname hes ih =>
    intro d s
    have hle := le_parenDepth d s
    obtain ⟨word, hchars, rfl⟩ := IsName.exists_word hname
    cases hvalid with
    | call _ hvalid =>
      cases es with
      | nil =>
        rw [chars, ← hchars, List.append_assoc, List.append_assoc,
          parenDepth_append fun c hc => not_paren_of_word hc]
        show parenDepth d s = max (d + 0) (parenDepth d s)
        omega
      | cons e es =>
        -- the first argument follows the parenthesis, the others follow commas
        have hnests : ∀ f ∈ e :: es, Nests f.chars f.depth :=
          fun f hf => ⟨ih f hf (hvalid f hf), (hes f hf).begins (hvalid f hf)⟩
        have hmore := parenDepth_moreChars
          (fun f hf => hnests f (List.mem_cons_of_mem e hf)) (d + 1) (')' :: s)
        have hopen := (hnests e (by simp)).parenDepth_open d (moreChars es ++ ')' :: s)
        rw [hmore, parenDepth_close] at hopen
        rw [chars, ← hchars, intercalate_charsAll, List.append_assoc, List.append_assoc,
          parenDepth_append fun c hc => not_paren_of_word hc]
        simp only [List.cons_append, List.append_assoc, List.nil_append]
        rw [hopen, depth]
        omega

/-- The nesting of the text is that of the tree. -/
theorem Canonical.nest_eq {e : Expression} (h : e.Canonical) (hvalid : e.Valid) :
    e.nest = e.depth + 1 := by
  have := (h.nests hvalid).parenDepth_append 0 []
  rw [List.append_nil, parenDepth] at this
  rw [nest, this]
  omega

end Asm65816.Expression
