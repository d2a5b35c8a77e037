import Mathlib.Data.Nat.Digits.Defs
import Asm65816.Text.Numeral

/-!
# Numerals as they are written

A numeral has white space around it, perhaps a sign, and digits in groups with single underscores
between them. Such a text reads as the value of its digits by their places, and no other text reads
as a number: the white space is trimmed and the sign is taken off without touching a digit, because
no digit is white space or a sign.
-/

namespace Asm65816.Text

/-- To read digits from the left is to count them by their places. -/
theorem foldl_eq_ofDigits (base : Nat) (ds : List Nat) :
    ds.foldl (fun n d => n * base + d) 0 = Nat.ofDigits base ds.reverse := by
  rw [Nat.ofDigits_eq_foldr, List.foldr_reverse]
  congr 1
  funext n d
  rw [Nat.cast_id, Nat.add_comm, Nat.mul_comm]

/-- A decimal digit is no white space. -/
theorem isSpace_of_decimalDigit? {c : Char} {d : Nat} (h : decimalDigit? c = some d) :
    isSpace c = false := by
  obtain ⟨run, hrun, _⟩ := Option.map_eq_some_iff.mp h
  have hmem := List.mem_of_find?_eq_some hrun
  have hc := List.find?_some hrun
  have hapart : ∀ run ∈ decimalDigitRanges, ∀ space ∈ spaceRanges,
      run.last < space.first ∨ space.last < run.first := by decide +kernel
  rw [Bool.eq_false_iff]
  intro hspace
  obtain ⟨space, hspaces, hin⟩ := List.any_eq_true.mp hspace
  simp only [CharRange.contains, Bool.and_eq_true, decide_eq_true_eq] at hc hin
  have := hapart run hmem space hspaces
  omega

/-! ## Trimming -/

/-- White space around a text that neither begins nor ends with any is trimmed. -/
theorem trim_append {front core back : List Char} (hfront : ∀ c ∈ front, isSpace c = true)
    (hback : ∀ c ∈ back, isSpace c = true) (hhead : ∀ c ∈ core.head?, isSpace c = false)
    (hlast : ∀ c ∈ core.getLast?, isSpace c = false) (hne : core ≠ []) :
    trim (front ++ core ++ back) = core := by
  have hdrop : (front ++ core ++ back).dropWhile isSpace = core ++ back := by
    obtain ⟨c, t, rfl⟩ := List.exists_cons_of_ne_nil hne
    rw [List.append_assoc, List.dropWhile_append_of_pos hfront, List.cons_append,
      List.dropWhile_cons_of_neg (by simp [hhead c rfl])]
  have hdropBack : (back.reverse ++ core.reverse).dropWhile isSpace = core.reverse := by
    rw [List.dropWhile_append_of_pos fun c hc => hback c (List.mem_reverse.mp hc)]
    obtain ⟨c, t, hct⟩ := List.exists_cons_of_ne_nil (List.reverse_ne_nil_iff.mpr hne)
    have hc : c ∈ core.getLast? := by
      rw [← List.head?_reverse, hct]
      rfl
    rw [hct, List.dropWhile_cons_of_neg (by simp [hlast c hc])]
  rw [trim, hdrop, List.reverse_append, hdropBack, List.reverse_reverse]

/-- What is trimmed is white space. -/
theorem exists_trim_append (s : List Char) : ∃ front back, s = front ++ trim s ++ back ∧
    (∀ c ∈ front, isSpace c = true) ∧ ∀ c ∈ back, isSpace c = true := by
  refine ⟨s.takeWhile isSpace, ((s.dropWhile isSpace).reverse.takeWhile isSpace).reverse,
    ?_, ?_, ?_⟩
  · rw [trim, List.append_assoc, ← List.reverse_append, List.takeWhile_append_dropWhile,
      List.reverse_reverse, List.takeWhile_append_dropWhile]
  · exact fun c hc => List.all_eq_true.mp List.all_takeWhile c hc
  · exact fun c hc => List.all_eq_true.mp List.all_takeWhile c (List.mem_reverse.mp hc)

namespace Numeral

/-! ## Digits in groups -/

/-- A decimal digit of any script. -/
def IsDigit (c : Char) : Prop := (decimalDigit? c).isSome = true

/-- What a decimal digit counts for in the last place. -/
def digitValue (c : Char) : Nat := (decimalDigit? c).getD 0

theorem IsDigit.eq_some {c : Char} (h : IsDigit c) : decimalDigit? c = some (digitValue c) := by
  obtain ⟨d, hd⟩ := Option.isSome_iff_exists.mp h
  rw [digitValue, hd, Option.getD_some]

/-- A character that counts for nothing is no digit. -/
theorem IsDigit.ne {c d : Char} (h : IsDigit c) (hd : decimalDigit? d = none) : c ≠ d := by
  rintro rfl
  rw [IsDigit, hd] at h
  cases h

theorem IsDigit.ne_underscore {c : Char} (h : IsDigit c) : c ≠ '_' := h.ne (by decide +kernel)

/-- A group of digits has one at least. -/
structure IsGroup (g : List Char) : Prop where
  /-- There is a digit. -/
  ne_nil : g ≠ []
  /-- There is nothing else. -/
  all_digits : ∀ c ∈ g, IsDigit c

theorem isGroup_singleton {c : Char} (hc : IsDigit c) : IsGroup [c] where
  ne_nil := List.cons_ne_nil _ _
  all_digits := List.forall_mem_singleton.mpr hc

theorem IsGroup.cons {c : Char} {g : List Char} (hc : IsDigit c) (hg : IsGroup g) :
    IsGroup (c :: g) where
  ne_nil := List.cons_ne_nil _ _
  all_digits := List.forall_mem_cons.mpr ⟨hc, hg.all_digits⟩

/-- The values of the digits in groups, in order. -/
def digitValues (groups : List (List Char)) : List Nat := groups.flatten.map digitValue

section

variable {c d : Char} {s : List Char}

theorem digits?_singleton (hc : IsDigit c) : digits? [c] = some [digitValue c] := by
  rw [digits?, hc.eq_some]
  rfl

/-- An underscore separates two digits. -/
theorem digits?_underscore (hc : IsDigit c) :
    digits? (c :: '_' :: s) = (digits? s).map (digitValue c :: ·) := by
  rw [digits?, hc.eq_some]
  simp only [Option.bind_eq_bind, Option.bind_some]
  cases digits? s <;> rfl

theorem digits?_cons (hc : IsDigit c) (hd : d ≠ '_') :
    digits? (c :: d :: s) = (digits? (d :: s)).map (digitValue c :: ·) := by
  rw [digits?, hc.eq_some]
  simp only [Option.bind_eq_bind, Option.bind_some]
  split
  · contradiction
  · rename_i heq
    exact absurd (List.cons.inj heq).1 hd
  · cases digits? (d :: s) <;> rfl

/-- A numeral begins with a digit. -/
theorem isDigit_of_digits? {ds : List Nat} (h : digits? (c :: s) = some ds) : IsDigit c := by
  rw [digits?] at h
  obtain ⟨d, hd, _⟩ := Option.bind_eq_some_iff.mp h
  rw [IsDigit, hd]
  rfl

/-- Digits in front of a digit. -/
theorem digits?_append {g : List Char} (hg : ∀ c ∈ g, IsDigit c) (hd : IsDigit d) :
    digits? (g ++ d :: s) = (digits? (d :: s)).map (g.map digitValue ++ ·) := by
  induction g with
  | nil => exact Option.map_id'.symm
  | cons c g ih =>
    obtain ⟨hc, hg⟩ := List.forall_mem_cons.mp hg
    obtain ⟨e, t, het, he⟩ : ∃ e t, g ++ d :: s = e :: t ∧ IsDigit e := by
      cases g with
      | nil => exact ⟨d, s, rfl, hd⟩
      | cons e g => exact ⟨e, g ++ d :: s, rfl, hg e List.mem_cons_self⟩
    have ih := ih hg
    rw [het] at ih
    rw [List.cons_append, het, digits?_cons hc he.ne_underscore, ih, Option.map_map]
    rfl

end

/-- A group is ended by a digit. -/
theorem IsGroup.exists_concat {g : List Char} (hg : IsGroup g) :
    ∃ front d, g = front ++ [d] ∧ (∀ c ∈ front, IsDigit c) ∧ IsDigit d := by
  rcases List.eq_nil_or_concat g with rfl | ⟨front, d, rfl⟩
  · exact absurd rfl hg.ne_nil
  · have hall := hg.all_digits
    rw [List.concat_eq_append] at hall ⊢
    exact ⟨front, d, rfl, fun c hc => hall c (List.mem_append_left _ hc),
      hall d (List.mem_append_right _ List.mem_cons_self)⟩

/-- The digits of one group. -/
theorem digits?_group {g : List Char} (hg : IsGroup g) : digits? g = some (g.map digitValue) := by
  obtain ⟨front, d, rfl, hfront, hd⟩ := hg.exists_concat
  rw [digits?_append hfront hd, digits?_singleton hd, List.map_append]
  rfl

/-- The digits of a group in front of others. -/
theorem digits?_group_append {g s : List Char} (hg : IsGroup g) :
    digits? (g ++ '_' :: s) = (digits? s).map (g.map digitValue ++ ·) := by
  obtain ⟨front, d, rfl, hfront, hd⟩ := hg.exists_concat
  rw [List.append_assoc, List.singleton_append, digits?_append hfront hd, digits?_underscore hd,
    Option.map_map, List.map_append]
  congr 1
  funext ds
  rw [List.append_assoc]
  rfl

/-- The digits of groups with underscores between them. -/
theorem digits?_intercalate {groups : List (List Char)} (hne : groups ≠ [])
    (h : ∀ g ∈ groups, IsGroup g) :
    digits? (List.intercalate ['_'] groups) = some (digitValues groups) := by
  induction groups with
  | nil => contradiction
  | cons g groups ih =>
    have hg := h g List.mem_cons_self
    have hgroups : ∀ g ∈ groups, IsGroup g := fun g hg => h g (List.mem_cons_of_mem _ hg)
    cases groups with
    | nil =>
      rw [List.intercalate_singleton, digits?_group hg, digitValues, List.flatten_singleton]
    | cons g' groups =>
      rw [List.intercalate_cons_cons, List.append_assoc, List.singleton_append,
        digits?_group_append hg, ih (List.cons_ne_nil _ _) hgroups, Option.map_some, digitValues,
        digitValues, List.flatten_cons (l := g), List.map_append]

/-- Nothing but groups with underscores between them has digits. -/
theorem exists_groups_of_digits? : ∀ {s : List Char} {ds : List Nat}, digits? s = some ds →
    ∃ groups, groups ≠ [] ∧ (∀ g ∈ groups, IsGroup g) ∧ List.intercalate ['_'] groups = s
  | [], _, h => by cases h
  | [c], _, h =>
    ⟨[[c]], List.cons_ne_nil _ _,
      List.forall_mem_singleton.mpr (isGroup_singleton (isDigit_of_digits? h)),
      List.intercalate_singleton⟩
  | c :: d :: s, _, h => by
    have hc := isDigit_of_digits? h
    by_cases hd : d = '_'
    · subst hd
      rw [digits?_underscore hc] at h
      obtain ⟨ds, hds, _⟩ := Option.map_eq_some_iff.mp h
      obtain ⟨groups, hne, hgroups, rfl⟩ := exists_groups_of_digits? hds
      obtain ⟨g, others, rfl⟩ := List.exists_cons_of_ne_nil hne
      exact ⟨[c] :: g :: others, List.cons_ne_nil _ _,
        List.forall_mem_cons.mpr ⟨isGroup_singleton hc, hgroups⟩, List.intercalate_cons_cons⟩
    · rw [digits?_cons hc hd] at h
      obtain ⟨ds, hds, _⟩ := Option.map_eq_some_iff.mp h
      obtain ⟨groups, hne, hgroups, hs⟩ := exists_groups_of_digits? hds
      obtain ⟨g, others, rfl⟩ := List.exists_cons_of_ne_nil hne
      obtain ⟨hg, hothers⟩ := List.forall_mem_cons.mp hgroups
      refine ⟨(c :: g) :: others, List.cons_ne_nil _ _,
        List.forall_mem_cons.mpr ⟨hg.cons hc, hothers⟩, ?_⟩
      rw [← hs]
      cases others with
      | nil => rw [List.intercalate_singleton, List.intercalate_singleton]
      | cons g' others =>
        rw [List.intercalate_cons_cons, List.intercalate_cons_cons, List.cons_append,
          List.cons_append]

/-- An unsigned numeral as it is written. -/
structure Unsigned where
  /-- The digits, in groups. -/
  groups : List (List Char)
  /-- There is a group. -/
  ne_nil : groups ≠ []
  /-- The groups are of digits. -/
  isGroup : ∀ g ∈ groups, IsGroup g
  /-- There are not too many digits. -/
  length_le : groups.flatten.length ≤ maxDigits

namespace Unsigned

/-- The characters, with underscores between the groups. -/
def chars (u : Unsigned) : List Char := List.intercalate ['_'] u.groups

/-- The value of the digits by their places. -/
def value (u : Unsigned) : Nat := Nat.ofDigits 10 (digitValues u.groups).reverse

end Unsigned

/-- An unsigned numeral is read as what is written. -/
theorem toNat?_eq_some_iff {s : List Char} {n : Nat} :
    toNat? s = some n ↔ ∃ u : Unsigned, u.chars = s ∧ u.value = n := by
  constructor
  · intro h
    obtain ⟨ds, hds, h⟩ := Option.bind_eq_some_iff.mp h
    obtain ⟨hlen, h⟩ := Option.ite_none_right_eq_some.mp h
    obtain ⟨groups, hne, hgroups, rfl⟩ := exists_groups_of_digits? hds
    rw [digits?_intercalate hne hgroups] at hds
    cases hds
    rw [digitValues, List.length_map] at hlen
    refine ⟨⟨groups, hne, hgroups, hlen⟩, rfl, ?_⟩
    rw [Unsigned.value, ← foldl_eq_ofDigits]
    exact Option.some.inj h
  · rintro ⟨u, rfl, rfl⟩
    have hlen : (digitValues u.groups).length ≤ maxDigits := by
      rw [digitValues, List.length_map]
      exact u.length_le
    rw [toNat?, Unsigned.chars, digits?_intercalate u.ne_nil u.isGroup]
    simp only [Option.bind_eq_bind, Option.bind_some, if_pos hlen, foldl_eq_ofDigits]
    rfl

/-- What may stand in front of the digits. -/
inductive Sign where
  | absent
  | plus
  | minus

namespace Sign

/-- The characters of a sign. -/
def chars : Sign → List Char
  | absent => []
  | plus => ['+']
  | minus => ['-']

/-- What a sign makes of a value. -/
def apply : Sign → Nat → Int
  | absent | plus => Int.ofNat
  | minus => fun n => -Int.ofNat n

end Sign

/-- A numeral as it is written, with white space around it. -/
structure Written where
  /-- The white space in front. -/
  front : List Char
  /-- The sign. -/
  sign : Sign
  /-- The digits. -/
  unsigned : Unsigned
  /-- The white space behind. -/
  back : List Char
  /-- There is nothing else in front. -/
  isSpace_front : ∀ c ∈ front, isSpace c = true
  /-- There is nothing else behind. -/
  isSpace_back : ∀ c ∈ back, isSpace c = true

namespace Written

/-- The characters of a numeral. -/
def chars (w : Written) : List Char := w.front ++ (w.sign.chars ++ w.unsigned.chars) ++ w.back

/-- The value of a numeral. -/
def value (w : Written) : Int := w.sign.apply w.unsigned.value

end Written

/-- A character between the first digit and the last is a digit or an underscore. -/
theorem isDigit_or_of_mem_intercalate {groups : List (List Char)} (h : ∀ g ∈ groups, IsGroup g)
    {c : Char} (hc : c ∈ List.intercalate ['_'] groups) : IsDigit c ∨ c = '_' := by
  induction groups with
  | nil => cases hc
  | cons g groups ih =>
    obtain ⟨hg, hgroups⟩ := List.forall_mem_cons.mp h
    cases groups with
    | nil =>
      rw [List.intercalate_singleton] at hc
      exact .inl (hg.all_digits c hc)
    | cons g' groups =>
      rw [List.intercalate_cons_cons, List.mem_append, List.mem_append, List.mem_singleton] at hc
      rcases hc with (hc | hc) | hc
      · exact .inl (hg.all_digits c hc)
      · exact .inr hc
      · exact ih hgroups hc

/-- An unsigned numeral begins with a digit. -/
theorem Unsigned.exists_cons (u : Unsigned) : ∃ c s, u.chars = c :: s ∧ IsDigit c := by
  have h := digits?_intercalate u.ne_nil u.isGroup
  rw [← Unsigned.chars] at h
  cases hs : u.chars with
  | nil =>
    rw [hs] at h
    cases h
  | cons c s =>
    rw [hs] at h
    exact ⟨c, s, rfl, isDigit_of_digits? h⟩

/-- There is no white space between the sign and the last digit. -/
theorem isSpace_of_mem_sign_append (sign : Sign) (u : Unsigned) :
    ∀ c ∈ sign.chars ++ u.chars, isSpace c = false := by
  have hsign : ∀ c ∈ sign.chars, isSpace c = false := by
    cases sign with
    | absent => exact nofun
    | plus => exact List.forall_mem_singleton.mpr (by decide +kernel)
    | minus => exact List.forall_mem_singleton.mpr (by decide +kernel)
  intro c hc
  rcases List.mem_append.mp hc with hc | hc
  · exact hsign c hc
  · rcases isDigit_or_of_mem_intercalate u.isGroup hc with hdigit | rfl
    · exact isSpace_of_decimalDigit? hdigit.eq_some
    · decide +kernel

/-- A text reads as a number just if it is one that is written so. -/
theorem toInt?_eq_some_iff {text : String} {n : Int} :
    toInt? text = some n ↔ ∃ w : Written, w.chars = text.toList ∧ w.value = n := by
  constructor
  · intro h
    obtain ⟨front, back, htext, hfront, hback⟩ := exists_trim_append text.toList
    have hwritten : ∀ (sign : Sign) (s : List Char), trim text.toList = sign.chars ++ s →
        (toNat? s).map sign.apply = some n →
        ∃ w : Written, w.chars = text.toList ∧ w.value = n := by
      intro sign s htrim h
      obtain ⟨m, hm, rfl⟩ := Option.map_eq_some_iff.mp h
      obtain ⟨u, rfl, rfl⟩ := toNat?_eq_some_iff.mp hm
      refine ⟨⟨front, sign, u, back, hfront, hback⟩, ?_, rfl⟩
      rw [Written.chars, ← htrim]
      exact htext.symm
    unfold toInt? at h
    split at h
    · rename_i s htrim
      exact hwritten .plus s htrim h
    · rename_i s htrim
      exact hwritten .minus s htrim h
    · rename_i s _ _
      exact hwritten .absent _ rfl h
  · rintro ⟨w, hchars, rfl⟩
    have hall := isSpace_of_mem_sign_append w.sign w.unsigned
    obtain ⟨c, s, hs, hc⟩ := w.unsigned.exists_cons
    have htrim : trim text.toList = w.sign.chars ++ w.unsigned.chars := by
      rw [← hchars, Written.chars]
      refine trim_append w.isSpace_front w.isSpace_back
        (fun d hd => hall d (List.mem_of_mem_head? hd))
        (fun d hd => hall d (List.mem_of_mem_getLast? hd)) ?_
      rw [hs]
      exact List.append_ne_nil_of_right_ne_nil _ (List.cons_ne_nil c s)
    have hread : toNat? w.unsigned.chars = some w.unsigned.value :=
      toNat?_eq_some_iff.mpr ⟨w.unsigned, rfl, rfl⟩
    rw [toInt?, htrim, Written.value]
    cases w.sign with
    | absent =>
      have hplus : c ≠ '+' := hc.ne (by decide +kernel)
      have hminus : c ≠ '-' := hc.ne (by decide +kernel)
      rw [hs] at hread
      simp only [Sign.chars, List.nil_append, hs]
      split
      · rename_i heq
        exact absurd (List.cons.inj heq).1 hplus
      · rename_i heq
        exact absurd (List.cons.inj heq).1 hminus
      · rw [hread]
        rfl
    | plus =>
      show (toNat? w.unsigned.chars).map _ = _
      rw [hread]
      rfl
    | minus =>
      show (toNat? w.unsigned.chars).map _ = _
      rw [hread]
      rfl

end Numeral

end Asm65816.Text
