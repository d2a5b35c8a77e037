import Mathlib.Data.Nat.Digits.Defs
import Mathlib.Order.Bounds.Basic
import Asm65816.Proofs.Grammar.Token
import Asm65816.Proofs.Reading
import Asm65816.Proofs.Session
import Asm65816.Proofs.Text.Numeral

/-!
# What a run of digits stands for

The digits of a literal are taken as far as they go, and count by their places. The value is worked
out from the left, digit by digit, and never falls on the way, so that the first part of the run
whose value is too great ends at the digit where this is reported. Zeros in front change nothing.
-/

namespace Asm65816

namespace Radix

/-- The characters that are digits. Letters are digits in either case. -/
def characters : Radix → List Char
  | decimal => "0123456789".toList
  | hexadecimal => "0123456789abcdefABCDEF".toList

/-- What a digit counts for in the last place. -/
def digitValue (r : Radix) (c : Char) : Nat := (r.digit? c).getD 0

/-- The value of a run of digits by their places. -/
def positional (r : Radix) (run : List Char) : Nat :=
  Nat.ofDigits r.base (run.map r.digitValue).reverse

/-- Only characters of ASCII are digits. -/
theorem isDigit_iff {r : Radix} {c : Char} : r.isDigit c = true ↔ c ∈ r.characters := by
  constructor
  · intro h
    have hmem := toUpper_mem_signs h
    rcases toUpper_eq_or c with he | ⟨_, hlt, _⟩
    · rw [he] at hmem
      have hsigns : ∀ d ∈ r.signs, d ∈ r.characters := by
        cases r <;> exact forall_mem_of_all (by decide)
      exact hsigns c hmem
    · -- a small letter is one of a few characters
      have hlower : ∀ r : Radix, ∀ n < 123,
          (Char.ofNat n).toUpper ∈ r.signs → Char.ofNat n ∈ r.characters := by
        intro r
        cases r <;> decide
      have := hlower r c.toNat (by omega)
      rw [Char.ofNat_toNat] at this
      exact this hmem
  · intro h
    have hcharacters : ∀ d ∈ r.characters, r.isDigit d = true := by
      cases r <;> exact forall_mem_of_all (by decide)
    exact hcharacters c h

/-- Reading from the left gives the value by places. -/
theorem valueOf_eq_positional (r : Radix) (run : List Char) :
    r.valueOf run = r.positional run := by
  rw [positional, ← Text.foldl_eq_ofDigits, List.foldl_map]
  rfl

/-- More digits never make a value smaller. -/
theorem positional_le_append (r : Radix) (run others : List Char) :
    r.positional run ≤ r.positional (run ++ others) := by
  rw [← valueOf_eq_positional, ← valueOf_eq_positional, valueOf, valueOf, List.foldl_append]
  exact r.le_foldl_extend _ others

/-- Zeros in front change nothing. -/
theorem positional_zeros_append (r : Radix) (zeros : Nat) (run : List Char) :
    r.positional (List.replicate zeros '0' ++ run) = r.positional run := by
  have hzero : r.digitValue '0' = 0 := by cases r <;> decide
  rw [positional, List.map_append, List.map_replicate, hzero, List.reverse_append,
    List.reverse_replicate, Nat.ofDigits_append_replicate_zero, positional]

/-- Reading fails at the end of the shortest part of a run whose value is over the bound. -/
theorem isLeast_of_read {r : Radix} {bound : Nat} {run late : List Char}
    (h : r.read bound run = .error late) :
    ∃ early c others, run = early ++ c :: others ∧ late = c :: others ∧
      IsLeast {k | bound < r.positional (run.take k)} (early.length + 1) := by
  obtain ⟨early, c, others, rfl, rfl, hle, hlt⟩ := exists_of_readFrom (Nat.zero_le bound) h
  refine ⟨early, c, others, rfl, rfl, ?_, fun k hk => ?_⟩
  · have htake : (early ++ c :: others).take (early.length + 1) = early ++ [c] := by
      rw [List.take_length_add_append, List.take_succ_cons, List.take_zero]
    show bound < r.positional _
    rw [htake, ← valueOf_eq_positional]
    exact hlt
  · by_contra hnot
    -- a shorter part lies in front of the digit
    have htake : (early ++ c :: others).take k = early.take k :=
      List.take_append_of_le_length (by omega)
    have hpart := r.positional_le_append (early.take k) (early.drop k)
    rw [List.take_append_drop, ← valueOf_eq_positional r early] at hpart
    have hk : bound < r.positional ((early ++ c :: others).take k) := hk
    rw [htake] at hk
    exact absurd (Nat.le_trans hpart hle) (Nat.not_le_of_lt hk)

end Radix

namespace Rule

variable {radix : Radix} {run behind : List Char}

/-- A text that begins with a digit is a run of digits and what stands behind it. -/
theorem exists_run_append {s : List Char} (h : ∃ c ∈ s.head?, c ∈ radix.characters) :
    ∃ run behind, s = run ++ behind ∧ run ≠ [] ∧ (∀ c ∈ run, c ∈ radix.characters) ∧
      (∀ c ∈ behind.head?, c ∉ radix.characters) := by
  obtain ⟨c, hc, hdigit⟩ := h
  obtain ⟨t, rfl⟩ := List.head?_eq_some_iff.mp hc
  refine ⟨(c :: t).takeWhile radix.isDigit, (c :: t).dropWhile radix.isDigit,
    List.takeWhile_append_dropWhile.symm, ?_, ?_, ?_⟩
  · rw [List.takeWhile_cons_of_pos (Radix.isDigit_iff.mpr hdigit)]
    exact List.cons_ne_nil _ _
  · exact fun d hd => Radix.isDigit_iff.mp (List.all_eq_true.mp List.all_takeWhile d hd)
  · intro d hd
    rw [← Radix.isDigit_iff, Bool.not_eq_true]
    have := List.head?_dropWhile_not radix.isDigit (c :: t)
    rw [hd] at this
    exact this

/-- The digits are taken as far as they go. -/
theorem run_digits (what : String) (lead : List Char) (hne : run ≠ [])
    (hrun : ∀ c ∈ run, c ∈ radix.characters)
    (hbehind : ∀ c ∈ behind.head?, c ∉ radix.characters) :
    (digits radix what lead).run (run ++ behind) =
      match radix.read maxNumber run with
      | .ok value =>
        { result := .ok (run, value), rest := Text.skipBlanks behind, trace := [] }
      | .error late =>
        { result := .error ⟨.overflow (String.ofList (lead ++ run)), late ++ behind⟩
          rest := behind
          trace := [] } := by
  have hall : ∀ c ∈ run, radix.isDigit c = true := fun c hc => Radix.isDigit_iff.mpr (hrun c hc)
  have hstop : behind.takeWhile radix.isDigit = [] ∧ behind.dropWhile radix.isDigit = behind := by
    cases behind with
    | nil => exact ⟨rfl, rfl⟩
    | cons c t =>
      have hc : ¬radix.isDigit c = true := mt Radix.isDigit_iff.mp (hbehind c rfl)
      exact ⟨List.takeWhile_cons_of_neg hc, List.dropWhile_cons_of_neg hc⟩
  have htake : (run ++ behind).takeWhile radix.isDigit = run := by
    rw [List.takeWhile_append_of_pos hall, hstop.1, List.append_nil]
  have hdrop : (run ++ behind).dropWhile radix.isDigit = behind := by
    rw [List.dropWhile_append_of_pos hall, hstop.2]
  cases hread : radix.read maxNumber run with
  | ok value => simp only [digits, htake, hdrop, if_neg hne, hread]
  | error late => simp only [digits, htake, hdrop, if_neg hne, hread]

end Rule

open Rule

namespace Session

/-- **A run of digits has the value of its places, or is too great.** The whole run is taken. If its
value does not fit, this is reported at the digit which takes it over the greatest value. -/
theorem step_digits (s : Session) (radix : Radix) (what : String) (lead : List Char)
    (h : ∃ c ∈ s.rest.head?, c ∈ radix.characters) :
    ∃ run behind, s.rest = run ++ behind ∧ run ≠ [] ∧ (∀ c ∈ run, c ∈ radix.characters) ∧
      (∀ c ∈ behind.head?, c ∉ radix.characters) ∧
      (radix.positional run ≤ maxNumber →
        (s.step (Rule.digits radix what lead)).1 = .ok (run, radix.positional run) ∧
          (s.step (Rule.digits radix what lead)).2.rest = Text.skipBlanks behind) ∧
      (maxNumber < radix.positional run →
        (∃ k, IsLeast {k | maxNumber < radix.positional (run.take k)} k ∧
          (s.step (Rule.digits radix what lead)).1 = .error
            { diagnosis := .overflow (String.ofList (lead ++ run))
              position := some (s.position + k - 1)
              source := some (String.ofList s.source) }) ∧
          (s.step (Rule.digits radix what lead)).2.rest = behind) ∧
      ∀ zeros others, run = List.replicate zeros '0' ++ others →
        radix.positional run = radix.positional others := by
  obtain ⟨run, behind, hrest, hne, hrun, hbehind⟩ := exists_run_append h
  have hstep := run_digits what lead hne hrun hbehind
  rw [← hrest] at hstep
  refine ⟨run, behind, hrest, hne, hrun, hbehind, fun hle => ?_, fun hlt => ?_, ?_⟩
  · have hread : radix.read maxNumber run = .ok (radix.positional run) :=
      Radix.read_eq_ok_iff.mpr ⟨(radix.valueOf_eq_positional run).symm, hle⟩
    rw [hread] at hstep
    exact step_of_run hstep
  · cases hread : radix.read maxNumber run with
    | ok value =>
      obtain ⟨rfl, hle⟩ := Radix.read_eq_ok_iff.mp hread
      rw [Radix.valueOf_eq_positional] at hle
      exact absurd hle (Nat.not_le_of_lt hlt)
    | error late =>
      obtain ⟨early, c, others, rfl, rfl, hleast⟩ := Radix.isLeast_of_read hread
      have hsuffix : c :: others ++ behind <:+ s.rest := by
        rw [hrest, List.append_assoc]
        exact List.suffix_append early _
      have hposition := s.position_of_suffix hsuffix
      rw [hread] at hstep
      obtain ⟨hresult, hplace⟩ := step_of_run hstep
      refine ⟨⟨early.length + 1, hleast, ?_⟩, hplace⟩
      rw [hresult, Except.mapError, Failure.report, String.length_ofList, hposition, hrest,
        List.append_assoc, List.length_append, Nat.add_sub_cancel]
      rfl
  · rintro zeros others rfl
    exact radix.positional_zeros_append zeros others

/-- The zero in front does not count, and the ninth of the digits behind it is one too many. -/
theorem step_digits_tenthDigit :
    let s := ((start "$0FFFFFFFF0)").step (expect ['$'] "'$'")).2
    let run := "0FFFFFFFF0".toList
    IsLeast {k | maxNumber < Radix.hexadecimal.positional (run.take k)} 10 ∧
      (s.step (Rule.digits .hexadecimal "digit" ['$'])).1 = .error
        { diagnosis := .overflow "$0FFFFFFFF0"
          position := some 10
          source := some "$0FFFFFFFF0)" } := by
  intro s run
  have hread : (s.step (Rule.digits .hexadecimal "digit" ['$'])).1 = .error
      { diagnosis := .overflow "$0FFFFFFFF0"
        position := some 10
        source := some "$0FFFFFFFF0)" } := eq_error_of_error? (by decide +kernel)
  obtain ⟨run', _, _, _, _, _, hfits, hover, _⟩ :=
    step_digits s .hexadecimal "digit" ['$'] ⟨'0', by decide +kernel, by decide⟩
  rcases Nat.lt_or_ge maxNumber (Radix.hexadecimal.positional run') with hlt | hle
  · obtain ⟨⟨k, hleast, hreport⟩, _⟩ := hover hlt
    -- the run and the place are those of the actual report
    have hsame := hreport.symm.trans hread
    simp only [Except.error.injEq, Report.mk.injEq, Diagnosis.overflow.injEq,
      Option.some.injEq] at hsame
    obtain ⟨hliteral, hk, -⟩ := hsame
    have hrun : run' = run := by
      have := congrArg String.toList hliteral
      rw [String.toList_ofList] at this
      exact (List.cons.inj this).2
    have hposition : s.position = 1 := by decide +kernel
    obtain rfl : k = 10 := by omega
    exact ⟨hrun ▸ hleast, hread⟩
  · have hok := (hfits hle).1
    rw [hread] at hok
    cases hok

end Session

end Asm65816
