import Mathlib.Algebra.Group.Nat.Defs
import Asm65816.Proofs.Grammar.Token

/-!
# Numbers as they are written

A number below a power of the base has no more digits than the exponent, and a run of digits stands
for a number below the power of its length. Hence a literal of two or four hexadecimal digits is
written with just so many.
-/

namespace Asm65816

theorem digits_ne_nil (base n : Nat) : digits base n ≠ [] := by
  rw [digits]
  split <;> simp

theorem length_digits_le {base n k : Nat} (h : n < base ^ (k + 1)) :
    (digits base n).length ≤ k + 1 := by
  induction k generalizing n with
  | zero =>
    rw [Nat.zero_add, Nat.pow_one] at h
    rw [digits, dif_neg (by omega)]
    exact Nat.le_refl 1
  | succ k ih =>
    rw [digits]
    split
    · have hdiv : n / base < base ^ (k + 1) := by
        rw [Nat.pow_succ] at h
        exact Nat.div_lt_of_lt_mul (by rwa [Nat.mul_comm])
      have := ih hdiv
      rw [List.length_append, List.length_singleton]
      omega
    · exact Nat.le_add_left 1 (k + 1)

namespace Radix

variable (r : Radix)

theorem base_pos : 0 < r.base := by cases r <;> decide

theorem isDigit_sign {d : Nat} (h : d < r.base) : r.isDigit (r.sign d) = true := by
  rw [isDigit, digit?_sign h]
  rfl

theorem write_ne_nil (width n : Nat) : r.write width n ≠ [] := by
  unfold write padDigits
  have := digits_ne_nil r.base n
  simp [this]

theorem isDigit_of_mem_write {width n : Nat} {c : Char} (h : c ∈ r.write width n) :
    r.isDigit c = true := by
  have hb : 2 ≤ r.base := by cases r <;> decide
  obtain ⟨d, hd, rfl⟩ := List.mem_map.mp h
  refine r.isDigit_sign ?_
  rcases List.mem_append.mp hd with hd | hd
  · rw [(List.mem_replicate.mp hd).2]
    exact r.base_pos
  · exact lt_of_mem_digits hb hd

theorem length_write {k n : Nat} (h : n < r.base ^ (k + 1)) :
    (r.write (k + 1) n).length = k + 1 := by
  have := length_digits_le h
  unfold write padDigits
  rw [List.length_map, List.length_append, List.length_replicate]
  omega

theorem digit?_getD_lt (c : Char) : (r.digit? c).getD 0 < r.base := by
  unfold digit?
  cases h : r.signs.idxOf? c.toUpper with
  | none => exact r.base_pos
  | some d => exact (List.findIdx?_eq_some_iff_getElem.mp h).1

theorem foldl_extend_lt (run : List Char) {v m : Nat} (h : v < m) :
    run.foldl r.extend v < m * r.base ^ run.length := by
  induction run generalizing v m with
  | nil => simpa using h
  | cons c run ih =>
    have hc := r.digit?_getD_lt c
    have hstep : r.extend v c < m * r.base := by
      -- a digit never makes up for a smaller value in front of it
      have : (v + 1) * r.base ≤ m * r.base := Nat.mul_le_mul_right r.base h
      rw [Nat.add_mul, Nat.one_mul] at this
      unfold extend
      omega
    have := ih hstep
    rwa [Nat.mul_assoc, ← Nat.pow_succ'] at this

theorem valueOf_lt (run : List Char) : r.valueOf run < r.base ^ run.length := by
  have := r.foldl_extend_lt run Nat.zero_lt_one
  rwa [Nat.one_mul] at this

end Radix

/-- A number as a run of digits, with zeros in front up to the given number of digits. -/
def DigitRun.written (radix : Radix) (width n : Nat) : DigitRun radix where
  chars := radix.write width n
  ne_nil := radix.write_ne_nil width n
  all_digits := fun _ => radix.isDigit_of_mem_write

theorem DigitRun.value_written (radix : Radix) (width n : Nat) :
    (DigitRun.written radix width n).value = n := radix.valueOf_write width n

end Asm65816
