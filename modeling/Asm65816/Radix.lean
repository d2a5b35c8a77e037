/-!
# Numbers by their digits

Literals are written in one of two radixes. A number is written with its most significant digit
first, and a run of digits is read in the same order, so that each digit in turn multiplies what was
read before it by the base.

Reading stops at the first digit that takes the value over a bound. As the value never falls on the
way, that digit is found whatever the number of leading zeros.
-/

namespace Asm65816

/-! ## Digits of a number -/

/-- The digits of `n`, most significant first. Zero has the single digit zero. -/
def digits (base n : Nat) : List Nat :=
  if _ : 2 ≤ base ∧ base ≤ n then digits base (n / base) ++ [n % base] else [n]
termination_by n
decreasing_by exact Nat.div_lt_self (by omega) (by omega)

theorem lt_of_mem_digits {base n d : Nat} (hb : 2 ≤ base) (h : d ∈ digits base n) : d < base := by
  fun_induction digits base n with
  | case1 n hn ih =>
    rcases List.mem_append.mp h with h | h
    · exact ih h
    · rw [List.mem_singleton.mp h]
      exact Nat.mod_lt _ (by omega)
  | case2 n hn =>
    rw [List.mem_singleton.mp h]
    omega

/-- Read in order, the digits give the number back. -/
theorem foldl_digits {base n : Nat} : (digits base n).foldl (fun v d => v * base + d) 0 = n := by
  fun_induction digits base n with
  | case1 n hn ih =>
    rw [List.foldl_append, ih]
    exact Nat.div_add_mod' n base
  | case2 n hn => simp

/-- The digits with zeros in front, up to the given number of digits. -/
def padDigits (width : Nat) (ds : List Nat) : List Nat :=
  List.replicate (width - ds.length) 0 ++ ds

/-! ## The two radixes -/

/-- The radix of a literal. -/
inductive Radix where
  | decimal
  | hexadecimal
deriving DecidableEq, Repr

namespace Radix

/-- The signs of the digits, in order. Letters are written in upper case. -/
def signs : Radix → List Char
  | decimal => ['0', '1', '2', '3', '4', '5', '6', '7', '8', '9']
  | hexadecimal =>
    ['0', '1', '2', '3', '4', '5', '6', '7', '8', '9', 'A', 'B', 'C', 'D', 'E', 'F']

/-- The number of different digits. -/
def base (r : Radix) : Nat := r.signs.length

@[simp] theorem base_decimal : decimal.base = 10 := rfl

@[simp] theorem base_hexadecimal : hexadecimal.base = 16 := rfl

/-- The value of a digit. Letters count in either case. -/
def digit? (r : Radix) (c : Char) : Option Nat := r.signs.idxOf? c.toUpper

/-- Whether a character is a digit of the radix. -/
def isDigit (r : Radix) (c : Char) : Bool := (r.digit? c).isSome

/-- The sign of a digit. -/
def sign (r : Radix) (d : Nat) : Char := r.signs[d]?.getD '0'

/-- Every digit is read back from its sign. -/
theorem digit?_sign {r : Radix} {d : Nat} (h : d < r.base) : r.digit? (r.sign d) = some d := by
  -- there are only twenty-six cases
  have all : ∀ r : Radix, ∀ d < r.base, r.digit? (r.sign d) = some d := by
    intro r
    cases r <;> decide
  exact all r d h

/-- The value after one more digit. -/
def extend (r : Radix) (value : Nat) (c : Char) : Nat := value * r.base + (r.digit? c).getD 0

/-- The value of a run of digits. -/
def valueOf (r : Radix) (run : List Char) : Nat := run.foldl r.extend 0

/-- The text of a number, with zeros in front up to the given number of digits. -/
def write (r : Radix) (width n : Nat) : List Char := (padDigits width (digits r.base n)).map r.sign

/-- Reading what was written gives the number back, with zeros in front or without. -/
theorem valueOf_write (r : Radix) (width n : Nat) : r.valueOf (r.write width n) = n := by
  have hb : 2 ≤ r.base := by cases r <;> decide
  have hz : r.extend 0 (r.sign 0) = 0 := by cases r <;> decide
  have zeros : ∀ k, (List.replicate k (r.sign 0)).foldl r.extend 0 = 0 := by
    intro k
    induction k with
    | zero => rfl
    | succ k ih => rw [List.replicate_succ, List.foldl_cons, hz, ih]
  have signs : ∀ (ds : List Nat) (v : Nat), (∀ d ∈ ds, d < r.base) →
      (ds.map r.sign).foldl r.extend v = ds.foldl (fun v d => v * r.base + d) v := by
    intro ds
    induction ds with
    | nil => intro v _; rfl
    | cons d ds ih =>
      intro v h
      rw [List.map_cons, List.foldl_cons, List.foldl_cons, extend, digit?_sign (h d (by simp)),
        ih _ fun e he => h e (by simp [he])]
      rfl
  -- first over the zeros, then over the digits of the number
  unfold valueOf write padDigits
  rw [List.map_append, List.map_replicate, List.foldl_append, zeros,
    signs _ _ fun d => lt_of_mem_digits hb, foldl_digits]

/-! ## Reading up to a bound -/

/-- Reads a run of digits on from a value. Fails with the part of the run that begins at the first
digit which takes the value over the bound. -/
def readFrom (r : Radix) (bound : Nat) : Nat → List Char → Except (List Char) Nat
  | value, [] => .ok value
  | value, c :: run =>
    if r.extend value c ≤ bound then readFrom r bound (r.extend value c) run else .error (c :: run)

/-- Reads a run of digits whose value may not exceed the bound. -/
def read (r : Radix) (bound : Nat) (run : List Char) : Except (List Char) Nat :=
  r.readFrom bound 0 run

theorem le_foldl_extend (r : Radix) (value : Nat) (run : List Char) :
    value ≤ run.foldl r.extend value := by
  have hb : 1 ≤ r.base := by cases r <;> decide
  induction run generalizing value with
  | nil => exact Nat.le_refl _
  | cons c run ih =>
    have h : value * 1 ≤ value * r.base := Nat.mul_le_mul_left value hb
    have h' : value ≤ r.extend value c := by unfold extend; omega
    exact Nat.le_trans h' (ih _)

theorem readFrom_eq_ok_iff {r : Radix} {bound value n : Nat} {run : List Char}
    (h : value ≤ bound) :
    r.readFrom bound value run = .ok n ↔ n = run.foldl r.extend value ∧ n ≤ bound := by
  induction run generalizing value with
  | nil =>
    simp only [readFrom, Except.ok.injEq, List.foldl_nil]
    omega
  | cons c run ih =>
    rw [readFrom, List.foldl_cons]
    split
    · rename_i hc
      exact ih hc
    · -- the value can only grow from here on
      have := r.le_foldl_extend (r.extend value c) run
      simp only [reduceCtorEq, false_iff, not_and]
      omega

/-- A run is read just if its value does not exceed the bound. -/
theorem read_eq_ok_iff {r : Radix} {bound n : Nat} {run : List Char} :
    r.read bound run = .ok n ↔ n = r.valueOf run ∧ n ≤ bound :=
  readFrom_eq_ok_iff (Nat.zero_le bound)

/-- Where reading fails lies inside the run. -/
theorem readFrom_suffix {r : Radix} {bound value : Nat} {run late : List Char}
    (h : r.readFrom bound value run = .error late) : late <:+ run := by
  induction run generalizing value with
  | nil => simp [readFrom] at h
  | cons c run ih =>
    rw [readFrom] at h
    split at h
    · exact (ih h).trans (List.suffix_cons c run)
    · cases h
      exact List.suffix_refl _

/-- The digit where reading fails is the first that takes the value over the bound. -/
theorem exists_of_readFrom {r : Radix} {bound value : Nat} {run late : List Char}
    (hvalue : value ≤ bound) (h : r.readFrom bound value run = .error late) :
    ∃ early c others, run = early ++ c :: others ∧ late = c :: others ∧
      early.foldl r.extend value ≤ bound ∧ bound < (early ++ [c]).foldl r.extend value := by
  induction run generalizing value with
  | nil => simp [readFrom] at h
  | cons c run ih =>
    rw [readFrom] at h
    split at h
    · rename_i hc
      obtain ⟨early, d, others, rfl, hlate, hle, hlt⟩ := ih hc h
      exact ⟨c :: early, d, others, rfl, hlate, hle, hlt⟩
    · rename_i hc
      cases h
      exact ⟨[], c, run, rfl, rfl, hvalue, Nat.lt_of_not_le hc⟩

/-- There is a digit where reading fails. -/
theorem ne_nil_of_readFrom {r : Radix} {bound value : Nat} {run late : List Char}
    (h : r.readFrom bound value run = .error late) : late ≠ [] := by
  induction run generalizing value with
  | nil => simp [readFrom] at h
  | cons c run ih =>
    rw [readFrom] at h
    split at h
    · exact ih h
    · cases h
      exact List.cons_ne_nil c run

end Radix

end Asm65816
