import Asm65816.Text.Numeral
import Asm65816.Text.Quoted

/-!
# The limit on nesting

Expressions may nest only so deep. The limit is positive, and it is no greater than the stack
allows, so that nesting ends in an explained failure before the stack does.

The limit may be given in a setting of the environment. A setting that does not read as a limit is
ignored with a warning, and the limit by default, which the stack must allow like any other, takes
its place.
-/

namespace Asm65816

/-- The greatest nesting of expressions. An expression that holds no other one has the nesting
one. -/
structure NestingLimit where
  /-- The number of levels. -/
  levels : Nat
  /-- There is room for the outermost expression. -/
  levels_pos : 0 < levels := by decide
deriving DecidableEq, Repr

namespace NestingLimit

/-- The number of levels where no limit is given. -/
def defaultLevels : Nat := 64

/-- The frames of the stack that one level takes, with room for the caller. -/
def framesPerLevel : Nat := 12

/-- The frames of a stack whose size is not given. -/
def defaultStack : Nat := 1000

/-- The greatest limit that a stack of so many frames allows. -/
def capacity (stack : Nat) : Nat := stack / framesPerLevel

instance : Inhabited NestingLimit := ⟨{ levels := defaultLevels }⟩

/-- Why a limit is refused. -/
inductive Refusal where
  /-- The limit leaves no room for any expression. -/
  | notPositive (levels : Int)
  /-- The limit is beyond what the stack allows. -/
  | overCapacity (levels : Int) (stack : Nat)
deriving DecidableEq, Repr

/-- The text that explains a refusal. -/
def Refusal.message : Refusal → String
  | notPositive levels => "max_depth must be positive, got " ++ toString levels
  | overCapacity levels stack =>
    "max_depth " ++ toString levels ++ " exceeds " ++ toString (capacity stack) ++
      " supported by recursion limit " ++ toString stack

/-- The limit of so many levels, on a stack of so many frames. -/
def ofInt (stack : Nat) (levels : Int) : Except Refusal NestingLimit :=
  if _ : levels < 1 then .error (.notPositive levels)
  else if capacity stack < levels then .error (.overCapacity levels stack)
  else .ok { levels := levels.toNat, levels_pos := by omega }

/-- A limit is accepted just if it lies between one and the capacity of the stack. -/
theorem ofInt_eq_ok_iff {stack : Nat} {levels : Int} {l : NestingLimit} :
    ofInt stack levels = .ok l ↔ (l.levels : Int) = levels ∧ l.levels ≤ capacity stack := by
  have hl := l.levels_pos
  unfold ofInt
  split
  · simp only [reduceCtorEq, false_iff, not_and]
    omega
  · split
    · simp only [reduceCtorEq, false_iff, not_and]
      omega
    · constructor
      · intro h
        cases h
        exact ⟨by simp only; omega, by simp only; omega⟩
      · intro h
        cases l
        simp only at h
        simp only [Except.ok.injEq, NestingLimit.mk.injEq]
        omega

/-! ## The setting -/

/-- A notice that the setting is ignored. -/
structure Warning where
  /-- The text of the setting. -/
  setting : String
deriving DecidableEq, Repr

/-- The text of a notice. -/
def Warning.message (w : Warning) : String :=
  "Ignoring MVP_PARSER_MAX_DEPTH=" ++ Text.quoted w.setting ++ ", using default " ++
    toString defaultLevels

/-- The limit that a text asks for, if it reads as one that the stack allows. -/
def ofText? (stack : Nat) (text : String) : Option NestingLimit := do
  (ofInt stack (← Text.Numeral.toInt? text)).toOption

/-- The limit that the setting asks for, and notices about it. An empty setting counts as one that
is not made. -/
def ofSetting (stack : Nat) (setting : Option String) :
    Except Refusal NestingLimit × List Warning :=
  match setting with
  | none | some "" => (ofInt stack defaultLevels, [])
  | some text =>
    match ofText? stack text with
    | some limit => (.ok limit, [])
    | none => (ofInt stack defaultLevels, [{ setting := text }])

end NestingLimit

end Asm65816
