import Asm65816.Expression.Basic
import Asm65816.Rule.Token
import Asm65816.Text.Identifier

/-!
# Names and literals

The smallest parts of an expression. A literal takes all the digits that follow, whatever their
number; only its value is bounded, and a value that is too great fails at the first digit which
takes it over the bound. A literal is followed by any blanks, a name is not.
-/

namespace Asm65816.Rule

/-- A name: the longest word that begins here. -/
def identifier : Rule String := do
  let first ← satisfy Text.isIdentifierStart "identifier"
  let others ← takeWhile Text.isIdentifierContinue
  return String.ofList (first :: others)

/-- A name as a reference to a label. -/
def label : Rule Label := do
  return .named (← identifier)

/-- The run of digits that begins here and its value. The lead is what stands before the digits of
a literal of this radix. -/
def digits (radix : Radix) (what : String) (lead : List Char) : Rule (List Char × Nat) where
  run s :=
    let run := s.takeWhile radix.isDigit
    let rest := s.dropWhile radix.isDigit
    if run = [] then (missing what).run s
    else
      match radix.read maxNumber run with
      | .ok value => { result := .ok (run, value), rest := Text.skipBlanks rest, trace := [] }
      | .error late =>
        -- the failure stands inside the run, the rule behind it
        { result := .error ⟨.overflow (String.ofList (lead ++ run)), late ++ rest⟩
          rest := rest
          trace := [] }
  within s := by
    have hrest : s.dropWhile radix.isDigit <:+ s := List.dropWhile_suffix _
    dsimp only
    split
    · exact (missing what).within s
    · split
      · exact .of_ok ((Text.skipBlanks_suffix _).trans hrest)
      · rename_i late hlate
        -- the run is what was read early and what came too late
        obtain ⟨early, hearly⟩ := Radix.readFrom_suffix hlate
        exact .of_error hrest ⟨early, by
          rw [← List.append_assoc, hearly, List.takeWhile_append_dropWhile]⟩

/-- A decimal literal. It suggests no width. -/
def decimal : Rule Expression := do
  blanks
  let (_, value) ← digits .decimal "decimal digit" []
  return .number value .none

/-- A hexadecimal literal. The number of its digits suggests a width. -/
def hexadecimal : Rule Expression := do
  let _ ← expect ['$'] "'$'"
  let (run, value) ← digits .hexadecimal "hexadecimal digit after '$'" ['$']
  return .number value (.ofHexDigits run.length)

end Asm65816.Rule
