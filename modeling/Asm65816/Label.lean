import Asm65816.Invalid
import Asm65816.Radix

/-!
# Labels

A label refers to a place in a program: by name, or by counting the anonymous labels passed on the
way. A negative count goes backward.
-/

namespace Asm65816

/-- A reference to a place in a program. -/
inductive Label where
  /-- The place of that name. -/
  | named (name : String)
  /-- The anonymous label so many steps onward, or backward for a negative count. -/
  | relative (depth : Int)
deriving DecidableEq, Repr

namespace Label

/-- A label that may be part of a tree. -/
inductive Valid : Label → Prop where
  | named {name : String} : name ≠ "" → Valid (.named name)
  | relative {depth : Int} : -0x80000000 ≤ depth → depth < 0x80000000 → Valid (.relative depth)

/-- The label of a name, unless the name is empty. -/
def ofName (name : String) : Except Invalid Label := do
  return .named (← checkName name)

/-- The label at a signed distance, unless it does not fit in 32 bits. -/
def ofDepth (depth : Int) : Except Invalid Label :=
  if -0x80000000 ≤ depth ∧ depth < 0x80000000 then .ok (.relative depth)
  else .error (.depthOutOfRange depth)

theorem ofName_eq_ok_iff {name : String} {l : Label} :
    ofName name = .ok l ↔ l = .named name ∧ l.Valid := by
  unfold ofName checkName
  split
  · rename_i h
    constructor
    · intro h'
      cases h'
    · rintro ⟨rfl, ⟨h'⟩⟩
      exact absurd h h'
  · rename_i h
    constructor
    · intro h'
      cases h'
      exact ⟨rfl, .named h⟩
    · rintro ⟨rfl, _⟩
      rfl

theorem ofDepth_eq_ok_iff {depth : Int} {l : Label} :
    ofDepth depth = .ok l ↔ l = .relative depth ∧ l.Valid := by
  unfold ofDepth
  split
  · rename_i h
    constructor
    · intro h'
      cases h'
      exact ⟨rfl, .relative h.1 h.2⟩
    · rintro ⟨rfl, _⟩
      rfl
  · rename_i h
    constructor
    · intro h'
      cases h'
    · rintro ⟨rfl, h'⟩
      cases h' with
      | relative h₁ h₂ => exact absurd ⟨h₁, h₂⟩ h

/-- The text of a label. A distance always has its sign. -/
def chars : Label → List Char
  | named name => name.toList
  | relative depth => (if depth < 0 then '-' else '+') :: Radix.decimal.write 0 depth.natAbs

end Label

end Asm65816
