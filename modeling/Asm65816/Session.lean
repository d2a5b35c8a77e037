import Asm65816.Reading

/-!
# Sessions

A session applies one rule after the other to a text. Each rule begins where the one before it
stands, after a failure too. What a rule does depends on the rest of the text alone, but a report
shows the whole text and counts from its beginning.
-/

namespace Asm65816

/-- A text and the place that was reached in it. -/
structure Session where
  /-- The whole text. -/
  source : List Char
  /-- The text from the place on. -/
  rest : List Char
  /-- The place is in the text. -/
  rest_suffix : rest <:+ source

namespace Session

variable {α : Type}

/-- A session at the beginning of a text. -/
def start (text : String) : Session where
  source := text.toList
  rest := text.toList
  rest_suffix := List.suffix_refl _

/-- The number of characters before the place. -/
def position (s : Session) : Nat := s.source.length - s.rest.length

/-- Applies a rule. -/
def step (s : Session) (r : Rule α) : Except Report α × Session :=
  let o := r.run s.rest
  (o.result.mapError (·.report (String.ofList s.source)),
    { s with
      rest := o.rest
      rest_suffix := (r.within s.rest).rest_suffix.trans s.rest_suffix })

end Session

end Asm65816
