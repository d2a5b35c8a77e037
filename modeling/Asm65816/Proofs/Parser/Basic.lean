import Asm65816.NestingLimit
import Asm65816.Rule.Literal

/-!
# Parsers

A parser holds a whole text, the place that it has reached, and the number of the expressions that
it stands in. Its methods move the place and change the number; a failure that is raised leaves both
as they are at that moment, unless some method on the way out puts them back.

Nothing is known of a method by its type. It may set the place to anything, look at any part of the
text, and leave the number changed. What the rules of the grammar are given by their types has to be
proved of a parser.

Whatever goes on until something happens has a number of rounds, and no outcome when they are over.
-/

namespace Asm65816

/-- A failure that was raised. -/
structure Raised where
  /-- Why the text does not match. -/
  fault : Fault
  /-- The place of the failure in the text. -/
  position : Nat
  /-- The whole text. -/
  source : String

/-- The report of a failure. -/
def Raised.report (e : Raised) : Report where
  diagnosis := e.fault.diagnosis
  position := some e.position
  source := some e.source

/-- The one of two failures that is further into the text; the first, if they are at one place. -/
def Raised.furthest : Option Raised → Raised → Raised
  | none, e => e
  | some f, e => if f.position < e.position then e else f

/-- A text and the state of its reading. -/
structure Parser where
  /-- The whole text. -/
  text : List Char
  /-- The limit on nesting. -/
  limit : NestingLimit
  /-- The place in the text. -/
  position : Nat
  /-- The number of the expressions around the place. -/
  depth : Nat
  /-- What was recorded so far. -/
  log : List Event

/-- What the methods of a parser do. -/
abbrev Parsing : Type → Type := ExceptT Raised (StateT Parser Option)

namespace Parser

variable {α β : Type} (p : Parser)

/-- A parser at the beginning of a text. -/
def new (text : String) (limit : NestingLimit) : Parser where
  text := text.toList
  limit := limit
  position := 0
  depth := 0
  log := []

/-- The text that is left over. -/
def rest : List Char := p.text.drop p.position

/-- What comes of a method, and the parser afterwards. -/
def run (x : Parsing α) : Option (Except Raised α × Parser) := StateT.run (ExceptT.run x) p

@[simp] theorem run_pure (a : α) : p.run (pure a) = some (.ok a, p) := rfl

@[simp] theorem run_throw (e : Raised) : p.run (throw e : Parsing α) = some (.error e, p) := rfl

@[simp] theorem run_get : p.run get = some (.ok p, p) := rfl

@[simp] theorem run_modify (f : Parser → Parser) : p.run (modify f) = some (.ok (), f p) := rfl

theorem run_bind (x : Parsing α) (next : α → Parsing β) :
    p.run (x >>= next) = (p.run x).bind fun y =>
      match y.1 with
      | .ok a => y.2.run (next a)
      | .error e => some (.error e, y.2) := by
  show Option.bind (p.run x) _ = _
  congr 1
  funext y
  obtain ⟨result, q⟩ := y
  cases result with
  | ok a => rfl
  | error e => rfl

/-- What is done after a success goes on from the parser that it left. -/
theorem run_bind_of_ok {p q : Parser} {x : Parsing α} {a : α} (h : p.run x = some (.ok a, q))
    (next : α → Parsing β) : p.run (x >>= next) = q.run (next a) := by
  rw [run_bind, h, Option.bind_some]

/-- Nothing is done after a failure. -/
theorem run_bind_of_error {p q : Parser} {x : Parsing α} {e : Raised}
    (h : p.run x = some (.error e, q)) (next : α → Parsing β) :
    p.run (x >>= next) = some (.error e, q) := by
  rw [run_bind, h, Option.bind_some]

theorem run_tryCatch (x : Parsing α) (handle : Raised → Parsing α) :
    p.run (tryCatch x handle) = (p.run x).bind fun y =>
      match y.1 with
      | .ok a => some (.ok a, y.2)
      | .error e => y.2.run (handle e) := by
  show Option.bind (p.run x) _ = _
  congr 1
  funext y
  obtain ⟨result, q⟩ := y
  cases result with
  | ok a => rfl
  | error e => rfl

theorem run_tryCatch_of_ok {p q : Parser} {x : Parsing α} {a : α}
    (h : p.run x = some (.ok a, q)) (handle : Raised → Parsing α) :
    p.run (tryCatch x handle) = some (.ok a, q) := by
  rw [run_tryCatch, h, Option.bind_some]

/-- A failure is handled from the parser that it left. -/
theorem run_tryCatch_of_error {p q : Parser} {x : Parsing α} {e : Raised}
    (h : p.run x = some (.error e, q)) (handle : Raised → Parsing α) :
    p.run (tryCatch x handle) = q.run (handle e) := by
  rw [run_tryCatch, h, Option.bind_some]

end Parser

namespace Parsing

variable {α β : Type}

/-! ## The place -/

/-- Nothing comes of it. -/
def noOutcome : Parsing α := ExceptT.lift (StateT.lift none)

/-- The place. -/
def position : Parsing Nat := return (← get).position

/-- Goes to a place. -/
def moveTo (position : Nat) : Parsing Unit := modify fun p => { p with position }

/-- Reads a character, whatever it is. -/
def advance : Parsing Unit := modify fun p => { p with position := p.position + 1 }

/-- The next character, which is not read. There is none at the end of the text. -/
def current : Parsing (Option Char) := do
  let p ← get
  return p.text[p.position]?

/-- The end of the longest run of characters with a property that begins at a place. -/
def endOfRun (text : List Char) (p : Char → Bool) (position : Nat) : Nat :=
  if h : position < text.length then
    if p text[position] then endOfRun text p (position + 1) else position
  else position
termination_by text.length - position

/-- The text from an earlier place up to here. -/
def since (start : Nat) : Parsing (List Char) := do
  let p ← get
  return p.text.extract start p.position

/-- Reads the longest run of characters with a property. -/
def takeWhile (p : Char → Bool) : Parsing (List Char) := do
  let start ← position
  modify fun q => { q with position := endOfRun q.text p q.position }
  since start

/-- Reads the blanks that come next. -/
def blanks : Parsing Unit := do
  let _ ← takeWhile Text.isBlank

/-! ## Failures and records -/

/-- Raises a failure at some place. -/
def raiseAt (position : Nat) (fault : Fault) : Parsing α := do
  throw { fault, position, source := String.ofList (← get).text }

/-- Raises a failure at the place. -/
def raise (fault : Fault) : Parsing α := do raiseAt (← position) fault

/-- Raises the failure of something that is missing. -/
def missing (what : String) : Parsing α := do raise (.missing what (← current))

/-- Records a step. -/
def record (event : Event) : Parsing Unit := modify fun p => { p with log := p.log ++ [event] }

/-! ## Tokens -/

/-- Puts the place back where a method answers `none`. -/
def backIfNone (x : Parsing (Option α)) : Parsing (Option α) := do
  let start ← position
  match ← x with
  | some a => return some a
  | none =>
    moveTo start
    return none

/-- Reads a token if the next one has a meaning. -/
def token? (meaning : Char → Option β) : Parsing (Option β) := backIfNone do
  blanks
  match (← current).bind meaning with
  | some b =>
    advance
    blanks
    return some b
  | none => return none

/-- Reads a token that must be there. -/
def expect (chars : List Char) (what : String) : Parsing Char := do
  match ← token? (oneOf chars) with
  | some c => return c
  | none =>
    blanks
    missing what

/-- Whether one of the characters comes next. -/
def standsBefore (chars : List Char) : Parsing Bool := do
  match ← current with
  | some c => return c ∈ chars
  | none => return false

/-- Reads the blanks up to the end of the text. There must be nothing else. -/
def endOfText : Parsing Unit := do
  blanks
  match ← current with
  | some c => raise (.trailing c)
  | none => return ()

/-! ## Catching failures -/

/-- Answers `none` where a method fails softly. -/
def attempt (x : Parsing α) : Parsing (Option α) :=
  tryCatch (do return some (← x)) fun e => if e.fault.isSoft then return none else throw e

/-- One expression further down. The number is put back whatever comes of it. -/
def inside (x : Parsing α) : Parsing α := do
  modify fun p => { p with depth := p.depth + 1 }
  let outcome ← tryCatch (do return Except.ok (← x)) fun e => return .error e
  modify fun p => { p with depth := p.depth - 1 }
  match outcome with
  | .ok a => return a
  | .error e => throw e

/-- Goes on from a value while a token with a meaning follows, for so many rounds at most. The place
is put back to before the token of a round that answers `none`. -/
def followFrom (meaning : Char → Option β) (step : β → α → Parsing (Option α)) :
    Nat → α → Parsing α
  | 0, _ => noOutcome
  | rounds + 1, a => do
    let start ← position
    match ← token? meaning with
    | none => return a
    | some b =>
      match ← step b a with
      | some a' => followFrom meaning step rounds a'
      | none =>
        moveTo start
        return a

/-- Goes on from a value while a token with a meaning follows. -/
def follow (meaning : Char → Option β) (step : β → α → Parsing (Option α)) (a : α) :
    Parsing α := do
  followFrom meaning step ((← get).text.length + 1) a

/-- A form and the method that reads it. -/
structure Branch (α : Type) where
  /-- The form. -/
  form : Form
  /-- The method. -/
  method : Parsing α

/-- Tries forms in order, each from where the first began. The place is put back when none of them
is left, and the furthest of their failures is raised. -/
def tryForms (start : Nat) : Option Raised → List (Branch α) → Parsing α
  | none, [] => noOutcome
  | some furthest, [] => do
    moveTo start
    throw furthest
  | furthest, b :: others => do
    moveTo start
    tryCatch b.method fun e =>
      -- nesting too deep is raised again at once
      if e.fault.isTooDeep then throw e
      else do
        record (.rejected b.form e.fault)
        tryForms start (some (Raised.furthest furthest e)) others

/-- Reads the first of the forms that the text has. -/
def firstOf (branches : List (Branch α)) : Parsing α := do
  tryForms (← position) none branches

end Parsing

end Asm65816
