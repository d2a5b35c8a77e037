import Asm65816.Rule.Basic
import Asm65816.Text.Blank

/-!
# Tokens

A token of one character may have blanks on both sides. Where it is required and something else
follows, the blanks before it are read nevertheless, and the failure stands behind them.
-/

namespace Asm65816

/-- A certain character among those listed. -/
def oneOf (chars : List Char) (c : Char) : Option Char := if c ∈ chars then some c else none

/-- The next token with what is left behind it and its blanks, if the token has a meaning. -/
def nextToken? {β : Type} (meaning : Char → Option β) (s : List Char) : Option (β × List Char) :=
  match Text.skipBlanks s with
  | [] => none
  | c :: rest => (meaning c).map fun b => (b, Text.skipBlanks rest)

theorem nextToken?_suffix {β : Type} {meaning : Char → Option β} {s rest : List Char} {b : β}
    (h : nextToken? meaning s = some (b, rest)) : rest <:+ s ∧ rest.length < s.length := by
  unfold nextToken? at h
  split at h
  · cases h
  · rename_i c t ht
    obtain ⟨_, _, hb⟩ := Option.map_eq_some_iff.mp h
    cases hb
    have hs : Text.skipBlanks t <:+ t := Text.skipBlanks_suffix t
    have hc : c :: t <:+ s := ht ▸ Text.skipBlanks_suffix s
    refine ⟨hs.trans ((List.suffix_cons c t).trans hc), ?_⟩
    -- the character itself is what the rest lacks
    have h₁ := hs.length_le
    have h₂ := hc.length_le
    simp only [List.length_cons] at h₂
    omega

namespace Rule

variable {α β : Type}

/-- Reads the blanks that come next. -/
def blanks : Rule Unit where
  run s := { result := .ok (), rest := Text.skipBlanks s, trace := [] }
  within s := .of_ok (Text.skipBlanks_suffix s)

@[simp] theorem run_blanks (s : List Char) :
    blanks.run s = { result := .ok (), rest := Text.skipBlanks s, trace := [] } := rfl

/-- Reads the longest run of characters with a property. -/
def takeWhile (p : Char → Bool) : Rule (List Char) where
  run s := { result := .ok (s.takeWhile p), rest := s.dropWhile p, trace := [] }
  within _ := .of_ok (List.dropWhile_suffix p)

@[simp] theorem run_takeWhile (p : Char → Bool) (s : List Char) :
    (takeWhile p).run s = { result := .ok (s.takeWhile p), rest := s.dropWhile p, trace := [] } :=
  rfl

/-- Reads one character with a property. -/
def satisfy (p : Char → Bool) (what : String) : Rule Char where
  run
    | [] => (missing what).run []
    | c :: rest =>
      if p c then { result := .ok c, rest, trace := [] } else (missing what).run (c :: rest)
  within
    | [] => (missing what).within []
    | c :: rest => by
      dsimp only
      split
      · exact .of_ok (List.suffix_cons c rest)
      · exact (missing what).within (c :: rest)

/-- Reads a token if the next one has a meaning. Otherwise nothing is read, not even blanks. -/
def token? (meaning : Char → Option β) : Rule (Option β) where
  run s :=
    match nextToken? meaning s with
    | some (b, rest) => { result := .ok (some b), rest, trace := [] }
    | none => { result := .ok none, rest := s, trace := [] }
  within s := by
    split
    · rename_i h
      exact .of_ok (nextToken?_suffix h).1
    · exact .of_ok (List.suffix_refl s)

theorem run_token?_of_some {meaning : Char → Option β} {s rest : List Char} {b : β}
    (h : nextToken? meaning s = some (b, rest)) :
    (token? meaning).run s = { result := .ok (some b), rest, trace := [] } := by
  simp only [token?, h]

theorem run_token?_of_none {meaning : Char → Option β} {s : List Char}
    (h : nextToken? meaning s = none) :
    (token? meaning).run s = { result := .ok none, rest := s, trace := [] } := by
  simp only [token?, h]

/-- Reads a token that must be there. -/
def expect (chars : List Char) (what : String) : Rule Char := do
  match ← token? (oneOf chars) with
  | some c => return c
  | none =>
    blanks
    missing what

theorem run_expect_of_some {chars : List Char} {what : String} {s rest : List Char} {c : Char}
    (h : nextToken? (oneOf chars) s = some (c, rest)) :
    (expect chars what).run s = { result := .ok c, rest, trace := [] } := by
  rw [expect, run_bind, run_token?_of_some h]
  rfl

/-- A token that is missing is missed behind the blanks. -/
theorem run_expect_of_none {chars : List Char} {what : String} {s : List Char}
    (h : nextToken? (oneOf chars) s = none) :
    (expect chars what).run s =
      { result := .error ⟨.missing what (Text.skipBlanks s).head?, Text.skipBlanks s⟩
        rest := Text.skipBlanks s
        trace := [] } := by
  rw [expect, run_bind, run_token?_of_none h]
  rfl

/-- Whether one of the characters comes next. -/
def standsBefore (chars : List Char) : Rule Bool := do
  match ← peek with
  | some c => return c ∈ chars
  | none => return false

/-- Reads the blanks up to the end of the text. There must be nothing else. -/
def endOfText : Rule Unit := do
  blanks
  match ← peek with
  | some c => fail fun _ => .trailing c
  | none => return ()

end Rule

end Asm65816
