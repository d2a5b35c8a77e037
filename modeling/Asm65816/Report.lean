/-!
# Reports of failures

A report says what went wrong and shows where. A text may have several lines: the column counts from
the beginning of the line on which the failure stands, and a caret below the excerpt of that line
points at the place.

```text
column 9: error: expected ')', got end of input
    LDA ($19
            ^
```

A failure on a line break is shown just behind the line that it ends, and one past the end of the
text as far behind the last line.
-/

namespace Asm65816

/-- What went wrong. -/
inductive Diagnosis where
  /-- The text is not of the expected form. -/
  | mismatch (message : String) (hint : Option String)
  /-- Some other character stands where a certain one was required. -/
  | unexpected (message : String) (hint : Option String)
  /-- The text ends before anything could be decided. -/
  | incomplete (message : String) (hint : Option String)
  /-- The value of a literal has more than 32 bits. -/
  | overflow (literal : String)
  /-- Expressions nest deeper than the limit. -/
  | tooDeep (limit : Int)
deriving DecidableEq, Repr

namespace Diagnosis

/-- What went wrong, in words. -/
def message : Diagnosis → String
  | mismatch message _ | unexpected message _ | incomplete message _ => message
  | overflow literal => "numeric literal '" ++ literal ++ "' does not fit in 32 bits"
  | tooDeep limit => "expression nested deeper than " ++ toString limit ++ " levels"

/-- What could be done about it, in words. -/
def hint : Diagnosis → Option String
  | mismatch _ hint | unexpected _ hint | incomplete _ hint => hint
  | overflow _ => some "largest accepted value is 4294967295 ($FFFFFFFF)"
  | tooDeep _ => some "raise ParserConfig.max_depth or MVP_PARSER_MAX_DEPTH"

end Diagnosis

/-! ## The line of a position -/

/-- The part of a text behind its last line break. -/
def lastLine (s : List Char) : List Char := (s.reverse.takeWhile (· != '\n')).reverse

/-- The part of a text before its first line break. -/
def firstLine (s : List Char) : List Char := s.takeWhile (· != '\n')

/-- The line around a position, without its line break. -/
def lineAt (source : List Char) (position : Nat) : List Char :=
  lastLine (source.take position) ++ firstLine (source.drop position)

/-- The column of a position on its line, counted from one. -/
def columnAt (source : List Char) (position : Nat) : Nat :=
  let before := source.take position
  position - (before.length - (lastLine before).length) + 1

/-- What went wrong in a text, and where. Both the place and the text may be unknown. -/
structure Report where
  /-- What went wrong. -/
  diagnosis : Diagnosis
  /-- The number of characters before the place. -/
  position : Option Nat
  /-- The whole text. -/
  source : Option String
deriving DecidableEq, Repr

namespace Report

/-- The column of the place, counted from one. Where the text is unknown it is taken for a single
line. -/
def column (r : Report) : Option Nat :=
  r.position.map fun position =>
    match r.source with
    | some source => columnAt source.toList position
    | none => position + 1

/-- The line of the place, and the caret line below it. -/
def excerpt (r : Report) : List String :=
  match r.source, r.position with
  | some source, some position =>
    let line := lineAt source.toList position
    let column := columnAt source.toList position
    ["    " ++ String.ofList line, String.ofList (List.replicate (4 + column - 1) ' ' ++ ['^'])]
  | _, _ => []

/-- The line that says what went wrong. -/
def headline (r : Report) : String :=
  match r.column with
  | some column => "column " ++ toString column ++ ": error: " ++ r.diagnosis.message
  | none => "error: " ++ r.diagnosis.message

/-- The line with the hint, unless there is none or it says nothing. -/
def hintLines (r : Report) : List String :=
  match r.diagnosis.hint with
  | none | some "" => []
  | some hint => ["hint: " ++ hint]

/-- The text of a report. -/
def render (r : Report) : String :=
  "\n".intercalate (r.headline :: r.excerpt ++ r.hintLines)

example : ({ diagnosis := .unexpected "expected ')', got 'X'" none, position := some 8,
             source := some "NOP\nLDA X\nRTS" } : Report).render =
    "column 5: error: expected ')', got 'X'\n    LDA X\n        ^" := by
  decide +kernel

end Report

end Asm65816
