import Asm65816.Proofs.Parser.Basic
import Asm65816.Reading

/-!
# Methods that do what a rule does

A method simulates a rule if it does, from any place in any text and with anything recorded before,
what the rule does with the text that is left over: the value or the fault are the same, the places
are those where the rule stands and fails, and the number of expressions around the place is what it
was.

A row of methods simulates the row of the rules. Where a method puts the place back, or the number,
this is what makes it simulate its rule.
-/

namespace Asm65816

namespace Parser

variable {α : Type} (p : Parser)

/-! ## Places in the text -/

/-- The parser before some text that is left over. -/
def before (rest : List Char) : Parser := { p with position := p.text.length - rest.length }

/-- A parser that stands in the text, in so many expressions. -/
structure At (limit : NestingLimit) (depth : Nat) (p : Parser) : Prop where
  /-- The limit on nesting. -/
  limit_eq : p.limit = limit
  /-- The number of the expressions around the place. -/
  depth_eq : p.depth = depth
  /-- The place is in the text. -/
  position_le : p.position ≤ p.text.length

variable {limit : NestingLimit} {depth : Nat} {p} {s t : List Char}

@[simp] theorem before_before : (p.before s).before t = p.before t := rfl

theorem rest_suffix (p : Parser) : p.rest <:+ p.text := List.drop_suffix _ _

theorem rest_before (h : s <:+ p.rest) : (p.before s).rest = s :=
  (List.suffix_iff_eq_drop.mp (h.trans p.rest_suffix)).symm

/-- A parser stands before what it has left over. -/
theorem At.before_rest (h : p.At limit depth) : p.before p.rest = p := by
  have hposition := h.position_le
  have : p.text.length - p.rest.length = p.position := by
    rw [rest, List.length_drop]
    omega
  rw [before, this]

theorem At.before (h : p.At limit depth) (s : List Char) : (p.before s).At limit depth :=
  ⟨h.limit_eq, h.depth_eq, Nat.sub_le _ _⟩

/-! ## What comes of an outcome -/

/-- A failure on what is left over, as it is raised. -/
def raised (p : Parser) (f : Failure) : Raised where
  fault := f.fault
  position := p.text.length - f.rest.length
  source := String.ofList p.text

/-- The parser after an outcome on what is left over. -/
def afterwards (p : Parser) (o : Outcome α) : Parser :=
  { p.before o.rest with log := p.log ++ o.trace }

/-- What comes of a method that has an outcome on what is left over. -/
def ending (p : Parser) (o : Outcome α) : Except Raised α × Parser :=
  (o.result.mapError p.raised, p.afterwards o)

@[simp] theorem ending_ok (p : Parser) (a : α) (s : List Char) :
    p.ending { result := .ok a, rest := s, trace := [] } = (.ok a, p.before s) := by
  simp only [ending, afterwards, List.append_nil]
  rfl

@[simp] theorem ending_error (p : Parser) (f : Failure) (s : List Char) :
    p.ending ({ result := .error f, rest := s, trace := [] } : Outcome α) =
      (.error (p.raised f), p.before s) := by
  simp only [ending, afterwards, List.append_nil]
  rfl

/-- An outcome counts its places from the end of the text. -/
theorem ending_before (p : Parser) (s : List Char) (o : Outcome α) :
    (p.before s).ending o = p.ending o := rfl

/-- A failure at the place is a failure before what is left over. -/
theorem At.raised_rest (h : p.At limit depth) (fault : Fault) :
    p.raised ⟨fault, p.rest⟩ = ⟨fault, p.position, String.ofList p.text⟩ := by
  have hposition : p.text.length - p.rest.length = p.position :=
    congrArg Parser.position h.before_rest
  rw [raised, hposition]

/-- The report of a failure counts from the beginning of the text. -/
theorem report_raised (p : Parser) (f : Failure) :
    (p.raised f).report = f.report (String.ofList p.text) := by
  rw [Failure.report, String.length_ofList]
  rfl

theorem At.recorded (h : p.At limit depth) (trace : List Event) :
    Parser.At limit depth { p with log := p.log ++ trace } :=
  ⟨h.limit_eq, h.depth_eq, h.position_le⟩

theorem At.afterwards (h : p.At limit depth) (o : Outcome α) : (p.afterwards o).At limit depth :=
  ⟨h.limit_eq, h.depth_eq, Nat.sub_le _ _⟩

/-- A parser that goes back has only recorded something. -/
theorem At.ending_rest (h : p.At limit depth) (a : α) (trace : List Event) :
    p.ending { result := .ok a, rest := p.rest, trace } =
      (.ok a, { p with log := p.log ++ trace }) := by
  rw [ending, Parser.afterwards, h.before_rest]
  rfl

theorem rest_afterwards {o : Outcome α} (h : o.Within p.rest) : (p.afterwards o).rest = o.rest :=
  rest_before h.rest_suffix

/-- What was recorded before does not matter, but is kept. -/
theorem ending_recorded (p : Parser) (trace : List Event) (o : Outcome α) :
    ({ p with log := p.log ++ trace } : Parser).ending o = p.ending (o.after trace) := by
  simp only [ending, afterwards, Outcome.after, List.append_assoc]
  rfl

/-- What comes of a second outcome comes of both. -/
theorem ending_afterwards {β : Type} (p : Parser) (o : Outcome α) (o' : Outcome β) :
    (p.afterwards o).ending o' = p.ending (o'.after o.trace) :=
  ending_recorded p o.trace o'

end Parser

namespace Parsing

open Asm65816.Parser

variable {α β : Type} {limit : NestingLimit} {depth : Nat} {p : Parser}

/-- A method does what a rule does with the text that is left over. -/
def Simulates (x : Parsing α) (limit : NestingLimit) (depth : Nat) (r : Rule α) : Prop :=
  ∀ p : Parser, p.At limit depth → p.run x = some (p.ending (r.run p.rest))

namespace Simulates

variable {x : Parsing α} {r : Rule α}

theorem run_of_ok (h : x.Simulates limit depth r) (hp : p.At limit depth) {a : α}
    (hr : (r.run p.rest).result = .ok a) :
    p.run x = some (.ok a, p.afterwards (r.run p.rest)) := by
  rw [h p hp, ending, hr]
  rfl

theorem run_of_error (h : x.Simulates limit depth r) (hp : p.At limit depth) {f : Failure}
    (hr : (r.run p.rest).result = .error f) :
    p.run x = some (.error (p.raised f), p.afterwards (r.run p.rest)) := by
  rw [h p hp, ending, hr]
  rfl

end Simulates

/-! ## Rows of methods -/

theorem simulates_pure (a : α) : (pure a : Parsing α).Simulates limit depth (pure a) := by
  intro p hp
  rw [run_pure, Rule.run_pure, ending_ok, hp.before_rest]

theorem Simulates.bind {x : Parsing α} {next : α → Parsing β} {r : Rule α} {next' : α → Rule β}
    (h : x.Simulates limit depth r) (hnext : ∀ a, (next a).Simulates limit depth (next' a)) :
    Simulates (x >>= next) limit depth (r >>= next') := by
  intro p hp
  rw [Rule.run_bind, Outcome.andThen]
  cases hr : (r.run p.rest).result with
  | ok a =>
    rw [run_bind_of_ok (h.run_of_ok hp hr), hnext a _ (hp.afterwards _),
      rest_afterwards (r.within p.rest), ending_afterwards]
  | error f =>
    rw [run_bind_of_error (h.run_of_error hp hr)]
    rfl

/-! ## The place -/

theorem run_position (p : Parser) : p.run position = some (.ok p.position, p) := rfl

theorem run_moveTo (p : Parser) (n : Nat) :
    p.run (moveTo n) = some (.ok (), { p with position := n }) := rfl

theorem run_current (p : Parser) : p.run current = some (.ok p.rest.head?, p) := by
  rw [Parser.rest, List.head?_drop]
  rfl

theorem run_advance {c : Char} {t : List Char} (h : p.rest = c :: t) :
    p.run advance = some (.ok (), p.before t) := by
  have hlength : p.text.length - p.position = t.length + 1 := by
    rw [← List.length_drop, ← Parser.rest, h, List.length_cons]
  have hposition : p.position + 1 = p.text.length - t.length := by omega
  rw [Parser.before, ← hposition]
  rfl

/-- A run ends where what is behind it begins. -/
theorem endOfRun_eq {text : List Char} (q : Char → Bool) {position : Nat}
    (h : position ≤ text.length) :
    endOfRun text q position = text.length - ((text.drop position).dropWhile q).length := by
  fun_induction endOfRun text q position with
  | case1 position hlt hq ih =>
    rw [ih hlt, List.drop_eq_getElem_cons hlt, List.dropWhile_cons_of_pos hq]
  | case2 position hlt hq =>
    rw [List.drop_eq_getElem_cons hlt, List.dropWhile_cons_of_neg hq,
      ← List.drop_eq_getElem_cons hlt, List.length_drop]
    omega
  | case3 position hlt =>
    rw [List.drop_of_length_le (by omega), List.dropWhile_nil, List.length_nil]
    omega

/-- What was read since a place stands between the place and what is left over. -/
theorem run_since {run t : List Char} (hp : p.At limit depth) (h : p.rest = run ++ t) :
    (p.before t).run (since p.position) = some (.ok run, p.before t) := by
  have hlength : (p.before t).position - p.position = run.length := by
    have hposition := hp.position_le
    have hrest : p.rest.length = p.text.length - p.position := List.length_drop
    rw [h, List.length_append] at hrest
    simp only [Parser.before]
    omega
  have hrun : p.text.extract p.position (p.before t).position = run := by
    rw [List.extract_eq_take_drop, hlength, ← Parser.rest, h, List.take_left]
  exact congrArg (fun run => some (Except.ok run, p.before t)) hrun

theorem run_takeWhile (hp : p.At limit depth) (q : Char → Bool) :
    p.run (takeWhile q) = some (.ok (p.rest.takeWhile q), p.before (p.rest.dropWhile q)) := by
  have hend :
      { p with position := endOfRun p.text q p.position } = p.before (p.rest.dropWhile q) := by
    rw [endOfRun_eq q hp.position_le]
    rfl
  rw [takeWhile, run_bind_of_ok (run_position p), run_bind_of_ok (run_modify p _), hend]
  exact run_since hp List.takeWhile_append_dropWhile.symm

theorem simulates_takeWhile (q : Char → Bool) :
    (takeWhile q).Simulates limit depth (Rule.takeWhile q) := by
  intro p hp
  rw [run_takeWhile hp, Rule.run_takeWhile, ending_ok]

theorem run_blanks (hp : p.At limit depth) :
    p.run blanks = some (.ok (), p.before (Text.skipBlanks p.rest)) := by
  rw [blanks, run_bind_of_ok (run_takeWhile hp _), run_pure]
  rfl

theorem simulates_blanks : blanks.Simulates limit depth Rule.blanks := by
  intro p hp
  rw [run_blanks hp, Rule.run_blanks, ending_ok]

theorem simulates_current : current.Simulates limit depth Rule.peek := by
  intro p hp
  rw [run_current, Rule.run_peek, ending_ok, hp.before_rest]

/-! ## Failures and records -/

theorem run_raise (fault : Fault) (p : Parser) :
    p.run (raise fault : Parsing α) =
      some (.error ⟨fault, p.position, String.ofList p.text⟩, p) := rfl

/-- A failure whose reason depends on the next character. -/
theorem simulates_fail (fault : Option Char → Fault) :
    (current >>= fun c? => raise (fault c?) : Parsing α).Simulates limit depth
      (Rule.fail fault) := by
  intro p hp
  rw [run_bind_of_ok (run_current p), run_raise, Rule.run_fail, ending_error, hp.before_rest,
    hp.raised_rest]

theorem simulates_missing (what : String) :
    (missing what : Parsing α).Simulates limit depth (Rule.missing what) :=
  simulates_fail (.missing what)

theorem simulates_raise (fault : Fault) :
    (raise fault : Parsing α).Simulates limit depth (Rule.fail fun _ => fault) := by
  intro p hp
  rw [run_raise, Rule.run_fail, ending_error, hp.before_rest, hp.raised_rest]

theorem simulates_record (event : Event) :
    (record event).Simulates limit depth (Rule.record event) := by
  intro p hp
  rw [Rule.run_record, ending, afterwards, hp.before_rest]
  rfl

/-! ## Tokens -/

theorem run_backIfNone (x : Parsing (Option α)) (p : Parser) :
    p.run (backIfNone x) = (p.run x).map fun y =>
      match y.1 with
      | .ok none => (.ok none, { y.2 with position := p.position })
      | _ => y := by
  rw [backIfNone, run_bind_of_ok (run_position p), run_bind]
  cases p.run x with
  | none => rfl
  | some y =>
    obtain ⟨result, q⟩ := y
    cases result with
    | error e => rfl
    | ok a? =>
      cases a? with
      | none => rfl
      | some a => rfl

theorem Simulates.backIfNone {x : Parsing (Option α)} {r : Rule (Option α)}
    (h : x.Simulates limit depth r) : (backIfNone x).Simulates limit depth r.backIfNone := by
  intro p hp
  rw [run_backIfNone, h p hp, Option.map_some, Rule.backIfNone]
  dsimp only
  generalize r.run p.rest = o
  obtain ⟨result, rest, trace⟩ := o
  cases result with
  | error f => rfl
  | ok a? =>
    cases a? with
    | none => exact congrArg some (hp.ending_rest none trace).symm
    | some a => rfl

/-- Behind the blanks it is the next character that decides. -/
theorem simulates_token? (meaning : Char → Option β) :
    (token? meaning).Simulates limit depth (Rule.token? meaning) := by
  intro p hp
  have hsuffix := Text.skipBlanks_suffix p.rest
  have hrest := rest_before hsuffix
  rw [token?, run_backIfNone, run_bind_of_ok (run_blanks hp), run_bind_of_ok (run_current _), hrest]
  cases hskip : Text.skipBlanks p.rest with
  | nil =>
    have hnone : nextToken? meaning p.rest = none := by simp only [nextToken?, hskip]
    rw [Rule.run_token?_of_none hnone, ending_ok, hp.before_rest]
    rfl
  | cons c t =>
    rw [hskip] at hsuffix hrest
    have hbehind := rest_before ((List.suffix_cons c t).trans hsuffix)
    rw [List.head?_cons, Option.bind_some]
    cases hmeaning : meaning c with
    | none =>
      have hnone : nextToken? meaning p.rest = none := by
        simp only [nextToken?, hskip, hmeaning, Option.map_none]
      rw [Rule.run_token?_of_none hnone, ending_ok, hp.before_rest]
      rfl
    | some b =>
      have hsome : nextToken? meaning p.rest = some (b, Text.skipBlanks t) := by
        simp only [nextToken?, hskip, hmeaning, Option.map_some]
      rw [Rule.run_token?_of_some hsome, ending_ok]
      dsimp only
      rw [run_bind_of_ok (run_advance hrest), before_before,
        run_bind_of_ok (run_blanks (hp.before t)), hbehind, before_before, run_pure]
      rfl

theorem simulates_expect (chars : List Char) (what : String) :
    (expect chars what).Simulates limit depth (Rule.expect chars what) := by
  refine (simulates_token? _).bind fun c? => ?_
  cases c? with
  | some c => exact simulates_pure c
  | none => exact simulates_blanks.bind fun _ => simulates_missing what

theorem simulates_standsBefore (chars : List Char) :
    (standsBefore chars).Simulates limit depth (Rule.standsBefore chars) := by
  refine simulates_current.bind fun c? => ?_
  cases c? with
  | some c => exact simulates_pure _
  | none => exact simulates_pure _

theorem simulates_endOfText : endOfText.Simulates limit depth Rule.endOfText := by
  refine simulates_blanks.bind fun _ => simulates_current.bind fun c? => ?_
  cases c? with
  | some c => exact simulates_raise _
  | none => exact simulates_pure _

/-! ## Catching failures -/

theorem Simulates.attempt {x : Parsing α} {r : Rule α} (h : x.Simulates limit depth r) :
    (attempt x).Simulates limit depth r.attempt := by
  intro p hp
  simp only [Parsing.attempt, Rule.attempt]
  cases hr : (r.run p.rest).result with
  | ok a =>
    rw [run_tryCatch_of_ok (run_bind_of_ok (h.run_of_ok hp hr) _)]
    rfl
  | error f =>
    rw [run_tryCatch_of_error (run_bind_of_error (h.run_of_error hp hr) _)]
    show Parser.run _ (if f.fault.isSoft then _ else _) = _
    dsimp only
    split
    · rfl
    · rfl

/-- The number of expressions goes up, and whatever comes of the method, down again. -/
theorem run_inside (x : Parsing α) (p : Parser) :
    p.run (inside x) =
      (({ p with depth := p.depth + 1 } : Parser).run x).map fun y =>
        (y.1, { y.2 with depth := y.2.depth - 1 }) := by
  rw [inside, run_bind_of_ok (run_modify p _), run_bind, run_tryCatch, run_bind]
  cases ({ p with depth := p.depth + 1 } : Parser).run x with
  | none => rfl
  | some y =>
    obtain ⟨result, q⟩ := y
    cases result with
    | ok a => rfl
    | error e => rfl

/-- The number of expressions does not matter to what is left over, and is put back. -/
theorem Simulates.inside {x : Parsing α} {r : Rule α} (h : x.Simulates limit (depth + 1) r) :
    (inside x).Simulates limit depth r := by
  intro p hp
  have hbelow : Parser.At limit (depth + 1) { p with depth := p.depth + 1 } :=
    ⟨hp.limit_eq, congrArg Nat.succ hp.depth_eq, hp.position_le⟩
  rw [run_inside, h _ hbelow]
  rfl

/-! ## Repetition -/

section Follow

variable {meaning : Char → Option β} {step : β → α → Parsing (Option α)} {rounds : Nat} {a : α}
  {q : Parser}

theorem run_followFrom_of_none (h : p.run (token? meaning) = some (.ok none, q)) :
    p.run (followFrom meaning step (rounds + 1) a) = some (.ok a, q) := by
  rw [followFrom, run_bind_of_ok (run_position p), run_bind_of_ok h, run_pure]

/-- A round is given back from wherever it stands. -/
theorem run_followFrom_of_some {b : β} (h : p.run (token? meaning) = some (.ok (some b), q)) :
    p.run (followFrom meaning step (rounds + 1) a) = (q.run (step b a)).bind fun y =>
      match y.1 with
      | .error e => some (.error e, y.2)
      | .ok none => some (.ok a, { y.2 with position := p.position })
      | .ok (some a') => y.2.run (followFrom meaning step rounds a') := by
  rw [followFrom, run_bind_of_ok (run_position p), run_bind_of_ok h]
  dsimp only
  rw [run_bind]
  congr 1
  funext y
  obtain ⟨result, q'⟩ := y
  cases result with
  | error e => rfl
  | ok a? =>
    cases a? with
    | none => rfl
    | some a' => rfl

/-- Every round reads a token at least, so that there are no more rounds than characters. -/
theorem Simulates.follow {step' : β → α → Rule (Option α)}
    (h : ∀ b a, (step b a).Simulates limit depth (step' b a)) (a : α) :
    (follow meaning step a).Simulates limit depth (Rule.follow meaning step' a) := by
  intro p hp
  show p.run (followFrom meaning step (p.text.length + 1) a) =
    some (p.ending (Asm65816.followFrom meaning step' a p.rest))
  have hrounds : p.rest.length < p.text.length + 1 := Nat.lt_succ_of_le p.rest_suffix.length_le
  generalize p.text.length + 1 = rounds at hrounds
  induction rounds generalizing a p with
  | zero => exact absurd hrounds (Nat.not_lt_zero _)
  | succ rounds ih =>
    have htoken := simulates_token? meaning p hp
    cases ht : nextToken? meaning p.rest with
    | none =>
      rw [Rule.run_token?_of_none ht, ending_ok] at htoken
      rw [run_followFrom_of_none htoken, followFrom_of_none ht, ending_ok]
    | some x =>
      obtain ⟨b, t⟩ := x
      obtain ⟨hsuffix, hlt⟩ := nextToken?_suffix ht
      have hwithin := (step' b a).within t
      have hlength := hwithin.rest_suffix.length_le
      have hround := h b a _ (hp.before t)
      rw [Rule.run_token?_of_some ht, ending_ok] at htoken
      rw [rest_before hsuffix, ending_before] at hround
      rw [run_followFrom_of_some htoken, hround, Option.bind_some, followFrom_of_some ht]
      generalize (step' b a).run t = o at hwithin hlength
      obtain ⟨result, rest, trace⟩ := o
      cases result with
      | error f => rfl
      | ok a? =>
        cases a? with
        | none => exact congrArg some (hp.ending_rest a trace).symm
        | some a' =>
          have hrest := rest_afterwards (hwithin.mono hsuffix)
          dsimp only at hlength hrest
          have hothers :=
            ih a' _ (hp.afterwards ⟨.ok (some a'), rest, trace⟩) (by rw [hrest]; omega)
          rw [hrest, ending_afterwards] at hothers
          exact hothers

end Follow

end Parsing

end Asm65816
