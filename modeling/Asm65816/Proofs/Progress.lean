import Asm65816.Proofs.Grammar.Primary
import Asm65816.Proofs.Statement.Program
import Asm65816.Proofs.Termination.Grammar

/-!
# What is read is never nothing

A name, an expression and its parts, and a statement take a character at least from the text in
which they match. Only so does it make sense to apply one of the rules again and again to what is
left over: there are no more matches than characters. The rounds of a repetition go forward too,
because each of them reads a token.
-/

namespace Asm65816

variable {α β : Type}

/-- Something is read of a text, and another text is left over. -/
def Advances (s t : List Char) : Prop := ∃ read, read ≠ [] ∧ s = read ++ t

theorem advances_of_lt {s t : List Char} (h : t <:+ s) (hlt : t.length < s.length) :
    Advances s t := by
  obtain ⟨read, rfl⟩ := h
  refine ⟨read, ?_, rfl⟩
  rintro rfl
  exact absurd hlt (Nat.lt_irrefl _)

namespace Rule

/-- Wherever a rule matches, it leaves a shorter text. -/
def Consumes (r : Rule α) : Prop := ∀ ⦃s t a⦄, r.parse s = .ok (a, t) → t.length < s.length

/-! ## One rule after the other -/

theorem Consumes.bind {r : Rule α} (h : r.Consumes) (next : α → Rule β) :
    (r >>= next).Consumes := by
  intro s t b hb
  obtain ⟨a, u, ha, hb⟩ := parse_bind_eq_ok_iff.mp hb
  exact Nat.lt_of_le_of_lt (parse_suffix hb).length_le (h ha)

/-- What comes first need not read anything. -/
theorem consumes_then {r : Rule α} {next : α → Rule β} (h : ∀ a, (next a).Consumes) :
    (r >>= next).Consumes := by
  intro s t b hb
  obtain ⟨a, u, ha, hb⟩ := parse_bind_eq_ok_iff.mp hb
  exact Nat.lt_of_lt_of_le (h a hb) (parse_suffix ha).length_le

theorem consumes_fail (fault : Option Char → Fault) : (fail fault : Rule α).Consumes := by
  intro s t a h
  cases h

theorem Consumes.firstOf {branches : List (Branch α)} {hne : branches ≠ []}
    (h : ∀ b ∈ branches, b.rule.Consumes) : (Rule.firstOf branches hne).Consumes := by
  intro s t a ha
  obtain ⟨b, hb, hparse⟩ := parse_firstOf_eq_ok_iff.mp ha
  exact h b hb.mem hparse

/-! ## The grammar -/

theorem consumes_satisfy (p : Char → Bool) (what : String) : (satisfy p what).Consumes := by
  intro s t a h
  obtain ⟨hresult, rfl⟩ := parse_eq_ok_iff.mp h
  cases s with
  | nil => cases hresult
  | cons c s =>
    simp only [satisfy] at hresult ⊢
    split at hresult
    · rename_i hc
      rw [if_pos hc]
      exact Nat.lt_succ_self _
    · cases hresult

theorem consumes_expect (chars : List Char) (what : String) : (expect chars what).Consumes := by
  intro s t c h
  obtain ⟨u, hu, _, rfl⟩ := parse_expect_eq_ok_iff.mp h
  have h₁ := (Text.skipBlanks_suffix u).length_le
  have h₂ := (Text.skipBlanks_suffix s).length_le
  rw [hu, List.length_cons] at h₂
  omega

theorem consumes_identifier : identifier.Consumes := (consumes_satisfy _ _).bind _

theorem consumes_label : label.Consumes := consumes_identifier.bind _

theorem consumes_digits (radix : Radix) (what : String) (lead : List Char) :
    (digits radix what lead).Consumes := by
  intro s t a h
  rcases begins_or radix.isDigit s with ⟨c, u, rfl, hd⟩ | hnot
  · rw [parse_digits_cons hd] at h
    split at h
    · cases h
      have hrest := (Text.skipBlanks_suffix _).trans (List.dropWhile_suffix radix.isDigit (l := u))
      exact Nat.lt_succ_of_le hrest.length_le
    · cases h
  · rw [parse_digits_of_not_digit hnot] at h
    cases h

theorem consumes_primaryForm (inner : Rule Expression) (form : PrimaryForm) :
    (primaryForm inner form).Consumes := by
  cases form with
  | group => exact (consumes_expect _ _).bind _
  | decimal => exact consumes_then fun _ => (consumes_digits _ _ _).bind _
  | hexadecimal => exact (consumes_expect _ _).bind _
  | name => exact consumes_then fun _ => consumes_identifier.bind _

theorem consumes_primary (inner : Rule Expression) : (primary inner).Consumes := by
  refine consumes_then fun _ => consumes_then fun c? => ?_
  split
  · refine .firstOf fun b hb => ?_
    obtain ⟨form, _, rfl⟩ := List.mem_map.mp hb
    exact consumes_primaryForm inner form
  · exact consumes_fail _

theorem Consumes.chain {operand : Rule Expression} (h : operand.Consumes)
    (operator? : Char → Option Operator) : (chain operator? operand).Consumes :=
  h.bind (chainFrom operator? operand)

theorem consumes_term (inner : Rule Expression) : (term inner).Consumes :=
  (consumes_primary inner).chain _

theorem consumes_nested (limit levels : Nat) : (nested limit levels).Consumes := by
  cases levels with
  | zero => exact consumes_then fun _ => consumes_fail _
  | succ levels => exact consumes_then fun _ => (consumes_term _).chain _

theorem consumes_assignment (inner : Rule Expression) : (assignment inner).Consumes :=
  consumes_then fun _ => consumes_identifier.bind _

theorem consumes_instruction (inner : Rule Expression) : (instruction inner).Consumes :=
  consumes_then fun _ => consumes_identifier.bind _

theorem consumes_statement (inner : Rule Expression) : (statement inner).Consumes := by
  refine consumes_then fun _ => .firstOf fun b hb => ?_
  obtain ⟨form, _, rfl⟩ := List.mem_map.mp hb
  cases form with
  | instruction => exact (consumes_instruction inner).bind _

/-! ## One match after the other -/

section

variable {r : Rule α}

/-- A failure ends a stream. -/
theorem stream_of_error {text : String} {f : Failure} (h : r.parse text.toList = .error f)
    (count : Nat) : r.stream (count + 1) text = [r.read text] := by
  rw [stream]
  simp only [read_result_of_error h]

/-- There are no more matches in a row than characters. -/
theorem Consumes.countP_stream_le (h : r.Consumes) (count : Nat) (text : String) :
    (r.stream count text).countP (·.result.isOk) ≤ text.length := by
  induction count generalizing text with
  | zero => exact Nat.zero_le _
  | succ count ih =>
    cases hr : r.parse text.toList with
    | error f =>
      rw [stream_of_error hr, List.countP_singleton, read_result_of_error hr]
      exact Nat.zero_le _
    | ok x =>
      obtain ⟨a, t⟩ := x
      have hlt := h hr
      rw [String.length_toList] at hlt
      rw [stream_succ hr, List.countP_cons]
      split
      · rw [List.countP_nil]
        split <;> omega
      · have hrest := ih (String.ofList t)
        rw [String.length_ofList] at hrest
        split <;> omega

/-- A stream ends by itself. -/
theorem Consumes.stream_eq (h : r.Consumes) {count count' : Nat} {text : String}
    (hcount : text.length < count) (hcount' : text.length < count') :
    r.stream count text = r.stream count' text := by
  induction count generalizing text count' with
  | zero => exact absurd hcount (Nat.not_lt_zero _)
  | succ count ih =>
    obtain ⟨count', rfl⟩ := Nat.exists_eq_succ_of_ne_zero (Nat.ne_zero_of_lt hcount')
    cases hr : r.parse text.toList with
    | error f => rw [stream_of_error hr, stream_of_error hr]
    | ok x =>
      obtain ⟨a, t⟩ := x
      have hlt := h hr
      rw [String.length_toList] at hlt
      have hrest : r.stream count (String.ofList t) = r.stream count' (String.ofList t) :=
        ih (by rw [String.length_ofList]; omega) (by rw [String.length_ofList]; omega)
      rw [stream_succ hr, stream_succ hr, hrest]

end

/-- What is read from a token on is not empty, because the token is not. -/
theorem advances_of_token {meaning : Char → Option β} {r : Rule α} {b : β} {a : α}
    {s t u : List Char} (h : nextToken? meaning s = some (b, t)) (hr : r.parse t = .ok (a, u)) :
    Advances s u := by
  obtain ⟨hsuffix, hlt⟩ := nextToken?_suffix h
  exact advances_of_lt ((parse_suffix hr).trans hsuffix)
    (Nat.lt_of_le_of_lt (parse_suffix hr).length_le hlt)

end Rule

open Rule

/-! ## Methods -/

/-- The methods that read a part of a text in its own right. -/
inductive Method.ReadsPart : {α : Type} → Method α → Prop where
  | identifier : ReadsPart (.entry .identifier)
  | label : ReadsPart (.entry .label)
  | expression : ReadsPart (.entry .expression)
  | term : ReadsPart .term
  | primary : ReadsPart .primary
  | assignment : ReadsPart (.entry .assignment)
  | instruction : ReadsPart (.entry .instruction)
  | statement : ReadsPart (.entry .statement)

theorem Method.ReadsPart.consumes {m : Method α} (h : m.ReadsPart) (limit : NestingLimit) :
    (m.rule limit).Consumes := by
  cases h with
  | identifier => exact consumes_identifier
  | label => exact consumes_label
  | expression => exact consumes_nested _ _
  | term => exact consumes_term _
  | primary => exact consumes_primary _
  | assignment => exact consumes_assignment _
  | instruction => exact consumes_instruction _
  | statement => exact consumes_statement _

variable (limit : NestingLimit)

/-- **Every method comes to an end, and what is read is never nothing.** A budget of as many as the
characters that are left and the levels, and one more, is enough for any method. A part of a text
takes a character at least, so that no more of them than characters can be read in a row. A round of
a chain or of a list of arguments which is not the last goes forward. -/
theorem Session.call_ends_and_advances :
    (∀ {α : Type} (m : Method α) (s : Session) (budget : Nat),
      s.rest.length + limit.levels < budget →
        (m.budgeted limit budget).run s.rest = some ((m.rule limit).run s.rest)) ∧
    (∀ {α : Type} (m : Method α), m.ReadsPart →
      (∀ (s : Session) (a : α), (s.call limit m).1 = .ok a →
        Advances s.rest (s.call limit m).2.rest) ∧
      ∀ (text : String) (count : Nat),
        ((m.rule limit).stream count text).countP (·.result.isOk) ≤ text.length ∧
          (text.length < count →
            (m.rule limit).stream count text = (m.rule limit).stream (text.length + 1) text)) ∧
    (∀ (operator? : Char → Option Operator) (operand : Rule Expression) (a b : Expression)
      (o : Operator) (s t u : List Char), nextToken? operator? s = some (o, t) →
        operand.parse t = .ok (b, u) →
          (chainFrom operator? operand a).parse s =
              (chainFrom operator? operand (.binary o a b)).parse u ∧
            Advances s u) ∧
    ∀ (inner : Rule Expression) (earlier : List Expression) (e : Expression) (c : Char)
      (s t u : List Char), nextToken? (oneOf [',']) s = some (c, t) → inner.parse t = .ok (e, u) →
        (argumentsFrom inner earlier).parse s = (argumentsFrom inner (e :: earlier)).parse u ∧
          Advances s u := by
  refine ⟨fun m s budget hbudget => ?_, fun m hm => ⟨fun s a ha => ?_, fun text count => ?_⟩,
    fun _ _ _ _ _ _ _ _ ho hb => ⟨parse_chainFrom_of_ok ho hb, advances_of_token ho hb⟩,
    fun _ _ _ _ _ _ _ hc he => ⟨parse_argumentsFrom_of_ok hc he, advances_of_token hc he⟩⟩
  · have hlevels : s.rest.length + 1 + limit.levels ≤ budget := by omega
    exact m.completes_budgeted hlevels s.rest (Nat.lt_succ_self _)
  · have hparse := parse_of_step ha
    exact advances_of_lt (parse_suffix hparse) (hm.consumes limit hparse)
  · exact ⟨(hm.consumes limit).countP_stream_le count text,
      fun hcount => (hm.consumes limit).stream_eq hcount (Nat.lt_succ_self _)⟩

/-- Nine characters and two levels are read on a budget of twelve. The name behind the expression is
left over. -/
theorem Session.call_ends_and_advances_group :
    let limit : NestingLimit := { levels := 2 }
    let m : Method Expression := .entry .expression
    let s := start "1+(2*3) x"
    (m.budgeted limit 12).run s.rest = some ((m.rule limit).run s.rest) ∧
      Advances s.rest (s.call limit m).2.rest ∧ (s.call limit m).2.rest = ['x'] := by
  intro limit m s
  obtain ⟨hends, hadvances, _⟩ := call_ends_and_advances limit
  have hresult : (s.call limit m).1 = .ok (.binary .add (.number 1 .none)
      (.binary .mul (.number 2 .none) (.number 3 .none))) :=
    eq_ok_of_toOption (by decide +kernel)
  exact ⟨hends m s 12 (by decide), (hadvances m .expression).1 s _ hresult, by decide +kernel⟩

end Asm65816
