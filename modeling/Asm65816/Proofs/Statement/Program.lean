import Asm65816.Proofs.Statement.RoundTrip

/-!
# Programs

A program is written with one instruction on a line, and read instruction by instruction from what
is left over each time. A line break is a blank like any other, so nothing but the grammar tells
where an instruction ends: no operand goes on with a name.
-/

namespace Asm65816

open Rule

/-- An instruction that the grammar can say, and whose expressions nest less deep than a number of
levels. -/
structure Instruction.Writable (levels : Nat) (i : Instruction) : Prop where
  /-- It may be part of a tree. -/
  valid : i.Valid
  /-- The mnemonic is a name. -/
  name : IsName i.mnemonic
  /-- The mode has a written form. -/
  mode : ∃ form : OperandForm, i.operand.mode = form.mode
  /-- A text can say the expression of the operand. -/
  value : i.operand.value.Canonical ∧ i.operand.value.nest < levels
  /-- A text can say the second address. -/
  second : ∀ e, i.operand.second = some e → e.Canonical ∧ e.nest < levels

/-- The text of a program with one statement on a line, if each statement has a text. -/
def renderProgram? (program : List Statement) : Option String :=
  (program.mapM Statement.render?).map ("\n".intercalate ·)

/-- The characters of instructions, one on a line. -/
def lines (program : List Instruction) : List Char :=
  List.intercalate ['\n'] (program.map Instruction.chars)

theorem lines_singleton (i : Instruction) : lines [i] = i.chars := List.intercalate_singleton

theorem lines_cons_cons (i j : Instruction) (others : List Instruction) :
    lines (i :: j :: others) = i.chars ++ '\n' :: lines (j :: others) := by
  rw [lines, List.map_cons, List.map_cons, List.intercalate_cons_cons, List.append_assoc]
  rfl

theorem lines_eq_append (i : Instruction) (others : List Instruction) :
    ∃ s, lines (i :: others) = i.chars ++ s := by
  cases others with
  | nil => exact ⟨[], by rw [lines_singleton, List.append_nil]⟩
  | cons j others => exact ⟨_, lines_cons_cons i j others⟩

/-- Instructions have a text always. -/
theorem renderProgram?_instructions (program : List Instruction) :
    ∃ text, renderProgram? (program.map .instruction) = some text ∧
      text.toList = lines program := by
  have hrender : (program.map Statement.instruction).mapM Statement.render? =
      some (program.map fun i => String.ofList i.chars) := by
    induction program with
    | nil => rfl
    | cons i program ih =>
      rw [List.map_cons, List.mapM_cons, ih]
      rfl
  refine ⟨_, by rw [renderProgram?, hrender, Option.map_some], ?_⟩
  rw [String.toList_intercalate, List.map_map, lines]
  congr 1
  exact List.map_congr_left fun i _ => String.toList_ofList

/-- Less deep nesting leaves the one level that a form may need for itself. -/
theorem Instruction.Writable.readable {levels : Nat} {i : Instruction} (h : i.Writable levels) :
    i.Readable levels := by
  obtain ⟨form, hform⟩ := h.mode
  obtain ⟨-, hvalid, hsecond, hmove⟩ := h.valid
  have hvalue : i.operand.value.Readable (levels - 1) := by
    obtain ⟨hcanonical, hnest⟩ := h.value
    rw [hcanonical.nest_eq hvalid] at hnest
    exact ⟨hvalid, hcanonical, by omega⟩
  refine ⟨h.name, Operand.readable_of_parts hform hmove (hvalue.mono ?_) fun e he => ?_⟩
  · cases form <;> first | exact Nat.le_refl _ | exact Nat.sub_le levels 1
  · obtain ⟨hcanonical, hnest⟩ := h.second e he
    rw [hcanonical.nest_eq (hsecond e he)] at hnest
    exact ⟨hsecond e he, hcanonical, by omega⟩

/-! ## Where an instruction ends -/

/-- A statement may end before a name on the next line. -/
theorem ends_word (word : Word) (s : List Char) : Ends .newline (word.chars ++ s) := by
  have hstart := word.starts
  have hne : ∀ c : Char, Text.isIdentifierStart c = false → word.first ≠ c := by
    rintro c hc rfl
    rw [hstart] at hc
    cases hc
  refine ⟨⟨?_, ?_, ?_⟩, ?_, ?_⟩
  · intro c hc
    cases hc
    exact Text.isBlank_of_isIdentifierStart hstart
  · intro c hc
    cases hc
    exact hne '(' (by decide)
  · intro c _ _
    exact List.cons_ne_nil _ _
  · refine noOperator_cons _ ?_
    have hoperators : ∀ c ∈ operatorSigns, Text.isIdentifierStart c = false :=
      forall_mem_of_all (by decide)
    exact fun hmem => hne _ (hoperators _ hmem) rfl
  · intro c hc
    cases hc
    exact hne ',' (by decide)

/-- An instruction may end before another one on the next line. -/
theorem Instruction.Readable.ends_chars {n : Nat} {i : Instruction} (h : i.Readable n)
    (s : List Char) : Ends .newline (i.chars ++ s) := by
  obtain ⟨word, hword, _⟩ := Expression.IsName.exists_word h.name
  rw [Instruction.chars, ← hword, List.append_assoc, List.append_assoc]
  exact ends_word word _

/-! ## One instruction after the other -/

section

variable {n : Nat} {i j : Instruction}

theorem lines_ne_nil (hi : i.Readable n) (others : List Instruction) :
    lines (i :: others) ≠ [] := by
  obtain ⟨word, hword, _⟩ := Expression.IsName.exists_word hi.name
  obtain ⟨s, hs⟩ := lines_eq_append i others
  rw [hs, Instruction.chars, ← hword, Word.chars]
  exact List.cons_ne_nil _ _

theorem parse_statement_last (hi : i.Readable n) (limit : Nat) :
    (statement (nested limit n)).parse (lines [i]) = .ok (.instruction i, []) := by
  rw [lines_singleton]
  exact parse_statement_eq_ok_iff.mpr ⟨i, rfl, hi.parse_chars limit⟩

/-- The mnemonic on the next line ends an instruction. -/
theorem parse_statement_next (hi : i.Readable n) (hj : j.Readable n) (limit : Nat)
    (others : List Instruction) :
    (statement (nested limit n)).parse (lines (i :: j :: others)) =
      .ok (.instruction i, lines (j :: others)) := by
  obtain ⟨s, hs⟩ := lines_eq_append j others
  have hparse := hi.parse limit (hj.ends_chars s)
  rw [← hs] at hparse
  rw [lines_cons_cons]
  exact parse_statement_eq_ok_iff.mpr ⟨i, rfl, hparse⟩

end

/-- Where a value is read, the readings go on with what is left over, unless nothing is. -/
theorem stream_succ {α : Type} {r : Rule α} {text : String} {a : α} {t : List Char}
    (h : r.parse text.toList = .ok (a, t)) (count : Nat) : r.stream (count + 1) text =
      r.read text :: if t = [] then [] else r.stream count (String.ofList t) := by
  obtain ⟨hresult, hrest⟩ := read_eq_ok_iff.mpr h
  have hempty : String.ofList t = "" ↔ t = [] := String.ofList_inj
  rw [stream]
  simp only [hresult, hrest, hempty]

variable {limit : NestingLimit}

/-- **The instructions of a text in lines are read one after the other**, to the end of the text. -/
theorem stream_lines {program : List Instruction} (hne : program ≠ [])
    (h : ∀ i ∈ program, i.Readable limit.levels) {text : String}
    (htext : text.toList = lines program) {count : Nat} (hcount : program.length ≤ count) :
    ((statement limit.expression).stream count text).map (·.result) =
        program.map (fun i => .ok (.instruction i)) ∧
      ((statement limit.expression).stream count text).getLast?.map (·.rest) = some "" := by
  induction program generalizing text count with
  | nil => exact absurd rfl hne
  | cons i others ih =>
    rw [List.length_cons] at hcount
    obtain ⟨count, rfl⟩ : ∃ k, count = k + 1 := Nat.exists_eq_succ_of_ne_zero (by omega)
    have hi := h i List.mem_cons_self
    -- the last instruction leaves nothing over, the others leave the lines behind them
    cases others with
    | nil =>
      have hparse := parse_statement_last hi limit.levels
      rw [← htext] at hparse
      obtain ⟨hresult, hrest⟩ := read_eq_ok_iff.mpr hparse
      rw [NestingLimit.expression, stream_succ hparse, if_pos rfl]
      constructor
      · rw [List.map_singleton, hresult, List.map_singleton]
      · rw [List.getLast?_singleton, Option.map_some, hrest, String.ofList_nil]
    | cons j others =>
      have hj := h j (List.mem_cons_of_mem i List.mem_cons_self)
      have hparse := parse_statement_next hi hj limit.levels others
      rw [← htext] at hparse
      obtain ⟨hresult, _⟩ := read_eq_ok_iff.mpr hparse
      have hothers : ∀ k ∈ j :: others, k.Readable limit.levels :=
        fun k hk => h k (List.mem_cons_of_mem i hk)
      have hlength : (j :: others).length ≤ count := by omega
      obtain ⟨hresults, hlast⟩ :=
        ih (List.cons_ne_nil j others) hothers String.toList_ofList hlength
      rw [NestingLimit.expression] at hresults hlast ⊢
      rw [stream_succ hparse, if_neg (lines_ne_nil hj others)]
      constructor
      · rw [List.map_cons, hresult, hresults]
        rfl
      · obtain ⟨last, hlast, hrest⟩ := Option.map_eq_some_iff.mp hlast
        rw [List.getLast?_cons, hlast, Option.map_some, Option.getD_some, hrest]

/-- **A program that is written comes back from its text** instruction by instruction, and nothing
is left over. -/
theorem stream_renderProgram (limit : NestingLimit) (program : List Instruction)
    (hne : program ≠ []) (h : ∀ i ∈ program, i.Writable limit.levels) :
    ∃ text, renderProgram? (program.map .instruction) = some text ∧
      ∀ count, program.length ≤ count →
        ((statement limit.expression).stream count text).map (·.result) =
            program.map (fun i => .ok (.instruction i)) ∧
          ((statement limit.expression).stream count text).getLast?.map (·.rest) = some "" := by
  obtain ⟨text, hrender, htext⟩ := renderProgram?_instructions program
  refine ⟨text, hrender, fun count hcount => ?_⟩
  exact stream_lines hne (fun i hi => (h i hi).readable) htext hcount

/-- A line that begins like a group, behind a line that could go on with a call. -/
theorem stream_renderProgram_twoLines :
    let first : Instruction :=
      { mnemonic := "lda"
        size := none
        operand := { mode := .address, value := .reference (.named "a"), second := none } }
    let second : Instruction :=
      { mnemonic := "adc"
        size := some .byte
        operand := { mode := .stackIndirectY, value := .number 2 .none, second := none } }
    renderProgram? [.instruction first, .instruction second] = some "lda a\nadc.b (2,s),y" ∧
      ((statement (NestingLimit.expression { levels := 2 })).stream 2
          "lda a\nadc.b (2,s),y").map (·.result) =
        [.ok (.instruction first), .ok (.instruction second)] := by
  intro first second
  have hfirst : first.Writable 2 :=
    { valid := ⟨by decide, .reference (.named (by decide)), nofun, by decide⟩
      name := ⟨⟨'l', ['d', 'a'], by decide, by simp; decide⟩, by decide⟩
      mode := ⟨.address, rfl⟩
      value := ⟨.reference ⟨⟨'a', [], by decide, by simp⟩, by decide⟩, by decide +kernel⟩
      second := nofun }
  have hsecond : second.Writable 2 :=
    { valid := ⟨by decide, .number (by decide), nofun, by decide⟩
      name := ⟨⟨'a', ['d', 'c'], by decide, by simp; decide⟩, by decide⟩
      mode := ⟨.stackIndirectY, rfl⟩
      value := ⟨.number trivial, by decide +kernel⟩
      second := nofun }
  have hall : ∀ i ∈ [first, second], i.Writable 2 := by
    intro i hi
    rcases List.mem_pair.mp hi with rfl | rfl
    · exact hfirst
    · exact hsecond
  obtain ⟨text, hrender, hread⟩ :=
    stream_renderProgram { levels := 2 } [first, second] (List.cons_ne_nil _ _) hall
  have htext : renderProgram? [.instruction first, .instruction second] =
      some "lda a\nadc.b (2,s),y" := by decide +kernel
  obtain rfl : text = "lda a\nadc.b (2,s),y" := Option.some_inj.mp (hrender.symm.trans htext)
  exact ⟨htext, (hread 2 (Nat.le_refl 2)).1⟩

end Asm65816
