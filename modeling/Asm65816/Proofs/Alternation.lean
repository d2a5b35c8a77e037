import Asm65816.Proofs.Reading
import Asm65816.Proofs.Rule.Trace
import Asm65816.Proofs.Session

/-!
# What a session sees of a choice

A choice is described by what its forms would do alone, each from where the choice begins. The first
form that matches or nests too deep decides, and the session is left as if that form had been the
only one. Where no form decides, the session goes back, and what is reported is the furthest
failure, the leftmost of several in one place. The forms that were tried in vain leave nothing but
their record.
-/

namespace Asm65816

open Rule

variable {α : Type}

/-! ## Forms that are tried in vain -/

/-- What is recorded of a form that is tried in vain: all that its rule records, and why the form is
rejected. -/
def Branch.tried (b : Branch α) (s : List Char) : List Event :=
  (b.rule.run s).trace ++
    match (b.rule.run s).result with
    | .ok _ => []
    | .error f => [.rejected b.form f.fault]

theorem Branch.tried_of_rejectsWith {b : Branch α} {s : List Char} {f : Failure}
    (h : b.RejectsWith s f) :
    b.tried s = (b.rule.run s).trace ++ [.rejected b.form f.fault] := by
  rw [tried, parse_eq_error_iff.mp h.1]

namespace PassedOver

variable {s : List Char} {branches : List (Branch α)} {trace : List Event}

theorem trace_eq (h : PassedOver s branches trace) : trace = branches.flatMap (·.tried s) := by
  induction h with
  | nil => rfl
  | cons hb _ ih =>
    rw [List.flatMap_cons, Branch.tried_of_rejectsWith hb, ← ih, List.append_assoc]
    rfl

theorem rejects (h : PassedOver s branches trace) : ∀ b ∈ branches, b.Rejects s := by
  induction h with
  | nil => exact fun _ => nofun
  | cons hb _ ih =>
    intro c hc
    rcases List.mem_cons.mp hc with rfl | hc
    · exact ⟨_, hb⟩
    · exact ih c hc

end PassedOver

/-- A list is split in only one way at the first of its elements that lacks a property. -/
theorem eq_of_split {γ : Type} {P : γ → Prop} {front front' back back' : List γ} {a a' : γ}
    (h : front ++ a :: back = front' ++ a' :: back') (hfront : ∀ c ∈ front, P c) (ha : ¬P a)
    (hfront' : ∀ c ∈ front', P c) (ha' : ¬P a') : front = front' ∧ a = a' := by
  induction front generalizing front' with
  | nil =>
    cases front' with
    | nil =>
      cases h
      exact ⟨rfl, rfl⟩
    | cons c front' =>
      cases h
      exact absurd (hfront' _ List.mem_cons_self) ha
  | cons c front ih =>
    cases front' with
    | nil =>
      cases h
      exact absurd (hfront _ List.mem_cons_self) ha'
    | cons c' front' =>
      obtain ⟨rfl, hrest⟩ := List.cons.inj h
      obtain ⟨rfl, rfl⟩ := ih hrest (fun d hd => hfront d (List.mem_cons_of_mem c hd))
        (fun d hd => hfront' d (List.mem_cons_of_mem c hd))
      exact ⟨rfl, rfl⟩

namespace Rule

variable {branches : List (Branch α)} {hne : branches ≠ []} {s : List Char}

/-- The first form that is not passed over is applied as if it were the only one. -/
theorem run_firstOf_of_split {earlier later : List (Branch α)} {b : Branch α}
    (hsplit : branches = earlier ++ b :: later) (hearlier : ∀ c ∈ earlier, c.Rejects s)
    (hb : ¬b.Rejects s) :
    (firstOf branches hne).run s = (b.rule.run s).after (earlier.flatMap (·.tried s)) := by
  have hchosen := chosen_firstOf branches hne s
  generalize (firstOf branches hne).run s = o at hchosen ⊢
  cases hchosen with
  | stopped hsplit' hpassed hc =>
    obtain ⟨rfl, rfl⟩ := eq_of_split (hsplit'.symm.trans hsplit) hpassed.rejects hc hearlier hb
    rw [hpassed.trace_eq]
  | exhausted hpassed _ =>
    refine absurd (hpassed.rejects b ?_) hb
    rw [hsplit]
    exact List.mem_append_right _ List.mem_cons_self

/-- Where all forms are passed over, the choice goes back and fails with the leftmost of the
furthest failures. -/
theorem run_firstOf_of_rejects (hne : branches ≠ []) (h : ∀ b ∈ branches, b.Rejects s) :
    ∃ earlier b later f, branches = earlier ++ b :: later ∧ b.RejectsWith s f ∧
      (∀ c ∈ earlier, ∃ g, c.RejectsWith s g ∧ f.rest.length < g.rest.length) ∧
      (∀ c ∈ later, ∃ g, c.RejectsWith s g ∧ f.rest.length ≤ g.rest.length) ∧
      (firstOf branches hne).run s =
        { result := .error f, rest := s, trace := branches.flatMap (·.tried s) } := by
  have hchosen := chosen_firstOf branches hne s
  generalize ho : (firstOf branches hne).run s = o at hchosen ⊢
  cases hchosen with
  | @stopped b earlier later _ hsplit _ hb =>
    refine absurd (h b ?_) hb
    rw [hsplit]
    exact List.mem_append_right _ List.mem_cons_self
  | @exhausted f _ hpassed hd =>
    have hparse : (firstOf branches hne).parse s = .error f :=
      parse_eq_error_iff.mpr (by rw [ho])
    obtain ⟨earlier, b, later, hsplit, hf, hearlier, hlater⟩ :=
      (foremost_of_parse_firstOf hparse).exists_split hd
    exact ⟨earlier, b, later, f, hsplit, ⟨hf, hd⟩, hearlier, hlater, by rw [hpassed.trace_eq]⟩

end Rule

namespace Session

variable (s : Session)

/-! ## Forms alone -/

/-- What a rule records from where a session stands. -/
def recorded (r : Rule α) : List Event := (r.run s.rest).trace

/-- A form alone fails at a position, and not because of its nesting. -/
structure FailsAlone (b : Branch α) (report : Report) (position : Nat) : Prop where
  /-- This is what is reported. -/
  result : (s.step b.rule).1 = .error report
  /-- This is the position. -/
  position : report.position = some position
  /-- There might be another form. -/
  notTooDeep : ¬report.diagnosis.IsTooDeep

/-- A form alone matches. -/
def MatchesAlone (b : Branch α) : Prop := ∃ a, (s.step b.rule).1 = .ok a

/-- A form alone nests too deep. -/
def NestsAlone (b : Branch α) : Prop :=
  ∃ report, (s.step b.rule).1 = .error report ∧ report.diagnosis.IsTooDeep

variable {s} {b : Branch α}

/-- The failure of a form alone is that with which a choice passes it over. -/
theorem failsAlone_of_rejectsWith {f : Failure} (h : b.RejectsWith s.rest f) :
    s.FailsAlone b (f.report (String.ofList s.source)) (s.source.length - f.rest.length) where
  result := step_of_error h.1
  position := by rw [Failure.report, String.length_ofList]
  notTooDeep := fun hd => Bool.false_ne_true (h.2.symm.trans (Fault.isTooDeep_iff.mpr hd))

theorem FailsAlone.rejects {report : Report} {position : Nat}
    (h : s.FailsAlone b report position) : b.Rejects s.rest := by
  obtain ⟨f, hf, rfl⟩ := exists_failure_of_step h.result
  exact ⟨f, parse_eq_error_iff.mpr hf,
    Bool.eq_false_iff.mpr fun hd => h.notTooDeep (Fault.isTooDeep_iff.mp hd)⟩

/-- A form is passed over unless it matches or nests too deep. -/
theorem not_rejects_iff : ¬b.Rejects s.rest ↔ s.MatchesAlone b ∨ s.NestsAlone b := by
  constructor
  · intro h
    rcases b.parse_cases s.rest with ⟨x, hx⟩ | ⟨f, hf, hd⟩ | hrejects
    · refine .inl ⟨x.1, ?_⟩
      rw [step, (parse_eq_ok_iff.mp hx).1]
      rfl
    · exact .inr ⟨_, step_of_error hf, Fault.isTooDeep_iff.mp hd⟩
    · exact absurd hrejects h
  · rintro (⟨a, ha⟩ | ⟨report, hreport, hd⟩)
    · exact not_refuses_of_ok (parse_of_step ha)
    · obtain ⟨f, hf, rfl⟩ := exists_failure_of_step hreport
      exact not_refuses_of_tooDeep (parse_eq_error_iff.mpr hf) (Fault.isTooDeep_iff.mpr hd)

theorem exists_failsAlone_iff :
    (∃ report position, s.FailsAlone b report position) ↔ b.Rejects s.rest := by
  constructor
  · rintro ⟨report, position, h⟩
    exact h.rejects
  · rintro ⟨f, hf⟩
    exact ⟨_, _, failsAlone_of_rejectsWith hf⟩

/-- A failure that is further into the text has the greater position. -/
theorem exists_failsAlone_lt {f : Failure} {c : Branch α}
    (h : ∃ g, c.RejectsWith s.rest g ∧ f.rest.length < g.rest.length) :
    ∃ report position, s.FailsAlone c report position ∧
      position < s.source.length - f.rest.length := by
  obtain ⟨g, hg, hlt⟩ := h
  have hle := ((parse_failure_suffix hg.1).trans s.rest_suffix).length_le
  exact ⟨_, _, failsAlone_of_rejectsWith hg, by omega⟩

theorem exists_failsAlone_le {f : Failure} {c : Branch α}
    (h : ∃ g, c.RejectsWith s.rest g ∧ f.rest.length ≤ g.rest.length) :
    ∃ report position, s.FailsAlone c report position ∧
      position ≤ s.source.length - f.rest.length := by
  obtain ⟨g, hg, hle⟩ := h
  exact ⟨_, _, failsAlone_of_rejectsWith hg, Nat.sub_le_sub_left hle _⟩

/-! ## The choice -/

/-- A form decides a choice if it matches or nests too deep, and the forms in front of it are tried
in vain. -/
structure Decides (s : Session) (branches earlier : List (Branch α)) (b : Branch α) : Prop where
  /-- These are the forms in front of it. -/
  split : ∃ later, branches = earlier ++ b :: later
  /-- They fail, and not because of their nesting. -/
  vain : ∀ c ∈ earlier, ∃ report position, s.FailsAlone c report position
  /-- The form has the last word. -/
  decided : s.MatchesAlone b ∨ s.NestsAlone b

/-- **A choice comes out as the form that decides it does alone.** Where no form decides it, it goes
back and fails with the leftmost of the furthest failures. -/
theorem step_firstOf (s : Session) (branches : List (Branch α)) (hne : branches ≠ []) :
    (∀ earlier b, s.Decides branches earlier b →
      s.step (firstOf branches hne) = s.step b.rule ∧
        s.recorded (firstOf branches hne) =
          earlier.flatMap (·.tried s.rest) ++ s.recorded b.rule) ∧
    ((∀ earlier b, ¬s.Decides branches earlier b) →
      ∃ earlier b later report position, branches = earlier ++ b :: later ∧
        s.FailsAlone b report position ∧
        (∀ c ∈ earlier, ∃ r p, s.FailsAlone c r p ∧ p < position) ∧
        (∀ c ∈ later, ∃ r p, s.FailsAlone c r p ∧ p ≤ position) ∧
        s.step (firstOf branches hne) = (.error report, s) ∧
        s.recorded (firstOf branches hne) = branches.flatMap (·.tried s.rest)) := by
  constructor
  · intro earlier b hdecides
    obtain ⟨later, hsplit⟩ := hdecides.split
    have hrun : (firstOf branches hne).run s.rest =
        (b.rule.run s.rest).after (earlier.flatMap (·.tried s.rest)) :=
      run_firstOf_of_split hsplit (fun c hc => exists_failsAlone_iff.mp (hdecides.vain c hc))
        (not_rejects_iff.mpr hdecides.decided)
    simp only [step, recorded, hrun]
    exact ⟨rfl, rfl⟩
  · intro hnone
    -- a form that is not passed over would decide
    have hall : ∀ b ∈ branches, b.Rejects s.rest := by
      have hchosen := chosen_firstOf branches hne s.rest
      generalize (firstOf branches hne).run s.rest = o at hchosen
      cases hchosen with
      | @stopped b earlier later _ hsplit hpassed hb =>
        exact absurd ⟨⟨later, hsplit⟩, fun c hc => exists_failsAlone_iff.mpr (hpassed.rejects c hc),
          not_rejects_iff.mp hb⟩ (hnone earlier b)
      | exhausted hpassed _ => exact hpassed.rejects
    obtain ⟨earlier, b, later, f, hsplit, hf, hearlier, hlater, hrun⟩ :=
      run_firstOf_of_rejects hne hall
    refine ⟨earlier, b, later, _, _, hsplit, failsAlone_of_rejectsWith hf,
      fun c hc => exists_failsAlone_lt (hearlier c hc),
      fun c hc => exists_failsAlone_le (hlater c hc), ?_, ?_⟩
    · simp only [step, hrun]
      rfl
    · simp only [recorded, hrun]

/-- Where every form fails alone, none decides. -/
theorem not_decides_of_failsAlone {branches : List (Branch α)}
    (h : ∀ b ∈ branches, ∃ report position, s.FailsAlone b report position)
    (earlier : List (Branch α)) (b : Branch α) : ¬s.Decides branches earlier b := by
  rintro ⟨⟨later, rfl⟩, _, hdecided⟩
  have hb := h b (List.mem_append_right _ List.mem_cons_self)
  exact not_rejects_iff.mpr hdecided (exists_failsAlone_iff.mp hb)

/-- A register behind the comma decides for the second of three forms. Without one, the second form
and the third fail in one place, and the second is reported. -/
theorem step_firstOf_register :
    let form := operandBranch (nested 1 1)
    let forms := [form .indirectY, form .xIndirect, form .stackIndirectY]
    let choice := firstOf forms (List.cons_ne_nil _ _)
    ((start "(a,x)").step choice = (start "(a,x)").step (form .xIndirect).rule ∧
      ((start "(a,x)").step choice).2.position = 5) ∧
    (start "(a,3").step choice =
      (.error
        { diagnosis := .unexpected "expected index register X, got '3'" none
          position := some 3
          source := some "(a,3" }, start "(a,3") := by
  intro form forms choice
  have hne : forms ≠ [] := List.cons_ne_nil _ _
  constructor
  · have hdecides : (start "(a,x)").Decides forms [form .indirectY] (form .xIndirect) :=
      { split := ⟨[form .stackIndirectY], rfl⟩
        vain := fun c hc => by
          obtain rfl := List.mem_singleton.mp hc
          exact ⟨{ diagnosis := .unexpected "expected ')', got ','" none
                   position := some 2
                   source := some "(a,x)" }, 2,
            eq_error_of_error? (by decide +kernel), rfl, nofun⟩
        decided := .inl ⟨{ mode := .xIndirect, value := .reference (.named "a"), second := none },
          eq_ok_of_toOption (by decide +kernel)⟩ }
    exact ⟨((step_firstOf (start "(a,x)") forms hne).1 _ _ hdecides).1, by decide +kernel⟩
  · have hvain : ∀ b ∈ forms, ∃ report position, (start "(a,3").FailsAlone b report position := by
      intro b hb
      simp only [forms, List.mem_cons, List.not_mem_nil, or_false] at hb
      rcases hb with rfl | rfl | rfl
      · exact ⟨{ diagnosis := .unexpected "expected ')', got ','" none
                 position := some 2
                 source := some "(a,3" }, 2, eq_error_of_error? (by decide +kernel), rfl, nofun⟩
      · exact ⟨{ diagnosis := .unexpected "expected index register X, got '3'" none
                 position := some 3
                 source := some "(a,3" }, 3, eq_error_of_error? (by decide +kernel), rfl, nofun⟩
      · exact ⟨{ diagnosis := .unexpected "expected stack register S, got '3'" none
                 position := some 3
                 source := some "(a,3" }, 3, eq_error_of_error? (by decide +kernel), rfl, nofun⟩
    obtain ⟨_, _, _, report, _, _, _, _, _, hstep, _⟩ :=
      (step_firstOf (start "(a,3") forms hne).2 (not_decides_of_failsAlone hvain)
    have hreport : ((start "(a,3").step choice).1 = .error
        { diagnosis := .unexpected "expected index register X, got '3'" none
          position := some 3
          source := some "(a,3" } := eq_error_of_error? (by decide +kernel)
    rw [hstep] at hreport ⊢
    exact Prod.ext hreport rfl

end Session

end Asm65816
