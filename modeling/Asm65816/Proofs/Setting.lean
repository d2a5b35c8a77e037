import Asm65816.NestingLimit
import Asm65816.Proofs.Text.Numeral

/-!
# What the setting of the limit comes to

A setting asks for a limit if it is a numeral whose value lies between one and what the stack
allows. It then gets just this limit, and no notice is made. Any other setting is ignored, with one
notice unless it is empty, and the limit by default stands in for it, as far as the stack allows
that one.
-/

namespace Asm65816

open Text

namespace NestingLimit

variable {stack : Nat}

/-- A setting asks for so many levels: it is a numeral of this value, and the stack allows it. -/
structure Asks (stack : Nat) (setting : Option String) (levels : Nat) : Prop where
  /-- The setting is a numeral with the value. -/
  written : ∃ text, setting = some text ∧
    ∃ w : Numeral.Written, w.chars = text.toList ∧ w.value = levels
  /-- There is room for an expression. -/
  pos : 1 ≤ levels
  /-- The stack has the room. -/
  le : levels ≤ stack / 12

/-- A text that asks for so many levels reads as the number of them. -/
theorem Asks.toInt?_eq {text : String} {levels : Nat} (h : Asks stack (some text) levels) :
    Numeral.toInt? text = some (levels : Int) := by
  obtain ⟨_, heq, hwritten⟩ := h.written
  cases heq
  exact Numeral.toInt?_eq_some_iff.mpr hwritten

/-- No numeral is empty. -/
theorem Asks.ne_empty {text : String} {levels : Nat} (h : Asks stack (some text) levels) :
    text ≠ "" := by
  rintro rfl
  cases h.toInt?_eq

/-- A text is taken for the limit just if it asks for it. -/
theorem ofText?_eq_some_iff {text : String} {limit : NestingLimit} :
    ofText? stack text = some limit ↔ Asks stack (some text) limit.levels := by
  have haccepted : ∀ n, (ofInt stack n).toOption = some limit ↔
      (limit.levels : Int) = n ∧ limit.levels ≤ capacity stack := by
    intro n
    rw [← ofInt_eq_ok_iff]
    cases ofInt stack n <;> simp [Except.toOption]
  constructor
  · intro h
    obtain ⟨n, hn, h⟩ := Option.bind_eq_some_iff.mp h
    obtain ⟨rfl, hle⟩ := (haccepted n).mp h
    exact ⟨⟨text, rfl, Numeral.toInt?_eq_some_iff.mp hn⟩, limit.levels_pos, hle⟩
  · intro h
    exact Option.bind_eq_some_iff.mpr ⟨_, h.toInt?_eq, (haccepted _).mpr ⟨rfl, h.le⟩⟩

/-- What a text that is not empty comes to. -/
theorem ofSetting_text {text : String} (h : text ≠ "") :
    ofSetting stack (some text) =
      match ofText? stack text with
      | some limit => (.ok limit, [])
      | none => (ofInt stack defaultLevels, [{ setting := text }]) := by
  unfold ofSetting
  split
  · contradiction
  · rename_i heq
    exact absurd (Option.some.inj heq) h
  · rename_i heq
    cases heq
    rfl

/-- A setting that asks for a limit gets it. -/
theorem ofSetting_of_asks {setting : Option String} {levels : Nat}
    (h : Asks stack setting levels) :
    ∃ limit, ofSetting stack setting = (.ok limit, []) ∧ limit.levels = levels := by
  obtain ⟨text, rfl, _⟩ := h.written
  have htext : ofText? stack text = some ⟨levels, h.pos⟩ := ofText?_eq_some_iff.mpr h
  refine ⟨⟨levels, h.pos⟩, ?_, rfl⟩
  rw [ofSetting_text h.ne_empty, htext]

/-- The notices about a setting that is ignored. -/
def notices : Option String → List Warning
  | none => []
  | some text => if text = "" then [] else [{ setting := text }]

/-- Any other setting is ignored. -/
theorem ofSetting_of_not_asks {setting : Option String} (h : ∀ levels, ¬Asks stack setting levels) :
    ofSetting stack setting = (ofInt stack defaultLevels, notices setting) := by
  rcases setting with _ | text
  · rfl
  · by_cases hempty : text = ""
    · subst hempty
      rfl
    · have hnone : ofText? stack text = none :=
        Option.eq_none_iff_forall_ne_some.mpr fun limit hlimit =>
          h _ (ofText?_eq_some_iff.mp hlimit)
      rw [ofSetting_text hempty, hnone, notices, if_neg hempty]

/-- A notice quotes the setting and names the limit by default. -/
theorem message_eq (w : Warning) :
    w.message = "Ignoring MVP_PARSER_MAX_DEPTH=" ++ quoted w.setting ++ ", using default 64" := by
  have hdefault : ", using default " ++ toString defaultLevels = ", using default 64" := by
    decide +kernel
  have happend : ∀ s : String,
      s ++ ", using default " ++ toString defaultLevels = s ++ ", using default 64" := by
    intro s
    rw [String.append_assoc, hdefault]
  exact happend _

theorem map_message_notices (setting : Option String) :
    (notices setting).map Warning.message =
      match setting with
      | none => []
      | some text =>
        if text = "" then []
        else ["Ignoring MVP_PARSER_MAX_DEPTH=" ++ quoted text ++ ", using default 64"] := by
  rcases setting with _ | text
  · rfl
  · simp only [notices]
    split
    · rfl
    · rw [List.map_singleton, message_eq]

/-- The limit by default stands if the stack allows it. -/
theorem ofInt_default :
    ofInt stack defaultLevels =
      if 64 ≤ stack / 12 then .ok default else .error (.overCapacity 64 stack) := by
  split
  · rename_i h
    exact ofInt_eq_ok_iff.mpr ⟨rfl, h⟩
  · rename_i h
    have hlt : (capacity stack : Int) < (defaultLevels : Nat) := by
      rw [defaultLevels, capacity, framesPerLevel]
      omega
    rw [ofInt, dif_neg (by decide), if_pos hlt]
    rfl

/-- **A setting is taken at its word, or ignored with a notice.** The limit by default, which then
stands in for it, is checked like any other. -/
theorem ofSetting_spec (stack : Nat) (setting : Option String) :
    (∀ levels, Asks stack setting levels →
      ∃ limit, ofSetting stack setting = (.ok limit, []) ∧ limit.levels = levels) ∧
    ((∀ levels, ¬Asks stack setting levels) →
      (ofSetting stack setting).2.map Warning.message =
        (match setting with
        | none => []
        | some text =>
          if text = "" then []
          else ["Ignoring MVP_PARSER_MAX_DEPTH=" ++ quoted text ++ ", using default 64"]) ∧
      (64 ≤ stack / 12 → ∃ limit, (ofSetting stack setting).1 = .ok limit ∧ limit.levels = 64) ∧
      (stack / 12 < 64 → (ofSetting stack setting).1 = .error (.overCapacity 64 stack))) ∧
    ∀ limit, (ofSetting stack setting).1 = .ok limit →
      1 ≤ limit.levels ∧ limit.levels ≤ stack / 12 := by
  refine ⟨fun levels h => ofSetting_of_asks h, fun h => ?_, fun limit hlimit => ?_⟩
  · rw [ofSetting_of_not_asks h, ofInt_default]
    exact ⟨map_message_notices setting, fun hle => ⟨default, if_pos hle, rfl⟩,
      fun hlt => if_neg (Nat.not_le_of_lt hlt)⟩
  · refine ⟨limit.levels_pos, ?_⟩
    by_cases hasks : ∃ levels, Asks stack setting levels
    · obtain ⟨levels, h⟩ := hasks
      obtain ⟨limit', hsetting, rfl⟩ := ofSetting_of_asks h
      rw [hsetting] at hlimit
      cases hlimit
      exact h.le
    · rw [ofSetting_of_not_asks fun levels h => hasks ⟨levels, h⟩] at hlimit
      have hdefault : ofInt stack defaultLevels = .ok limit := hlimit
      exact (ofInt_eq_ok_iff.mp hdefault).2

/-- On a small stack a numeral within the capacity is heeded. One beyond it is ignored, and the
limit by default is refused in its turn. -/
theorem ofSetting_smallStack :
    (∃ limit, ofSetting 600 (some " +٣_1\u00a0") = (.ok limit, []) ∧ limit.levels = 31) ∧
    (ofSetting 600 (some "64")).2.map Warning.message =
      ["Ignoring MVP_PARSER_MAX_DEPTH='64', using default 64"] ∧
    (ofSetting 600 (some "64")).1 = .error (.overCapacity 64 600) := by
  have hasks : Asks 600 (some " +٣_1\u00a0") 31 :=
    { written := ⟨_, rfl, Numeral.toInt?_eq_some_iff.mp (by decide +kernel)⟩
      pos := by decide
      le := by decide }
  have hnone : ∀ levels, ¬Asks 600 (some "64") levels := by
    intro levels h
    have hread : Numeral.toInt? "64" = some 64 := by decide +kernel
    have := Option.some.inj (h.toInt?_eq.symm.trans hread)
    have := h.le
    omega
  obtain ⟨hnotices, _, hrefused⟩ := (ofSetting_spec 600 (some "64")).2.1 hnone
  refine ⟨(ofSetting_spec 600 _).1 31 hasks, ?_, hrefused (by decide)⟩
  rw [hnotices]
  decide +kernel

end NestingLimit

end Asm65816
