import Asm65816.Proofs.Grammar.Standing
import Asm65816.Proofs.Reading
import Asm65816.Proofs.Session

/-!
# Where a session stands after a failure

Whoever goes on after a failure has to know from where. Unless expressions nest too deep, an operand
leaves the session where it was, and statements and primaries leave it behind the blanks. So do
terms and expressions whose first operand is not there; a literal further behind that is too great
leaves the session between the beginning of the expression and the literal. Nesting too deep leaves
it where that is found, whatever was called.
-/

namespace Asm65816

open Rule

/-- A method halts in its place if the methods that it is made of do. -/
theorem Method.haltsInPlace (limit : NestingLimit) {α : Type} (m : Method α) :
    (m.rule limit).HaltsInPlace := by
  have hrules : Compositional HaltsInPlace := compositional_haltsInPlace
  have hexpression : limit.expression.HaltsInPlace := hrules.nested _ _
  have hrecord : ∀ mnemonic mode, (record (.addressed mnemonic mode)).HaltsInPlace :=
    fun _ _ => (total_record _).haltsInPlace
  have hstatement := hrules.statement hexpression.operand hrecord
  induction m with
  | entry e =>
    cases e with
    | identifier => exact haltsInPlace_identifier
    | label => exact haltsInPlace_identifier.bind fun _ => hrules.pure _
    | expression => exact hexpression
    | assignment => exact hrules.assignment hexpression
    | instruction => exact hrules.instruction hexpression.operand hrecord
    | statement => exact hstatement
    | wholeExpression => exact hexpression.whole
    | wholeStatement => exact hstatement.whole
  | term => exact hrules.chain (hrules.primary hexpression) _
  | primary => exact hrules.primary hexpression
  | group => exact hrules.group hexpression
  | decimal => exact hrules.decimal
  | hexadecimal => exact hrules.hexadecimal
  | digits radix what lead => exact haltsInPlace_digits radix what lead
  | name => exact hrules.name hexpression
  | arguments => exact hrules.arguments hexpression
  | size => exact total_size?.haltsInPlace
  | operand => exact hexpression.operand
  | operandForm form => exact hexpression.operandForm form
  | blanks => exact hrules.blanks
  | endOfText => exact haltsInPlace_endOfText
  | peek => exact total_peek.haltsInPlace
  | standsBefore chars => exact (total_standsBefore chars).haltsInPlace
  | takeWhile p => exact (total_takeWhile p).haltsInPlace
  | token? chars => exact hrules.token? _
  | expect chars what => exact hrules.expect chars what
  | missing what => exact haltsInPlace_fail _
  | chain operator? m ih => exact hrules.chain ih _
  | choice count form method ih =>
    refine HaltsInPlace.firstOf fun b hb => ?_
    obtain ⟨i, _, rfl⟩ := List.mem_map.mp hb
    exact ih i

namespace Session

variable {α : Type} (limit : NestingLimit) (s : Session)

/-- The position of the next character that is no blank, or of the end of the text. -/
def nextPosition : Nat := s.position + (s.rest.takeWhile Text.isBlank).length

/-- A method that fails with certain diagnoses leaves the session at a position. -/
def LeavesAt (m : Method α) (P : Diagnosis → Prop) (position : Nat) : Prop :=
  ∀ report, (s.call limit m).1 = .error report → P report.diagnosis →
    (s.call limit m).2.position = position

/-- Where the methods that fail leave a session. -/
structure FailsInPlace : Prop where
  /-- An operand leaves the session where it was. -/
  operand : s.LeavesAt limit .operand (¬·.IsTooDeep) s.position
  /-- A statement leaves it behind the blanks. -/
  statement : s.LeavesAt limit (.entry .statement) (¬·.IsTooDeep) s.nextPosition
  /-- A primary leaves it behind the blanks. -/
  primary : s.LeavesAt limit .primary (¬·.IsTooDeep) s.nextPosition
  /-- An expression that is not there leaves it behind the blanks. -/
  expression : s.LeavesAt limit (.entry .expression) Diagnosis.IsSoft s.nextPosition
  /-- A term that is not there leaves it behind the blanks. -/
  term : s.LeavesAt limit .term Diagnosis.IsSoft s.nextPosition
  /-- An expression never leaves it behind the failure, as of a literal that is too great. -/
  between : ∀ report, (s.call limit (.entry .expression)).1 = .error report →
    ∃ position, report.position = some position ∧
      s.nextPosition ≤ (s.call limit (.entry .expression)).2.position ∧
      (s.call limit (.entry .expression)).2.position ≤ position
  /-- Nesting too deep leaves it where the failure is, whatever was called. -/
  tooDeep : ∀ {α : Type} (m : Method α) (report : Report), (s.call limit m).1 = .error report →
    report.diagnosis.IsTooDeep → report.position = some (s.call limit m).2.position

/-! ## Failures of calls -/

theorem nextPosition_eq : s.nextPosition = s.source.length - (Text.skipBlanks s.rest).length := by
  have hlength : s.rest.length = _ :=
    congrArg List.length (List.takeWhile_append_dropWhile (p := Text.isBlank)).symm
  rw [List.length_append] at hlength
  rw [nextPosition, Text.skipBlanks, s.position_of_suffix (List.dropWhile_suffix _)]
  omega

variable {limit} {s}

/-- A call leaves the session before the text before which its rule stands. -/
theorem leavesAt_of_rest {m : Method α} {P : Diagnosis → Prop} {t : List Char}
    (h : ∀ f, ((m.rule limit).run s.rest).result = .error f → P f.fault.diagnosis →
      ((m.rule limit).run s.rest).rest = t) :
    s.LeavesAt limit m P (s.source.length - t.length) := by
  intro report hreport hP
  obtain ⟨f, hf, rfl⟩ := exists_failure_of_step hreport
  rw [← h f hf hP]
  rfl

/-- A rule that goes back leaves the session behind the blanks. -/
theorem leavesAt_of_goesBack {m : Method α} {P : Diagnosis → Prop} {Q : Fault → Prop}
    (h : (m.rule limit).GoesBack Q) (hPQ : ∀ fault : Fault, P fault.diagnosis → Q fault) :
    s.LeavesAt limit m P s.nextPosition := by
  rw [nextPosition_eq]
  exact leavesAt_of_rest fun f hf hP => h hf (hPQ f.fault hP)

/-- **Where the methods that fail leave a session**, wherever they are called. -/
theorem failsInPlace (limit : NestingLimit) (s : Session) : s.FailsInPlace limit := by
  have hnotDeep : ∀ fault : Fault, ¬fault.diagnosis.IsTooDeep → fault.isTooDeep = false :=
    fun fault h => Bool.eq_false_iff.mpr (mt Fault.isTooDeep_iff.mp h)
  have hsoft : ∀ fault : Fault, fault.diagnosis.IsSoft → fault.isSoft = true :=
    fun fault => Fault.isSoft_iff.mpr
  constructor
  case operand => exact leavesAt_of_rest fun f hf h => rest_operand hf (hnotDeep f.fault h)
  case statement => exact leavesAt_of_goesBack goesBack_statement hnotDeep
  case primary => exact leavesAt_of_goesBack goesBack_primary hnotDeep
  case expression => exact leavesAt_of_goesBack (goesBack_nested _ _) hsoft
  case term => exact leavesAt_of_goesBack goesBack_term hsoft
  case between =>
    intro report hreport
    obtain ⟨f, hf, rfl⟩ := exists_failure_of_step hreport
    refine ⟨_, rfl, ?_, ?_⟩
    · rw [nextPosition_eq]
      exact Nat.sub_le_sub_left (rest_nested_suffix _ _ s.rest).length_le s.source.length
    · rw [String.length_ofList]
      exact Nat.sub_le_sub_left (stands_nested _ _ hf).length_le s.source.length
  case tooDeep =>
    intro α m report hreport hdeep
    obtain ⟨f, hf, rfl⟩ := exists_failure_of_step hreport
    have hrest := m.haltsInPlace limit hf (Fault.isTooDeep_iff.mpr hdeep)
    rw [Failure.report, String.length_ofList, ← hrest]
    rfl

/-- An operand that breaks off is given back altogether, a product stays in front of its second
literal, and a group that nests too deep is left where its expression begins. -/
theorem failsInPlace_product :
    ((start " (a ]").call default .operand).2.position = 0 ∧
    ((start " 1*99999999999").nextPosition = 1 ∧
      1 ≤ ((start " 1*99999999999").call default (.entry .expression)).2.position ∧
      ((start " 1*99999999999").call default (.entry .expression)).2.position ≤ 12) ∧
    ((start " #(a").call { levels := 1 } .operand).2.position = 3 := by
  have hbracket : ((start " (a ]").call default .operand).1 = .error
      { diagnosis := .unexpected "expected ')', got ']'" none
        position := some 4
        source := some " (a ]" } := eq_error_of_error? (by decide +kernel)
  have hliteral : ((start " 1*99999999999").call default (.entry .expression)).1 = .error
      { diagnosis := .overflow "99999999999"
        position := some 12
        source := some " 1*99999999999" } := eq_error_of_error? (by decide +kernel)
  have hgroup : ((start " #(a").call { levels := 1 } .operand).1 = .error
      { diagnosis := .tooDeep 1
        position := some 3
        source := some " #(a" } := eq_error_of_error? (by decide +kernel)
  have hnext : (start " 1*99999999999").nextPosition = 1 := by decide +kernel
  refine ⟨?_, ⟨hnext, ?_⟩, ?_⟩
  · exact (failsInPlace default (start " (a ]")).operand _ hbracket nofun
  · obtain ⟨position, hposition, hle⟩ :=
      (failsInPlace default (start " 1*99999999999")).between _ hliteral
    cases hposition
    rwa [hnext] at hle
  · have hdeep := (failsInPlace { levels := 1 } (start " #(a")).tooDeep _ _ hgroup ⟨1, rfl⟩
    exact (Option.some.inj hdeep).symm

end Session

end Asm65816
