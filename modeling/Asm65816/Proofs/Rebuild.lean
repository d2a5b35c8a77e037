import Asm65816.Node

/-!
# Building a tree anew

The constructors that check their parts, applied to the parts of a tree from the leaves up. They
give the tree back just if it may be part of a program, and otherwise one of them refuses its part.
So that a tree may be part of a program can be found out by building it.
-/

namespace Asm65816

variable {α β : Type}

/-! ## Checked constructors -/

/-- Something that is built is what it should be, on a condition, and otherwise it is refused. -/
def Builds (x : Except Invalid α) (a : α) (P : Prop) : Prop := ∀ b, x = .ok b ↔ b = a ∧ P

namespace Builds

variable {x : Except Invalid α} {a : α} {P Q : Prop}

theorem eq_ok_iff (h : Builds x a P) : x = .ok a ↔ P := by
  rw [h a]
  simp

theorem ok (a : α) : Builds (.ok a : Except Invalid α) a True := by
  intro b
  simp [eq_comm]

/-- What is built of a part is checked after the part. -/
theorem bind {next : α → Except Invalid β} {b : β} (h : Builds x a P)
    (hnext : Builds (next a) b Q) :
    Builds (x >>= next) b (P ∧ Q) := by
  intro c
  cases hx : x with
  | error e =>
    have hP : ¬P := fun hP => by
      rw [h.eq_ok_iff.mpr hP] at hx
      cases hx
    simp [hP, Bind.bind, Except.bind]
  | ok a' =>
    obtain ⟨rfl, hP⟩ := (h a').mp hx
    show next a' = .ok c ↔ _
    rw [hnext c]
    simp [hP]

/-- Nothing else is checked behind the parts. -/
theorem bind_pure {f : α → β} (h : Builds x a P) : Builds (x >>= fun a => pure (f a)) (f a) P := by
  have hlast : Builds (x >>= fun a => pure (f a)) (f a) (P ∧ True) := h.bind (.ok (f a))
  intro b
  rw [← and_true P]
  exact hlast b

theorem congr (h : Builds x a P) (hPQ : P ↔ Q) : Builds x a Q := by
  intro b
  rw [h b, hPQ]

end Builds

theorem builds_checkName (name : String) : Builds (checkName name) name (name ≠ "") :=
  fun _ => checkName_eq_ok_iff

/-! ## Labels and expressions -/

namespace Label

/-- The label, built anew. -/
def rebuild : Label → Except Invalid Label
  | named name => ofName name
  | relative depth => ofDepth depth

theorem builds_rebuild (l : Label) : Builds l.rebuild l l.Valid := by
  intro l'
  cases l with
  | named name =>
    rw [rebuild, ofName_eq_ok_iff]
    constructor <;>
    · rintro ⟨rfl, h⟩
      exact ⟨rfl, h⟩
  | relative depth =>
    rw [rebuild, ofDepth_eq_ok_iff]
    constructor <;>
    · rintro ⟨rfl, h⟩
      exact ⟨rfl, h⟩

end Label

namespace Expression

mutual

/-- The expression, built anew. -/
def rebuild : Expression → Except Invalid Expression
  | number value width => ofNumber value width
  | reference label => do
    let label ← label.rebuild
    return reference label
  | binary operator left right => do
    let left ← left.rebuild
    let right ← right.rebuild
    return binary operator left right
  | call name arguments => do
    let name ← checkName name
    let arguments ← rebuildAll arguments
    return call name arguments

/-- A list of expressions, each of them built anew. -/
def rebuildAll : List Expression → Except Invalid (List Expression)
  | [] => return []
  | e :: es => do
    let e ← e.rebuild
    let es ← rebuildAll es
    return e :: es

end

theorem builds_ofNumber (value : Nat) (width : LiteralWidth) :
    Builds (ofNumber value width) (.number value width) (value ≤ maxNumber) := by
  intro e
  rw [ofNumber_eq_ok_iff]
  constructor
  · rintro ⟨n, hn, rfl, h⟩
    obtain rfl := Int.ofNat.inj hn
    cases h with
    | number hle => exact ⟨rfl, hle⟩
  · rintro ⟨rfl, hle⟩
    exact ⟨value, rfl, rfl, .number hle⟩

mutual

/-- **An expression is built just if it may be part of a tree.** -/
theorem builds_rebuild : ∀ e : Expression, Builds e.rebuild e e.Valid
  | number value width => (builds_ofNumber value width).congr
      ⟨.number, fun h => by cases h; assumption⟩
  | reference label => label.builds_rebuild.bind_pure.congr
      ⟨.reference, fun h => by cases h; assumption⟩
  | binary operator left right =>
    (left.builds_rebuild.bind right.builds_rebuild.bind_pure).congr
      ⟨fun h => .binary h.1 h.2, fun h => by cases h with | binary hl hr => exact ⟨hl, hr⟩⟩
  | call name arguments =>
    ((builds_checkName name).bind (builds_rebuildAll arguments).bind_pure).congr
      ⟨fun h => .call h.1 h.2, fun h => by cases h with | call hn hes => exact ⟨hn, hes⟩⟩

theorem builds_rebuildAll : ∀ es : List Expression,
    Builds (rebuildAll es) es (∀ e ∈ es, e.Valid)
  | [] => (Builds.ok []).congr (by simp)
  | e :: es => (e.builds_rebuild.bind (builds_rebuildAll es).bind_pure).congr (by simp)

end

/-- An expression that may be missing, built anew. -/
def rebuild? : Option Expression → Except Invalid (Option Expression)
  | none => return none
  | some e => do
    let e ← e.rebuild
    return some e

theorem builds_rebuild? (e? : Option Expression) :
    Builds (rebuild? e?) e? (∀ e, e? = some e → e.Valid) := by
  cases e? with
  | none => exact (Builds.ok none).congr (by simp)
  | some e => exact e.builds_rebuild.bind_pure.congr (by simp)

end Expression

/-! ## Instructions and statements -/

namespace Instruction

/-- The instruction, built anew. -/
def rebuild (i : Instruction) : Except Invalid Instruction := do
  let value ← i.operand.value.rebuild
  let second ← Expression.rebuild? i.operand.second
  ofParts i.mnemonic (i.size.map fun size => (size.bytes : Int)) { i.operand with value, second }

/-- With the size that a number of bytes comes of, two checks are left. -/
theorem ofParts_bytes (mnemonic : String) (size : Option Size) (operand : Operand) :
    ofParts mnemonic (size.map fun size => (size.bytes : Int)) operand =
      if mnemonic = "" then .error .emptyMnemonic
      else if (operand.mode = .move) ≠ operand.second.isSome then .error .secondOperand
      else .ok { mnemonic, size, operand } := by
  have hsize : (size.map fun size => (size.bytes : Int)).mapM (fun n =>
      (Size.ofBytes? n).elim (throw (.sizeOutOfRange n)) pure) =
        (.ok size : Except Invalid (Option Size)) := by
    cases size with
    | none => rfl
    | some size => cases size <;> rfl
  unfold ofParts
  rw [hsize]
  by_cases hname : mnemonic = ""
  · rw [if_pos hname, if_pos hname]
    rfl
  · rw [if_neg hname, if_neg hname]
    by_cases hmode : (operand.mode = .move) ≠ operand.second.isSome
    · rw [if_pos hmode]
      exact if_pos hmode
    · rw [if_neg hmode]
      exact if_neg hmode

theorem builds_ofParts (mnemonic : String) (size : Option Size) (operand : Operand) :
    Builds (ofParts mnemonic (size.map fun size => (size.bytes : Int)) operand)
      { mnemonic, size, operand }
      (mnemonic ≠ "" ∧ (operand.mode = .move ↔ operand.second.isSome)) := by
  intro i
  rw [ofParts_bytes]
  split
  · rename_i hname
    simp [hname]
  · rename_i hname
    split
    · rename_i hmode
      have hmode : ¬(operand.mode = .move ↔ operand.second.isSome) := fun h => hmode (propext h)
      simp only [hmode, and_false, reduceCtorEq]
    · rename_i hmode
      have hmode : operand.mode = .move ↔ operand.second.isSome :=
        iff_of_eq (Decidable.not_not.mp hmode)
      constructor
      · intro h
        cases h
        exact ⟨rfl, hname, hmode⟩
      · rintro ⟨rfl, _⟩
        rfl

theorem builds_rebuild (i : Instruction) : Builds i.rebuild i i.Valid := by
  refine (i.operand.value.builds_rebuild.bind
    ((Expression.builds_rebuild? i.operand.second).bind (builds_ofParts _ _ _))).congr ?_
  simp only [Valid, Operand.Valid]
  constructor
  · rintro ⟨hvalue, hsecond, hname, hmode⟩
    exact ⟨hname, hvalue, hsecond, hmode⟩
  · rintro ⟨hname, hvalue, hsecond, hmode⟩
    exact ⟨hvalue, hsecond, hname, hmode⟩

end Instruction

mutual

/-- The statement, built anew. -/
def Statement.rebuild : Statement → Except Invalid Statement
  | .label label => do
    let label ← label.rebuild
    return .label label
  | .instruction instruction => do
    let instruction ← instruction.rebuild
    return .instruction instruction
  | .branches conditions => do
    let conditions ← Condition.rebuildAll conditions
    return .branches conditions
  | .assignment name value => do
    let name ← checkName name
    let value ← value.rebuild
    return .assignment name value

/-- A list of statements, each of them built anew. -/
def Statement.rebuildAll : List Statement → Except Invalid (List Statement)
  | [] => return []
  | s :: ss => do
    let s ← s.rebuild
    let ss ← Statement.rebuildAll ss
    return s :: ss

/-- The conditional block, built anew. -/
def Condition.rebuild : Condition → Except Invalid Condition
  | .block predicate statements => do
    let predicate ← Expression.rebuild? predicate
    let statements ← Statement.rebuildAll statements
    return .block predicate statements

/-- A list of conditional blocks, each of them built anew. -/
def Condition.rebuildAll : List Condition → Except Invalid (List Condition)
  | [] => return []
  | c :: cs => do
    let c ← c.rebuild
    let cs ← Condition.rebuildAll cs
    return c :: cs

end

mutual

/-- **A statement is built just if it may be part of a tree.** -/
theorem Statement.builds_rebuild : ∀ s : Statement, Builds s.rebuild s s.Valid
  | .label label => label.builds_rebuild.bind_pure.congr
      ⟨.label, fun h => by cases h; assumption⟩
  | .instruction instruction => instruction.builds_rebuild.bind_pure.congr
      ⟨.instruction, fun h => by cases h; assumption⟩
  | .branches conditions => (Condition.builds_rebuildAll conditions).bind_pure.congr
      ⟨.branches, fun h => by cases h; assumption⟩
  | .assignment name value =>
    ((builds_checkName name).bind value.builds_rebuild.bind_pure).congr
      ⟨fun h => .assignment h.1 h.2, fun h => by cases h with | assignment hn hv => exact ⟨hn, hv⟩⟩

theorem Statement.builds_rebuildAll : ∀ ss : List Statement,
    Builds (Statement.rebuildAll ss) ss (∀ s ∈ ss, s.Valid)
  | [] => (Builds.ok []).congr (by simp)
  | s :: ss => (s.builds_rebuild.bind (Statement.builds_rebuildAll ss).bind_pure).congr (by simp)

theorem Condition.builds_rebuild : ∀ c : Condition, Builds c.rebuild c c.Valid
  | .block predicate statements =>
    ((Expression.builds_rebuild? predicate).bind
      (Statement.builds_rebuildAll statements).bind_pure).congr
      ⟨fun h => .block h.1 h.2, fun h => by cases h with | block hp hs => exact ⟨hp, hs⟩⟩

theorem Condition.builds_rebuildAll : ∀ cs : List Condition,
    Builds (Condition.rebuildAll cs) cs (∀ c ∈ cs, c.Valid)
  | [] => (Builds.ok []).congr (by simp)
  | c :: cs => (c.builds_rebuild.bind (Condition.builds_rebuildAll cs).bind_pure).congr (by simp)

end

/-! ## Nodes -/

namespace Node

/-- The node, built anew. -/
def rebuild : Node → Except Invalid Node
  | name n => do
    let n ← checkName n
    return name n
  | label l => do
    let l ← l.rebuild
    return label l
  | expression e => do
    let e ← e.rebuild
    return expression e
  | statement s => do
    let s ← s.rebuild
    return statement s
  | condition c => do
    let c ← c.rebuild
    return condition c

/-- A node that may be part of a tree. -/
def Valid : Node → Prop
  | name n => n ≠ ""
  | label l => l.Valid
  | expression e => e.Valid
  | statement s => s.Valid
  | condition c => c.Valid

/-- **A node is built just if it may be part of a tree.** -/
theorem builds_rebuild (n : Node) : Builds n.rebuild n n.Valid := by
  cases n with
  | name n => exact (builds_checkName n).bind_pure
  | label l => exact l.builds_rebuild.bind_pure
  | expression e => exact e.builds_rebuild.bind_pure
  | statement s => exact s.builds_rebuild.bind_pure
  | condition c => exact c.builds_rebuild.bind_pure

end Node

end Asm65816
