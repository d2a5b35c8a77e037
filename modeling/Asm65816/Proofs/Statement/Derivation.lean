import Asm65816.Proofs.Grammar.Derivation
import Asm65816.Statement.Basic
import Asm65816.Form

/-!
# The grammar of instructions

Each form of an operand has one production: a row of tokens and expressions, the **parts** of the
form. A derivation of an operand has a piece of text for each part. Blanks may stand behind every
token, and on both sides of an expression.

An instruction is a name, perhaps the letter of a size behind a point, and an operand, with blanks
between them. The name is the longest one, so what stands behind it does not go on with it.

An operand that begins with an expression, and not with a sign of its own, may not begin with an
expression that is a single group: such a text is an operand in parentheses.
-/

namespace Asm65816

/-- A part of a form. -/
inductive Part where
  /-- A token of one of the characters, and what it is called where it is missing. -/
  | token (chars : List Char) (what : String)
  /-- An expression. -/
  | value

/-- The parts of a form in order. -/
def OperandForm.production : OperandForm → List Part
  | indirectY =>
    [.token ['('] "'('", .value, .token [')'] "')'", .token [','] "','",
      .token ['y', 'Y'] "index register Y"]
  | indirect => [.token ['('] "'('", .value, .token [')'] "')'"]
  | xIndirect =>
    [.token ['('] "'('", .value, .token [','] "','", .token ['x', 'X'] "index register X",
      .token [')'] "')'"]
  | move => [.value, .token [','] "','", .value]
  | address => [.value]
  | immediate => [.token ['#'] "'#'", .value]
  | longIndirectY =>
    [.token ['['] "'['", .value, .token [']'] "']'", .token [','] "','",
      .token ['y', 'Y'] "index register Y"]
  | longIndirect => [.token ['['] "'['", .value, .token [']'] "']'"]
  | stackIndirectY =>
    [.token ['('] "'('", .value, .token [','] "','", .token ['s', 'S'] "stack register S",
      .token [')'] "')'", .token [','] "','", .token ['y', 'Y'] "index register Y"]

namespace Derivation

/-! ## Operands -/

/-- A piece of text for each part. -/
inductive Pieces : List Part → Type where
  | nil : Pieces []
  | token {chars : List Char} {what : String} {parts : List Part} (c : Char) (mem : c ∈ chars)
      (after : Blanks) (others : Pieces parts) : Pieces (.token chars what :: parts)
  | value {parts : List Part} (e : Spaced) (others : Pieces parts) : Pieces (.value :: parts)

namespace Pieces

/-- The text of all pieces. -/
def text : {parts : List Part} → Pieces parts → List Char
  | _, nil => []
  | _, token c _ after others => c :: (after.chars ++ others.text)
  | _, value e others => e.text ++ others.text

/-- The trees of the expressions in order. -/
def trees : {parts : List Part} → Pieces parts → List Expression
  | _, nil => []
  | _, token _ _ _ others => others.trees
  | _, value e others => e.tree :: others.trees

/-- Every literal fits in 32 bits. -/
def Fits : {parts : List Part} → Pieces parts → Prop
  | _, nil => True
  | _, token _ _ _ others => others.Fits
  | _, value e others => e.Fits ∧ others.Fits

/-- The number of levels that the expressions take. -/
def levels : {parts : List Part} → Pieces parts → Nat
  | _, nil => 0
  | _, token _ _ _ others => others.levels
  | _, value e others => max e.levels others.levels

/-- The blanks behind the last piece; the given ones where there is no piece. -/
def afterLast : {parts : List Part} → Pieces parts → Blanks → Blanks
  | _, nil, w => w
  | _, token _ _ after others, _ => others.afterLast after
  | _, value e others, _ => others.afterLast e.after

/-- The expression that stands first, unless a token does. -/
def first? : {parts : List Part} → Pieces parts → Option Spaced
  | _, nil => none
  | _, token _ _ _ _ => none
  | _, value e _ => some e

/-- Where a token stands first, no group does. -/
theorem not_isGroup_of_token {chars : List Char} {what : String} {parts : List Part}
    {d : Pieces (.token chars what :: parts)} (e : Spaced) (h : d.first? = some e) :
    ¬e.IsGroup := by
  cases d
  cases h

end Pieces

/-- An operand in one of the nine forms. -/
structure Operand where
  /-- The form. -/
  form : OperandForm
  /-- A piece of text for each part of the form. -/
  pieces : Pieces form.production
  /-- A group in front would make it an operand in parentheses. -/
  first_not_group : ∀ e, pieces.first? = some e → ¬e.IsGroup

namespace Operand

/-- The text of an operand. -/
def text (d : Operand) : List Char := d.pieces.text

/-- The blanks behind an operand. -/
def after (d : Operand) : Blanks := d.pieces.afterLast .none

/-- Every literal fits in 32 bits. -/
def Fits (d : Operand) : Prop := d.pieces.Fits

/-- A derivation of an operand says what its form and its expressions say. -/
structure Says (d : Operand) (o : Asm65816.Operand) : Prop where
  /-- The mode is that of the form. -/
  mode : o.mode = d.form.mode
  /-- The expressions are those of the pieces. -/
  values : o.value :: o.second.toList = d.pieces.trees

end Operand

/-! ## Instructions -/

/-- A size behind a mnemonic. -/
structure Suffix where
  /-- The blanks behind the point. -/
  between : Blanks
  /-- The letter of the size. -/
  letter : Char
  /-- The size. -/
  size : Size
  /-- The letter stands for the size. -/
  means : Size.ofLetter? letter = some size
  /-- The blanks behind the letter. -/
  after : Blanks

/-- The text of a size behind a mnemonic. -/
def Suffix.text (x : Suffix) : List Char := '.' :: (x.between.chars ++ x.letter :: x.after.chars)

/-- The text of a size, if there is one. -/
def suffixText (suffix : Option Suffix) : List Char := suffix.elim [] Suffix.text

/-- An instruction with blanks around it. -/
structure Instruction where
  /-- The blanks in front. -/
  before : Blanks
  /-- The mnemonic. -/
  name : Word
  /-- The blanks behind the mnemonic. -/
  between : Blanks
  /-- The size, if there is one. -/
  suffix : Option Suffix
  /-- The operand. -/
  operand : Operand
  /-- The mnemonic is the longest name: nothing that could go on with it stands right behind it. -/
  longest : ∀ c ∈ (suffixText suffix ++ operand.text).head?,
    Text.isIdentifierContinue c = true → between.chars ≠ []

namespace Instruction

/-- The text of an instruction. -/
def text (d : Instruction) : List Char :=
  d.before.chars ++
    (d.name.chars ++ (d.between.chars ++ (suffixText d.suffix ++ d.operand.text)))

/-- A derivation of an instruction says what its parts say. -/
structure Says (d : Instruction) (i : Asm65816.Instruction) : Prop where
  /-- The mnemonic is the name. -/
  mnemonic : i.mnemonic = d.name.name
  /-- The size is that of the letter, if there is one. -/
  size : i.size = d.suffix.map Suffix.size
  /-- The operand is what its derivation says. -/
  operand : d.operand.Says i.operand

end Instruction

end Derivation

/-- A text derives an instruction if some derivation has that text and says that instruction, and
all its literals fit. -/
def DerivesInstruction (s : List Char) (i : Instruction) : Prop :=
  ∃ d : Derivation.Instruction, d.text = s ∧ d.Says i ∧ d.operand.Fits

end Asm65816
