import Asm65816.Node
import Asm65816.Proofs.Alternation
import Asm65816.Proofs.Completion
import Asm65816.Proofs.Depth
import Asm65816.Proofs.Digits
import Asm65816.Proofs.Excerpt
import Asm65816.Proofs.Finality
import Asm65816.Proofs.Hint
import Asm65816.Proofs.Limit
import Asm65816.Proofs.Maximal
import Asm65816.Proofs.Order
import Asm65816.Proofs.Outcome
import Asm65816.Proofs.Overflow
import Asm65816.Proofs.Parser.Reuse
import Asm65816.Proofs.Progress
import Asm65816.Proofs.Remainder
import Asm65816.Proofs.Search
import Asm65816.Proofs.Session
import Asm65816.Proofs.Setting
import Asm65816.Proofs.Spacing
import Asm65816.Proofs.Standing
import Asm65816.Proofs.Statement.Depth
import Asm65816.Proofs.Statement.Exactness
import Asm65816.Proofs.Statement.Parentheses
import Asm65816.Proofs.Statement.Program
