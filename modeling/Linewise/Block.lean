import Linewise.Program

/-! # Blocks

Functions, loops and conditionals open a block, and an end line closes the
innermost open one. The lines of an alternative continue the innermost open block.
A program is balanced when no line closes or continues a block where none is open
and every block that is opened is closed.
-/

namespace Linewise

inductive Role where
  | opens
  | closes
  /-- Needs an open block and leaves it open. -/
  | continues (dependent : Dependent)
  | simple
deriving DecidableEq, Repr

def Statement.role : Statement → Role
  | functionDecl .. => .opens
  | whileLoop .. => .opens
  | repeatLoop .. => .opens
  | conditional _ isElif => if isElif then .continues .elifBranch else .opens
  | elseBranch => .continues .elseBranch
  | blockEnd => .closes
  | _ => .simple

def Statement.opensBlock (statement : Statement) : Bool :=
  statement.role = .opens

namespace Block

/-- The lines of the open blocks after one statement, the innermost block first. -/
def step (opened : List Int) (entry : Int × Statement) : Except BlockFault (List Int) :=
  match entry.2.role, opened with
  | .opens, _ => .ok (entry.1 :: opened)
  | .closes, [] => .error (.outside .close entry.1)
  | .closes, _ :: outer => .ok outer
  | .continues dependent, [] => .error (.outside dependent entry.1)
  | .continues _, _ :: _ => .ok opened
  | .simple, _ => .ok opened

/-- Accept the balanced programs, and tell of any other what is wrong first. -/
def check (program : Program) : Except BlockFault Unit :=
  match program.numbered.foldlM step [] with
  | .error fault => .error fault
  | .ok [] => .ok ()
  | .ok opened => .error (.unclosed opened.reverse)

end Block
end Linewise
