import Linewise.Command.Arguments
import Linewise.Command.Inspect

/-! # Running the program

A run carries out the command that the arguments ask for, or tells why there is
none.
-/

namespace Linewise.Command

def perform (tree : FileTree) : Invocation → Except Project.Fault Effect
  | .convert paths extension checkBlocks toStdout =>
    convert tree paths extension checkBlocks toStdout
  | .inspect path => .ok (inspect tree path)

inductive Ending where
  | done (effect : Effect)
  /-- The project file has a shape with which the command cannot go on. -/
  | broken (fault : Project.Fault)
  | halted (halt : Halt)
deriving Repr

/-- The tree after a run. One that breaks off over its settings or carries out no command has not
come to any file. -/
def Ending.treeAfter (tree : FileTree) : Ending → FileTree
  | .done effect => effect.tree
  | .broken _ => tree
  | .halted _ => tree

def run (tree : FileTree) (arguments : List String) : Ending :=
  match parse arguments with
  | .error halt => .halted halt
  | .ok invocation =>
    match perform tree invocation with
    | .ok effect => .done effect
    | .error fault => .broken fault

def versionLine : String :=
  programName ++ " " ++ version

def Halt.status : Halt → Nat
  | .usage _ _ => 2
  | _ => 0

end Linewise.Command
