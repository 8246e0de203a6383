import Linewise.Block
import Linewise.Settings
import Linewise.TypeScript

/-! # Translation of a source text

A translation is refused as a whole at the first fault. Under the settings that
ask for it, a program whose blocks do not match is refused as well.
-/

namespace Linewise.Translator

def parse (settings : Settings) (text : String) : Except Fault Program :=
  match Program.ofText text with
  | .error fault => .error fault
  | .ok program =>
    if settings.checkBlocks then
      match Block.check program with
      | .ok () => .ok program
      | .error fault => .error (.block fault)
    else .ok program

def translate (settings : Settings) (text : String) : Except Fault String :=
  (parse settings text).map (TypeScript.code settings.aliases)

structure Outcome where
  code : String := ""
  errors : List String := []
  success : Bool := true
  statementCount : Nat := 0
deriving DecidableEq, Repr

def Outcome.hasErrors (outcome : Outcome) : Bool :=
  !outcome.errors.isEmpty

def run (settings : Settings) (text : String) : Outcome :=
  match parse settings text with
  | .error fault => { errors := [fault.message], success := false }
  | .ok program =>
    { code := TypeScript.code settings.aliases program
      statementCount := program.statements.length }

/-- What a run notes for those who watch its steps. -/
def trace (settings : Settings) (text : String) : List String :=
  let parsed := match Program.ofText text with
    | .error _ => []
    | .ok program => ["Parsed " ++ toString program.statements.length ++ " statements"]
  let aborted := match parse settings text with
    | .error fault => ["Translation aborted: " ++ fault.message]
    | .ok _ => []
  parsed ++ aborted

end Linewise.Translator
