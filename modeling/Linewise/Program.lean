import Linewise.Rule
import Linewise.Text.Lines
import Linewise.Token

/-! # Programs

A program is the statements of a source text with the numbers of their lines. A
line that is blank after stripping has no statement, and the first line that
cannot be divided into tokens refuses the whole text.
-/

namespace Linewise

structure Program where
  statements : List Statement := []
  lines : List Int := []
deriving DecidableEq, Repr

namespace Program

/-- The lines of a text with their numbers from one, without the blanks at their ends. -/
def numberedLines (text : String) : List (Int × List Char) :=
  (Text.splitLines text.toList).mapIdx fun i line => ((i : Int) + 1, Text.strip line)

def readLine (line : Int × List Char) : Except Fault (Int × Statement) :=
  match Token.tokenize (String.ofList line.2) (some line.1) with
  | .error fault => .error (.token fault)
  | .ok tokens => (Statement.ofTokens tokens).map (line.1, ·)

def ofText (text : String) : Except Fault Program :=
  (((numberedLines text).filter (·.2 ≠ [])).mapM readLine).map fun statements =>
    ⟨statements.map Prod.snd, statements.map Prod.fst⟩

/-- Each statement with its line, counted from one when the stored lines do not match. -/
def numbered (program : Program) : List (Int × Statement) :=
  if program.lines.length = program.statements.length then
    program.lines.zip program.statements
  else program.statements.mapIdx fun i statement => ((i : Int) + 1, statement)

end Program
end Linewise
