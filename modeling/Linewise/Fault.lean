import Linewise.Text.Quoted

/-! # What can go wrong in a translation

Every fault is a cause, and its wording is given in one place. Faults of single
lines carry a position when it is known. A position is written only when it has
a line, and a column only together with its line.
-/

namespace Linewise

inductive TokenCause where
  /-- A string is opened and not closed. -/
  | openString
  /-- A character belongs to no class of tokens. -/
  | strayCharacter (text : String)
  /-- A cause in the words of a caller. -/
  | other (message : String)
deriving DecidableEq, Repr

def TokenCause.message : TokenCause → String
  | .openString => "Invalid String"
  | .strayCharacter text => "Unknown Character: " ++ Text.quote text
  | .other message => message

/-- A line that cannot be divided into tokens, with its number and the column, counted from one. -/
structure TokenFault where
  cause : TokenCause
  line : Option Int := none
  column : Option Int := none
deriving DecidableEq, Repr

def TokenFault.message (fault : TokenFault) : String :=
  match fault.line, fault.column with
  | none, _ => fault.cause.message
  | some line, none => fault.cause.message ++ " (line " ++ toString line ++ ")"
  | some line, some column =>
    fault.cause.message ++ " (line " ++ toString line ++ ", col " ++ toString column ++ ")"

/-- The lines that need an open block without opening one. -/
inductive Dependent where
  | close
  | elseBranch
  | elifBranch
deriving DecidableEq, Repr

def Dependent.keyword : Dependent → String
  | .close => "end"
  | .elseBranch => "else"
  | .elifBranch => "elif"

inductive BlockFault where
  /-- A line needs an open block where none is open. -/
  | outside (dependent : Dependent) (line : Int)
  /-- The blocks opened on these lines are still open at the end. -/
  | unclosed (lines : List Int)
  /-- A cause in the words of a caller. -/
  | other (message : String) (line : Option Int)
deriving DecidableEq, Repr

/-- The line at fault; there is none when the end of the program is reached. -/
def BlockFault.line : BlockFault → Option Int
  | .outside _ line => some line
  | .unclosed _ => none
  | .other _ line => line

def BlockFault.cause : BlockFault → String
  | .outside dependent _ => "'" ++ dependent.keyword ++ "' without an open block"
  | .unclosed lines =>
    toString lines.length ++ " block(s) never closed (opened on line " ++
      ", ".intercalate (lines.map toString) ++ ")"
  | .other message _ => message

def BlockFault.message (fault : BlockFault) : String :=
  match fault.line with
  | none => fault.cause
  | some line => fault.cause ++ " (line " ++ toString line ++ ")"

inductive Fault where
  | token (fault : TokenFault)
  | block (fault : BlockFault)
  /-- A line without tokens has no statement. -/
  | emptyLine
  /-- A fault in the words of a caller. -/
  | other (message : String)
deriving DecidableEq, Repr

def Fault.message : Fault → String
  | .token fault => fault.message
  | .block fault => fault.message
  | .emptyLine => "Cannot classify an empty line."
  | .other message => message

end Linewise
