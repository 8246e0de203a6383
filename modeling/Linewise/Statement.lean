import Linewise.Entries

/-! # Statements

One line of source is one statement. Values, conditions and arguments are runs
of tokens taken over as they stand, and the nesting of blocks is only given by
the order of the statements.
-/

namespace Linewise

inductive Statement where
  /-- A variable of a primitive type with its first value. -/
  | variableDecl (name typeName : String) (constant : Bool) (value : List String)
  /-- The head of a function: pairs of a parameter and its type, and the type of the result. -/
  | functionDecl (name : String) (params : List (String × String)) (returns : String)
  | blockEnd
  | assign (name : String) (value : List String)
  /-- Console output of its arguments. -/
  | output (args : List String)
  | returnValue (value : List String)
  | conditional (condition : List String) (isElif : Bool)
  | elseBranch
  | whileLoop (condition : List String)
  /-- A counting loop from zero. -/
  | repeatLoop (times counter : String)
  | call (name : String) (args : List String)
deriving DecidableEq, Repr

namespace Statement

inductive Kind where
  | variableDecl
  | functionDecl
  | blockEnd
  | assign
  | output
  | returnValue
  | conditional
  | elseBranch
  | whileLoop
  | repeatLoop
  | call
deriving DecidableEq, Repr

/-- Every form, in the order in which a line is tried against them. -/
def Kind.all : List Kind :=
  [.variableDecl, .functionDecl, .blockEnd, .assign, .output, .returnValue, .conditional,
    .elseBranch, .whileLoop, .repeatLoop, .call]

def Kind.name : Kind → String
  | .variableDecl => "variable"
  | .functionDecl => "function"
  | .blockEnd => "block_end"
  | .assign => "assign"
  | .output => "output"
  | .returnValue => "return"
  | .conditional => "conditional"
  | .elseBranch => "else"
  | .whileLoop => "while"
  | .repeatLoop => "repeat"
  | .call => "call"

def kind : Statement → Kind
  | variableDecl .. => .variableDecl
  | functionDecl .. => .functionDecl
  | blockEnd => .blockEnd
  | assign .. => .assign
  | output .. => .output
  | returnValue .. => .returnValue
  | conditional .. => .conditional
  | elseBranch => .elseBranch
  | whileLoop .. => .whileLoop
  | repeatLoop .. => .repeatLoop
  | call .. => .call

/-- The type of each parameter; a parameter that is named again keeps its place. -/
def paramTypes (params : List (String × String)) : Entries String :=
  Entries.ofList params

end Statement
end Linewise
