import Linewise.Fault
import Linewise.Statement

/-! # Rules for the form of a line

Each form of a line is a rule that may accept the first token and the others. The
rules are tried in an order of precedence, and a line that none of them accepts
is a call, so every line with a token has exactly one statement.
-/

namespace Linewise

def primitiveTypes : List String := ["string", "number", "boolean"]

def outputCommands : List String := ["write", "say", "echo", "print"]

/-- Read tokens as pairs of a type and a parameter; a last type without a parameter is dropped. -/
def paramPairs : List String → List (String × String)
  | typeName :: name :: rest => (name, typeName) :: paramPairs rest
  | _ => []

def paramsOfTokens (tokens : List String) : Entries String :=
  Entries.ofList (paramPairs tokens)

inductive Rule where
  | variableDecl
  | constantDecl
  | assign
  | functionDecl
  | blockEnd
  | output
  | returnValue
  | conditional
  | elseBranch
  | whileLoop
  | repeatLoop
deriving DecidableEq, Repr

namespace Rule

/-- A head of the form name, parameters, arrow, type of the result. -/
def functionHead? (args : List String) : Option Statement :=
  match args.reverse with
  | returns :: arrow :: before =>
    if arrow = "->" then
      some (.functionDecl (args.headD "") (paramsOfTokens (before.reverse.drop 1)) returns)
    else none
  | _ => none

/-- The statement of a line with the given first token and the others, if it has this form. -/
def apply : Rule → String → List String → Option Statement
  | variableDecl, command, args =>
    match args with
    | name :: sign :: value =>
      if command ∈ primitiveTypes ∧ sign = "=" then
        some (.variableDecl name command false value)
      else none
    | _ => none
  | constantDecl, command, args =>
    match args with
    | typeName :: name :: sign :: value =>
      if command = "const" ∧ typeName ∈ primitiveTypes ∧ sign = "=" then
        some (.variableDecl name typeName true value)
      else none
    | _ => none
  | assign, command, args =>
    match args with
    | sign :: value => if sign = "=" then some (.assign command value) else none
    | [] => none
  | functionDecl, command, args => if command = "func" then functionHead? args else none
  | blockEnd, command, args => if command = "end" ∧ args = [] then some .blockEnd else none
  | output, command, args => if command ∈ outputCommands then some (.output args) else none
  | returnValue, command, args => if command = "return" then some (.returnValue args) else none
  | conditional, command, args =>
    if command = "if" ∨ command = "elif" then some (.conditional args (command = "elif"))
    else none
  | elseBranch, command, args => if command = "else" ∧ args = [] then some .elseBranch else none
  | whileLoop, command, args => if command = "while" then some (.whileLoop args) else none
  | repeatLoop, command, args =>
    if command = "repeat" then some (.repeatLoop (args[0]?.getD "") (args[2]?.getD "")) else none

def precedence : List Rule :=
  [variableDecl, constantDecl, assign, functionDecl, blockEnd, output, returnValue, conditional,
    elseBranch, whileLoop, repeatLoop]

end Rule

namespace Statement

def ofTokensBy (rules : List Rule) (command : String) (args : List String) : Statement :=
  (rules.findSome? fun rule => rule.apply command args).getD (.call command args)

def ofTokens : List String → Except Fault Statement
  | [] => .error .emptyLine
  | command :: args => .ok (ofTokensBy Rule.precedence command args)

end Statement
end Linewise
