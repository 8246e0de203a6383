import Linewise.Statement
import Linewise.Text.Quoted

/-! # The fields of a statement in words

A statement is described by its fields, each with its name and its value. A run
of tokens is one text with single spaces, every text is quoted, and parameters
are listed in braces with their types.
-/

namespace Linewise

inductive FieldValue where
  | text (s : String)
  | tokens (ts : List String)
  | flag (b : Bool)
  | params (ps : Entries String)
deriving DecidableEq, Repr

def FieldValue.describe : FieldValue → String
  | text s => Text.quote s
  | tokens ts => Text.quote (" ".intercalate ts)
  | flag b => if b then "True" else "False"
  | params ps =>
    "\x7b" ++ ", ".intercalate (ps.map fun p => Text.quote p.1 ++ ": " ++ Text.quote p.2) ++ "\x7d"

namespace Statement

def fields : Statement → List (String × FieldValue)
  | variableDecl name typeName constant value =>
    [("name", .text name), ("type_name", .text typeName), ("constant", .flag constant),
      ("value", .tokens value)]
  | functionDecl name params returns =>
    [("name", .text name), ("params", .params (paramTypes params)), ("returns", .text returns)]
  | blockEnd => []
  | assign name value => [("name", .text name), ("value", .tokens value)]
  | output args => [("args", .tokens args)]
  | returnValue value => [("value", .tokens value)]
  | conditional condition isElif => [("condition", .tokens condition), ("is_elif", .flag isElif)]
  | elseBranch => []
  | whileLoop condition => [("condition", .tokens condition)]
  | repeatLoop times counter => [("times", .text times), ("var", .text counter)]
  | call name args => [("name", .text name), ("args", .tokens args)]

def describe (statement : Statement) : String :=
  ", ".intercalate (statement.fields.map fun f => f.1 ++ "=" ++ f.2.describe)

end Statement
end Linewise
