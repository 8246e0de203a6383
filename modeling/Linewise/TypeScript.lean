import Linewise.Program

/-! # TypeScript

Each statement is written as one line of TypeScript. A statement that opens a
block ends in an opening brace, and the end of a block is a closing brace. The
names of declared types and of results are looked up once in a table of aliases;
all other tokens are taken over unchanged.
-/

namespace Linewise.TypeScript

def builtinAliases : Entries String := [("float", "number")]

def extension : String := ".ts"

def aliasTable (aliases : Entries String) : Entries String :=
  Entries.putAll builtinAliases aliases

/-- The TypeScript name of a type; a name without an alias stands for itself. -/
def typeName (aliases : Entries String) (name : String) : String :=
  (Entries.get? name (aliasTable aliases)).getD name

def spaced (tokens : List String) : String :=
  " ".intercalate tokens

def listed (args : List String) : String :=
  ", ".intercalate args

def line (aliases : Entries String) : Statement → String
  | .variableDecl name type constant value =>
    (if constant then "const " else "let ") ++ name ++ ": " ++ typeName aliases type ++ " = " ++
      spaced value ++ ";"
  | .functionDecl name params returns =>
    "function " ++ name ++ "(" ++ listed (params.map fun p => p.1 ++ ": " ++ p.2) ++ "): " ++
      typeName aliases returns ++ " \x7b"
  | .blockEnd => "\x7d"
  | .assign name value => name ++ " = " ++ spaced value ++ ";"
  | .output args => "console.log(" ++ listed args ++ ");"
  | .returnValue [] => "return;"
  | .returnValue value => "return " ++ spaced value ++ ";"
  | .conditional condition isElif =>
    (if isElif then "\x7d else " else "") ++ "if (" ++ spaced condition ++ ") \x7b"
  | .elseBranch => "\x7d else \x7b"
  | .whileLoop condition => "while (" ++ spaced condition ++ ") \x7b"
  | .repeatLoop times counter =>
    "for (let " ++ counter ++ " = 0; " ++ counter ++ " < " ++ times ++ "; " ++ counter ++ "++) \x7b"
  | .call name args => name ++ "(" ++ listed args ++ ");"

def lines (aliases : Entries String) (program : Program) : List String :=
  program.statements.map (line aliases)

/-- The text of a program, without a line end after the last line. -/
def code (aliases : Entries String) (program : Program) : String :=
  "\n".intercalate (lines aliases program)

end Linewise.TypeScript
