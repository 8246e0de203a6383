import Linewise.Text.Digit
import Linewise.Text.Quoted

/-! # Flaws of a source

A source that is no TOML is refused with the first flaw that is met, and with the
place where it is met as a line and a column. A flaw in a table names the path of
keys that leads there.
-/

namespace Linewise.Toml

inductive Flaw where
  | noStatement
  | textAfterStatement
  | noKey
  | noEqualSign
  | noValue
  /-- The numbers are in the form of a date, but there is no such day. -/
  | noDay
  /-- The quotes that would end a text are missing. -/
  | unclosedLiteral (quotes : String)
  | unclosedText
  | unclosedArray
  | unclosedInlineTable
  | unclosedTableHeader
  | unclosedItemHeader
  /-- A control character in a comment or in a text without escapes. -/
  | controlInLiteral (c : Char)
  | controlInText (c : Char)
  | unknownEscape
  | noHexNumber
  /-- The number of an escape is that of no character. -/
  | noCharacter
  | declaredTwice (path : List String)
  | redefined (path : List String)
  | immutable (path : List String)
  | overwritten
  | duplicateKey (key : String)
deriving DecidableEq, Repr

/-- A path as its quoted keys in parentheses, where a single key is followed by a comma. -/
def showPath (path : List String) : String :=
  "(" ++ ", ".intercalate (path.map Text.quote) ++ (if path.length = 1 then ",)" else ")")

def Flaw.message : Flaw → String
  | noStatement => "Invalid statement"
  | textAfterStatement => "Expected newline or end of document after a statement"
  | noKey => "Invalid initial character for a key part"
  | noEqualSign => "Expected '=' after a key in a key/value pair"
  | noValue => "Invalid value"
  | noDay => "Invalid date or datetime"
  | unclosedLiteral quotes => "Expected " ++ Text.quote quotes
  | unclosedText => "Unterminated string"
  | unclosedArray => "Unclosed array"
  | unclosedInlineTable => "Unclosed inline table"
  | unclosedTableHeader => "Expected ']' at the end of a table declaration"
  | unclosedItemHeader => "Expected ']]' at the end of an array declaration"
  | controlInLiteral c => "Found invalid character " ++ Text.quote c.toString
  | controlInText c => "Illegal character " ++ Text.quote c.toString
  | unknownEscape => "Unescaped '\\' in a string"
  | noHexNumber => "Invalid hex value"
  | noCharacter => "Escaped character is not a Unicode scalar value"
  | declaredTwice path => "Cannot declare " ++ showPath path ++ " twice"
  | redefined path => "Cannot redefine namespace " ++ showPath path
  | immutable path => "Cannot mutate immutable namespace " ++ showPath path
  | overwritten => "Cannot overwrite a value"
  | duplicateKey key => "Duplicate inline table key " ++ Text.quote key

inductive Position where
  | inside (line column : Nat)
  | atEnd
deriving DecidableEq, Repr

def Position.render : Position → String
  | inside line column => "line " ++ toString line ++ ", column " ++ toString column
  | atEnd => "end of document"

/-- The place from where a number of characters are left. Lines and columns count from one. -/
def position (source : List Char) (left : Nat) : Position :=
  let before := source.take (source.length - left)
  if left = 0 then .atEnd
  else .inside (before.count '\n' + 1) ((before.reverse.takeWhile (· ≠ '\n')).length + 1)

inductive Refusal where
  /-- There is a flaw where the given number of characters are left. -/
  | malformed (flaw : Flaw) (left : Nat)
  /-- A decimal number has this many digits, which are too many. -/
  | longNumber (digits : Nat)
deriving DecidableEq, Repr

def refuse {α : Type} (flaw : Flaw) (rest : List Char) : Except Refusal α :=
  .error (.malformed flaw rest.length)

/-- A flaw that shows when the input has been read up to the given rest. -/
def flawAt {α : Type} (rest : List Char) : Except Flaw α → Except Refusal α
  | .ok a => .ok a
  | .error flaw => refuse flaw rest

end Linewise.Toml
