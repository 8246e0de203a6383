import Linewise.Calendar
import Linewise.Double
import Linewise.Entries
import Linewise.Text.Digit
import Linewise.Text.Excerpt
import Linewise.Text.Quoted

/-! # Values of settings

A setting may be given any value of a configuration file or of a caller: whether
it has the right type is decided when it is used. A value has a truth, the name
of its type, and a text in which it is shown when it is refused.
-/

namespace Linewise

inductive Value where
  /-- The value of a setting that is given as absent. -/
  | null
  | boolean (b : Bool)
  | integer (i : Int)
  | real (d : Float)
  | text (s : String)
  | date (d : Date)
  | time (t : ClockTime)
  | dateTime (d : Date) (t : ClockTime) (offset : Option Offset)
  | list (values : List Value)
  | table (entries : List (String × Value))
deriving Repr, Inhabited

namespace Value

def typeName : Value → String
  | null => "NoneType"
  | boolean _ => "bool"
  | integer _ => "int"
  | real _ => "float"
  | text _ => "str"
  | date _ => "date"
  | time _ => "time"
  | dateTime .. => "datetime"
  | list _ => "list"
  | table _ => "dict"

def fullTypeName (value : Value) : String :=
  match value with
  | date _ | time _ | dateTime .. => "datetime." ++ value.typeName
  | _ => value.typeName

/-- Absent and empty values, zero and falsehood do not count as given. -/
def isTruthy : Value → Bool
  | null => false
  | boolean b => b
  | integer i => i ≠ 0
  | real d => !Double.isZero d
  | text s => s ≠ ""
  | date _ | time _ | dateTime .. => true
  | list values => !values.isEmpty
  | table entries => !entries.isEmpty

mutual

def render : Value → String
  | null => "None"
  | boolean b => if b then "True" else "False"
  | integer i => toString i
  | real d => Double.render d
  | text s => Text.quote s
  | date d => d.render
  | time t => t.render
  | dateTime d t offset => renderDateTime d t offset
  | list values => "[" ++ ", ".intercalate (renderAll values) ++ "]"
  | table entries => "\x7b" ++ ", ".intercalate (renderEntries entries) ++ "\x7d"

def renderAll : List Value → List String
  | [] => []
  | value :: rest => value.render :: renderAll rest

def renderEntries : List (String × Value) → List String
  | [] => []
  | (key, value) :: rest => (Text.quote key ++ ": " ++ value.render) :: renderEntries rest

end

mutual

/-- Whether a value has a text: all its whole numbers are short enough to be written. -/
def isShowable : Value → Bool
  | integer i => i.natAbs < 10 ^ Text.maxDigits
  | list values => allShowable values
  | table entries => entriesShowable entries
  | _ => true

def allShowable : List Value → Bool
  | [] => true
  | value :: rest => value.isShowable && allShowable rest

def entriesShowable : List (String × Value) → Bool
  | [] => true
  | (_, value) :: rest => value.isShowable && entriesShowable rest

end

def shown (value : Value) : String :=
  if value.isShowable then Text.excerpt value.render
  else "<unprintable " ++ value.typeName ++ " object>"

end Value
end Linewise
