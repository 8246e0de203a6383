import Linewise.Console.Markup
import Linewise.Console.Table

/-! # Reports

A report is one thing that is written to the console: a record of a level, a text
with markup, a table, or code that is shown as it is. The console has a thousand
columns, and its lines are kept without the spaces at their ends and without
colours.
-/

namespace Linewise.Console

inductive Level where
  | debug
  | info
  | success
  | warning
  | error
deriving DecidableEq, Repr

def Level.number : Level → Int
  | .debug => 10
  | .info => 20
  | .success => 25
  | .warning => 30
  | .error => 40

def Level.name : Level → String
  | .debug => "DEBUG"
  | .info => "INFO"
  | .success => "SUCCESS"
  | .warning => "WARNING"
  | .error => "ERROR"

/-- Something to be written; the texts of records and tables have markup. -/
inductive Report where
  | record (level : Level) (message : String)
  | markup (text : String)
  | table (content : Table)
  | code (text : String)
deriving Repr

def consoleWidth : Nat := 1000

/-- The columns of a level, with the space after it. -/
def levelWidth : Nat := 9

/-- The lines of a record: its level stands before the first line, and the others are indented. -/
def recordLines (level : Level) (message : String) : List (List Char) :=
  (layout (consoleWidth - levelWidth) .fold .left message.toList).mapIdx fun i line =>
    fill levelWidth (if i = 0 then level.name.toList else []) ++ line

def Column.shown (column : Column) : Except MarkupFault Column := do
  return ⟨← Console.shown column.head, column.alignment, ← column.cells.mapM Console.shown⟩

def Table.shown (table : Table) : Except MarkupFault Table := do
  return ⟨← Console.shown table.title, ← table.columns.mapM Column.shown⟩

def Report.lines : Report → Except MarkupFault (List String)
  | .record level message =>
    (shown message).map fun text => (recordLines level text).map trimLine
  | .markup text =>
    (shown text).map fun text => (layout consoleWidth .fold .left text.toList).map trimLine
  | .table content =>
    content.shown.map fun table => (table.lines consoleWidth).map trimLine
  | .code text => .ok ((unwrapped text.toList).map trimLine)

def Report.allLines (reports : List Report) : Except MarkupFault (List String) :=
  (reports.mapM Report.lines).map List.flatten

end Linewise.Console
