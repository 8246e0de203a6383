import Linewise.Console.Layout

/-! # Tables

A table has a title, a head and rows, and is drawn with box characters. Every
column is as wide as its widest cell with a space on both sides. When the table is
wider than the console, its widest columns give way first, and their cells are
broken into several lines.
-/

namespace Linewise.Console

structure Column where
  head : String
  alignment : Alignment := .left
  cells : List String := []
deriving Repr

/-- A table whose columns all have the same number of cells. -/
structure Table where
  title : String
  columns : List Column
deriving Repr

/-- Characters that end a line when the width of a text is measured. -/
def isLineEnd (c : Char) : Bool :=
  let n := c.toNat
  (0x0A ≤ n && n ≤ 0x0D) || (0x1C ≤ n && n ≤ 0x1E) || n == 0x85 || n == 0x2028 || n == 0x2029

def widestLine (cs : List Char) : Nat :=
  ((Text.divide isLineEnd cs).map Text.width).foldl max 0

def cellWidth (cell : String) : Nat :=
  widestLine (dropCursorControls cell.toList) + 2

def Column.naturalWidth (column : Column) : Nat :=
  (column.cells.map cellWidth).foldl max (cellWidth column.head)

/-- The nearest whole number to a quotient; a half goes to the even neighbour. -/
def roundQuotient (numerator denominator : Nat) : Nat :=
  let whole := numerator / denominator
  let twice := 2 * (numerator % denominator)
  if twice < denominator then whole
  else if twice > denominator then whole + 1
  else if whole % 2 = 0 then whole
  else whole + 1

/-- Take a total evenly from the widths that are marked, at most `most` from each; `shares` counts
the marked widths. -/
def takeEvenly (total shares most : Nat) : List (Nat × Bool) → List Nat
  | [] => []
  | (w, true) :: rest =>
    let part := min most (roundQuotient total shares)
    (w - part) :: takeEvenly (total - part) (shares - 1) most rest
  | (w, false) :: rest => w :: takeEvenly total shares most rest

def total (widths : List Nat) : Nat :=
  widths.foldl (· + ·) 0

/-- Take from the widest columns what exceeds the limit, but at most down to the next widest one. -/
def narrowOnce (limit : Nat) (widths : List Nat) : List Nat :=
  let excess := total widths - limit
  let widest := widths.foldl max 0
  let next := (widths.filter (· ≠ widest)).foldl max 0
  takeEvenly excess (widths.count widest) (min excess (widest - next))
    (widths.map fun w => (w, w = widest))

/-- Narrow the widest columns until the table fits. Each round takes at least one column. -/
def narrow (limit : Nat) : Nat → List Nat → List Nat
  | 0, widths => widths
  | rounds + 1, widths =>
    if total widths ≤ limit then widths else narrow limit rounds (narrowOnce limit widths)

def Table.widths (consoleWidth : Nat) (table : Table) : List Nat :=
  let limit := consoleWidth - (table.columns.length + 1)
  let natural := table.columns.map fun c => min c.naturalWidth limit
  narrow limit (total natural) natural

def fill (limit : Nat) (cs : List Char) : List Char :=
  cs ++ List.replicate (limit - Text.width cs) ' '

def cellLines (limit : Nat) (alignment : Alignment) (cell : String) : List (List Char) :=
  (layout (limit - 2) .ellipsis alignment cell.toList).map fun line =>
    fill limit (' ' :: fill (limit - 2) line)

def rowLines (border : Char) (cells : List (Nat × List (List Char))) : List (List Char) :=
  let height := (cells.map fun c => c.2.length).foldl max 1
  (List.range height).map fun i =>
    border :: cells.flatMap fun c =>
      (c.2[i]?.getD (List.replicate c.1 ' ')) ++ [border]

def ruleLine (left middle right stroke : Char) (widths : List Nat) : List Char :=
  left :: ([middle].intercalate (widths.map fun w => List.replicate w stroke) ++ [right])

def Table.lines (consoleWidth : Nat) (table : Table) : List (List Char) :=
  let widths := table.widths consoleWidth
  let sized := widths.zip table.columns
  let whole := total widths + widths.length + 1
  let title :=
    if table.title = "" then [] else layout whole .fold .center table.title.toList
  let head := rowLines '┃' (sized.map fun s => (s.1, cellLines s.1 s.2.alignment s.2.head))
  let count := (table.columns.map fun c => c.cells.length).foldl max 0
  let rows := (List.range count).flatMap fun i =>
    rowLines '│' (sized.map fun s =>
      (s.1, cellLines s.1 s.2.alignment (s.2.cells[i]?.getD "")))
  title ++ [ruleLine '┏' '┳' '┓' '━' widths] ++ head ++ [ruleLine '┡' '╇' '┩' '━' widths] ++
    rows ++ [ruleLine '└' '┴' '┘' '─' widths]

end Linewise.Console
