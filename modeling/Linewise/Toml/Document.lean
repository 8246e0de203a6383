import Linewise.Toml.Reader

/-! # Documents of TOML

A document is a sequence of lines that open a table, open the next table of an
array, or give a key its value. A table is opened once; a key has one value; and
what a dotted key has made, or what is complete as a value, is not opened again.
-/

namespace Linewise.Toml

structure Draft where
  entries : Entries Value := []
  /-- The table that keys are given values in. -/
  header : List String := []
  /-- Tables that may not be opened again. -/
  opened : List (List String) := []
  /-- Values to which nothing may be added. -/
  complete : List (List String) := []
  /-- Tables made by dotted keys, which count as opened from the next header on. -/
  dotted : List (List String) := []

namespace Draft

def isComplete (draft : Draft) (path : List String) : Bool :=
  coveredBy draft.complete path

/-- A header comes: the tables made by dotted keys are opened. -/
def settle (draft : Draft) : Draft :=
  { draft with opened := draft.dotted ++ draft.opened, dotted := [] }

def openTable (path : List String) (draft : Draft) : Except Flaw Draft :=
  if path ∈ draft.opened ∨ draft.isComplete path then .error (.declaredTwice path)
  else
    (changeAt true .ok path draft.entries).map fun entries =>
      { draft with entries := entries, header := path, opened := path :: draft.opened }

def openItem (path : List String) (draft : Draft) : Except Flaw Draft :=
  if draft.isComplete path then .error (.immutable path)
  else
    (changeAt true (addToArray (path.getLastD "")) path.dropLast draft.entries).map fun entries =>
      { draft with
        entries := entries
        header := path
        opened := path :: draft.opened.filter fun p => !path.isPrefixOf p
        complete := draft.complete.filter fun p => !path.isPrefixOf p }

/-- The tables that a dotted key leads through, below the header. -/
def passed (header path : List String) : List (List String) :=
  (List.range (path.length - 1)).map fun i => header ++ path.take (i + 1)

def assign (path : List String) (value : Value) (draft : Draft) : Except Flaw Draft :=
  let through := passed draft.header path
  let table := draft.header ++ path.dropLast
  match through.find? (· ∈ draft.opened) with
  | some namespacePath => .error (.redefined namespacePath)
  | none =>
    if draft.isComplete table then .error (.immutable table)
    else
      let add := addEntry .overwritten (path.getLastD "") value
      (changeAt true add table draft.entries).map fun entries =>
        { draft with
          entries := entries
          dotted := through ++ draft.dotted
          complete :=
            if isNest value then (draft.header ++ path) :: draft.complete else draft.complete }

end Draft

def closing (brackets : List Char) (missing : Flaw) (cs : List Char) : Except Refusal (List Char) :=
  if brackets.isPrefixOf cs then .ok (skipSpaces (cs.drop brackets.length))
  else refuse missing cs

def statement (draft : Draft) : List Char → Except Refusal (Draft × List Char)
  | '[' :: '[' :: cs => do
    let (path, rest) ← key (skipSpaces cs)
    let draft ← flawAt rest (draft.settle.openItem path)
    return (draft, ← closing [']', ']'] .unclosedItemHeader rest)
  | '[' :: cs => do
    let (path, rest) ← key (skipSpaces cs)
    let draft ← flawAt rest (draft.settle.openTable path)
    return (draft, ← closing [']'] .unclosedTableHeader rest)
  | '#' :: cs => .ok (draft, '#' :: cs)
  | c :: cs =>
    if isBareKeyChar c ∨ c = '"' ∨ c = '\x27' then do
      let (path, v, rest) ← keyValue (c :: cs)
      let draft ← flawAt rest (draft.assign path v)
      return (draft, skipSpaces rest)
    else refuse .noStatement (c :: cs)
  | [] => .ok (draft, [])

def lines : Nat → Draft → List Char → Except Refusal Draft
  | 0, draft, _ => .ok draft
  | fuel + 1, draft, cs =>
    match skipSpaces cs with
    | [] => .ok draft
    | '\n' :: rest => lines fuel draft rest
    | c :: rest => do
      let (draft, rest) ← statement draft (c :: rest)
      match ← skipComment rest with
      | [] => return draft
      | '\n' :: rest => lines fuel draft rest
      | rest => refuse .textAfterStatement rest

/-- Turn each CRLF into a line feed; a carriage return by itself stays. -/
def dropReturns : List Char → List Char
  | [] => []
  | '\r' :: '\n' :: cs => '\n' :: dropReturns cs
  | c :: cs => c :: dropReturns cs

def parse (source : String) : Except Refusal (Entries Value) :=
  let cs := dropReturns source.toList
  (lines (cs.length + 1) {} cs).map Draft.entries

/-- The place of a flaw in a source, where each CRLF counts as one character. -/
def positionIn (source : String) (left : Nat) : Position :=
  position (dropReturns source.toList) left

end Linewise.Toml
