import Linewise.Toml.Nest
import Linewise.Toml.Number

/-! # Values of TOML

The values are texts, truth values, whole numbers, numbers of double precision,
dates, times, arrays and inline tables. An array may run over several lines with
comments between its items; an inline table stays on its line, and a value of it
that is an array or a table is complete. Values may be nested to any depth.
-/

namespace Linewise.Toml

def skipFiller : Nat → List Char → Except Refusal (List Char)
  | 0, rest => .ok rest
  | fuel + 1, cs =>
    match cs.dropWhile isSpaceOrFeed with
    | '#' :: rest => (skipComment ('#' :: rest)).bind (skipFiller fuel)
    | rest => .ok rest

def filler (cs : List Char) : Except Refusal (List Char) :=
  skipFiller (cs.length + 1) cs

def equalSign : List Char → Except Refusal (List Char)
  | '=' :: cs => .ok (skipSpaces cs)
  | rest => refuse .noEqualSign rest

mutual

def valueWith : Nat → List Char → Except Refusal (Value × List Char)
  | 0, cs => refuse .noValue cs
  | fuel + 1, cs =>
    match text? cs with
    | some reading => reading.map fun r => (.text r.1, r.2)
    | none =>
      match cs with
      | 't' :: 'r' :: 'u' :: 'e' :: rest => .ok (.boolean true, rest)
      | 'f' :: 'a' :: 'l' :: 's' :: 'e' :: rest => .ok (.boolean false, rest)
      | '[' :: rest => do
        match ← filler rest with
        | ']' :: rest => return (.list [], rest)
        | rest => (itemsWith fuel rest).map fun r => (.list r.1, r.2)
      | '\x7b' :: rest =>
        match skipSpaces rest with
        | '\x7d' :: rest => .ok (.table [], rest)
        | rest => (entriesWith fuel [] [] rest).map fun r => (.table r.1, r.2)
      | _ => (atom? cs).getD (refuse .noValue cs)

/-- The items of an array up to its closing bracket; a comma may follow the last one. -/
def itemsWith : Nat → List Char → Except Refusal (List Value × List Char)
  | 0, cs => refuse .noValue cs
  | fuel + 1, cs => do
    let (value, rest) ← valueWith fuel cs
    match ← filler rest with
    | ']' :: rest => return ([value], rest)
    | ',' :: rest =>
      match ← filler rest with
      | ']' :: rest => return ([value], rest)
      | rest => (itemsWith fuel rest).map fun r => (value :: r.1, r.2)
    | rest => refuse .unclosedArray rest

def entriesWith : Nat → List (List String) → Entries Value → List Char →
    Except Refusal (Entries Value × List Char)
  | 0, _, _, cs => refuse .noKey cs
  | fuel + 1, complete, entries, cs => do
    let (path, rest) ← key cs
    let (value, rest) ← valueWith fuel (← equalSign rest)
    if coveredBy complete path then refuse (.immutable path) rest
    else
      let last := path.getLastD ""
      let entries ← flawAt rest
        (changeAt false (addEntry (.duplicateKey last) last value) path.dropLast entries)
      match skipSpaces rest with
      | '\x7d' :: rest => return (entries, rest)
      | ',' :: rest =>
        entriesWith fuel (if isNest value then path :: complete else complete) entries
          (skipSpaces rest)
      | rest => refuse .unclosedInlineTable rest

end

/-- A value at the front of the input. No nesting of arrays is deeper than the input is long, and
each level of it takes two steps. -/
def value (cs : List Char) : Except Refusal (Value × List Char) :=
  valueWith (2 * cs.length + 2) cs

def keyValue (cs : List Char) : Except Refusal (List String × Value × List Char) := do
  let (path, rest) ← key cs
  let (v, rest) ← value (← equalSign rest)
  return (path, v, rest)

end Linewise.Toml
