import Linewise.Toml.Flaw
import Linewise.Value

/-! # Tables within tables

A path of keys leads from a table to a table within it, and tables that are not
there yet are made on the way. Where a key holds an array of tables, the path goes
on in its last table.
-/

namespace Linewise.Toml

/-- Change the table at a path of keys, or fail where the path meets another value. -/
def changeAt (throughArrays : Bool) (change : Entries Value → Except Flaw (Entries Value)) :
    List String → Entries Value → Except Flaw (Entries Value)
  | [], entries => change entries
  | key :: keys, entries =>
    match entries.get? key with
    | none =>
      (changeAt throughArrays change keys []).map fun t => entries.put key (.table t)
    | some (.table inner) =>
      (changeAt throughArrays change keys inner).map fun t => entries.put key (.table t)
    | some (.list values) =>
      match throughArrays, values.getLast? with
      | true, some (.table inner) =>
        (changeAt throughArrays change keys inner).map fun t =>
          entries.put key (.list (values.dropLast ++ [.table t]))
      | _, _ => .error .overwritten
    | some _ => .error .overwritten

def addEntry (taken : Flaw) (key : String) (value : Value) (entries : Entries Value) :
    Except Flaw (Entries Value) :=
  match entries.get? key with
  | none => .ok (entries.put key value)
  | some _ => .error taken

def addToArray (key : String) (entries : Entries Value) : Except Flaw (Entries Value) :=
  match entries.get? key with
  | none => .ok (entries.put key (.list [.table []]))
  | some (.list values) => .ok (entries.put key (.list (values ++ [.table []])))
  | some _ => .error .overwritten

/-- Arrays and tables, which are complete once they have been written as values. -/
def isNest : Value → Bool
  | .list _ => true
  | .table _ => true
  | _ => false

/-- Whether some of the given paths leads to the place of a path or above it. -/
def coveredBy (covers : List (List String)) (path : List String) : Bool :=
  covers.any (·.isPrefixOf path)

end Linewise.Toml
