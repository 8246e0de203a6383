/-! # Entries in order of arrival

A finite map as the list of its entries. A key that is written again keeps its
place and takes the new value; a new key comes last.
-/

namespace Linewise

/-- Entries of a map, in the order in which their keys arrived. -/
abbrev Entries (α : Type) := List (String × α)

namespace Entries

variable {α : Type}

def put (key : String) (value : α) : Entries α → Entries α
  | [] => [(key, value)]
  | (k, v) :: rest => if k = key then (key, value) :: rest else (k, v) :: put key value rest

def putAll (base : Entries α) (new : List (String × α)) : Entries α :=
  new.foldl (fun entries e => put e.1 e.2 entries) base

/-- The map that a list of entries gives, the later entry of a key counting. -/
def ofList (entries : List (String × α)) : Entries α :=
  putAll [] entries

def get? (key : String) : Entries α → Option α
  | [] => none
  | (k, v) :: rest => if k = key then some v else get? key rest

def keys (entries : Entries α) : List String :=
  entries.map Prod.fst

theorem get?_put (key : String) (value : α) (entries : Entries α) (k : String) :
    get? k (put key value entries) = if key = k then some value else get? k entries := by
  induction entries with
  | nil => simp [put, get?]
  | cons e rest ih => grind [put, get?]

end Entries
end Linewise
