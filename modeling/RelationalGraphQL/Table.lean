/-!
Ordered tables: association lists whose keys keep the place of their first insertion. Look-up is `List.lookup`.
-/

namespace RelationalGraphQL

/-- Entries by key, in order of first insertion. -/
abbrev Table (α : Type) := List (String × α)

namespace Table

variable {α : Type}

/-- Sets a key: in its old place if the table has it, else at the end. -/
def insert (key : String) (value : α) : List (String × α) → List (String × α)
  | [] => [(key, value)]
  | (k, v) :: rest => if k = key then (key, value) :: rest else (k, v) :: insert key value rest

/-- Sets the keys of a list in turn, so the last value of a key counts. -/
def insertAll (entries : List (String × α)) (table : List (String × α)) : List (String × α) :=
  entries.foldl (fun table (key, value) => insert key value table) table

def ofList (entries : List (String × α)) : List (String × α) := insertAll entries []

/-- Sets a key only if the table does not have it. -/
def insertNew (key : String) (value : α) (table : List (String × α)) : List (String × α) :=
  if (table.lookup key).isSome then table else table ++ [(key, value)]

def erase (key : String) (table : List (String × α)) : List (String × α) :=
  table.filter fun (k, _) => k ≠ key

def contains (key : String) (table : List (String × α)) : Bool := (table.lookup key).isSome

def keys (table : List (String × α)) : List String := table.map Prod.fst

def values (table : List (String × α)) : List α := table.map Prod.snd

end Table

end RelationalGraphQL
