import RelationalGraphQL.Arguments.Filter
import RelationalGraphQL.Arguments.Ordering

/-!
The arguments of a field that choose rows: filters, an identifier, an ordering and a page.
-/

namespace RelationalGraphQL.Arguments

open Sql (Condition OrderItem Parameters)

/-- What a field's arguments ask of its rows. Each entry of `conditions` came from one argument. -/
structure RowChoice (κ : Type) where
  conditions : List (List (Condition κ)) := []
  order : List (OrderItem κ) := []
  limit : Option Nat := none
  offset : Option Nat := none

/-- A computation that binds parameters and may refuse an argument. -/
abbrev Lowering := StateT Parameters (Except ConversionError)

variable {κ : Type}

/-- The conditions of a filter argument, if it is there and constrains anything. -/
def filterArgument (arguments : List (String × Json)) (column : String → κ) (name : String) :
    Lowering (List (List (Condition κ))) :=
  match arguments.lookup name with
  | none => return []
  | some filter => do
    let conditions ← lowerFilter name column filter
    return if conditions.isEmpty then [] else [conditions]

def idArgument (arguments : List (String × Json)) (column : String → κ) : Lowering (List (List (Condition κ))) :=
  match arguments.lookup "id" with
  | none | some .null => return []
  | some id => do
    let bound ← get
    set (bound ++ [Sql.Value.ofJson id])
    return [[.compare (column "id") .eq (bound.length + 1)]]

/-- A page bound: null or an unsigned integer. -/
def readBound (name : String) : Json → Except ConversionError (Option Nat)
  | .null => .ok none
  | value =>
    match value.nat? with
    | some bound => .ok (some bound)
    | none => .error (.invalidArgument name "expected a non-negative integer")

/-- The first of two arguments that is present, as a page bound. -/
def pageBound (arguments : List (String × Json)) (first second : String) : Except ConversionError (Option Nat) :=
  match arguments.lookup first, arguments.lookup second with
  | some value, _ => readBound first value
  | none, some value => readBound second value
  | none, none => .ok none

/-- Reads the arguments of a field. Parameters are bound for `where`, then `filter`, then `id`. -/
def readRowChoice (arguments : List (String × Json)) (column : String → κ) : Lowering (RowChoice κ) := do
  let byWhere ← filterArgument arguments column "where"
  let byFilter ← filterArgument arguments column "filter"
  let byId ← idArgument arguments column
  let limit ← pageBound arguments "limit" "first"
  let offset ← pageBound arguments "offset" "skip"
  let order ← match arguments.lookup "orderBy" with
    | some order => lowerOrder column order
    | none => pure []
  return { conditions := byWhere ++ byFilter ++ byId, order, limit, offset }

end RelationalGraphQL.Arguments
