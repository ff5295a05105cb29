import RelationalGraphQL.Error
import RelationalGraphQL.Json.Basic

/-!
Orderings: an object with a `field` and, if it wants, a `direction` and a place for nulls; or a list of such objects.
-/

namespace RelationalGraphQL.Arguments

open Sql (Direction NullsOrder OrderItem)

inductive OrderFault where
  | notAnOrdering
  | notOrderings
  | fieldExpected
  | unknownDirection (text : String)
  | directionExpected
  | unknownNulls (text : String)
  | nullsExpected
  deriving DecidableEq, Repr

def OrderFault.message : OrderFault → String
  | .notAnOrdering => "expected an ordering object or a list of them"
  | .notOrderings => "expected a list of ordering objects"
  | .fieldExpected => "each ordering needs a string `field`"
  | .unknownDirection text => "unknown direction `" ++ text ++ "`"
  | .directionExpected => "`direction` must be ASC or DESC"
  | .unknownNulls text => "unknown nulls ordering `" ++ text ++ "`"
  | .nullsExpected => "`nulls` must be FIRST or LAST"

/-- The direction of an ordering, ascending unless it says otherwise. -/
def readDirection : Option Json → Except OrderFault Direction
  | none | some .null => .ok .asc
  | some (.str text) =>
    match Direction.parse? text with
    | some direction => .ok direction
    | none => .error (.unknownDirection text)
  | some _ => .error .directionExpected

def readNulls : Option Json → Except OrderFault (Option NullsOrder)
  | none | some .null => .ok none
  | some (.str text) =>
    match NullsOrder.parse? text with
    | some nulls => .ok (some nulls)
    | none => .error (.unknownNulls text)
  | some _ => .error .nullsExpected

variable {κ : Type}

def readOrderItem (column : String → κ) (entries : List (String × Json)) : Except OrderFault (OrderItem κ) :=
  match entries.lookup "field" with
  | some (.str field) => do
    let direction ← readDirection (entries.lookup "direction")
    let nulls ← readNulls (entries.lookup "nulls")
    return { column := column field, direction, nulls }
  | _ => .error .fieldExpected

def readOrderItems (column : String → κ) : List Json → Except OrderFault (List (OrderItem κ))
  | [] => return []
  | .obj entries :: rest => do
    let item ← readOrderItem column entries
    return item :: (← readOrderItems column rest)
  | _ :: _ => .error .notOrderings

/-- The orderings of an argument; null orders nothing. -/
def readOrder (column : String → κ) : Json → Except OrderFault (List (OrderItem κ))
  | .null => return []
  | .obj entries => return [← readOrderItem column entries]
  | .arr items => readOrderItems column items
  | _ => .error .notAnOrdering

def lowerOrder (column : String → κ) (order : Json) : Except ConversionError (List (OrderItem κ)) :=
  match readOrder column order with
  | .ok items => .ok items
  | .error fault => .error (.invalidArgument "orderBy" fault.message)

end RelationalGraphQL.Arguments
