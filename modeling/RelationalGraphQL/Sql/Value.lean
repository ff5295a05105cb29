import RelationalGraphQL.Json.Basic

/-!
Values bound to the parameters of a statement.
-/

namespace RelationalGraphQL.Sql

/-- A value handed to the database beside the statement. Lists are arrays and objects stay JSON documents. -/
inductive Value where
  | null
  | boolean (value : Bool)
  | integer (value : Int)
  | float (value : Binary64)
  | text (value : String)
  | array (items : List Value)
  | json (value : Json)
  deriving Inhabited

namespace Value

mutual

/-- The value bound for a JSON value. An integer beyond the signed 64-bit range keeps its digits as a text. -/
def ofJson : Json → Value
  | .null => .null
  | .bool value => .boolean value
  | .num (.int value) => if value < Int64.bound then .integer value else .text (toString value)
  | .num (.float value) => .float value
  | .str value => .text value
  | .arr items => .array (ofItems items)
  | .obj entries => .json (.obj entries)

def ofItems : List Json → List Value
  | [] => []
  | item :: items => ofJson item :: ofItems items

end

mutual

/-- The JSON form, without a mark of the kind of value. -/
def toJson : Value → Json
  | .null => .null
  | .boolean value => .bool value
  | .integer value => .num (.int value)
  | .float value => .num (.float value)
  | .text value => .str value
  | .array items => .arr (toItems items)
  | .json value => value

def toItems : List Value → List Json
  | [] => []
  | item :: items => toJson item :: toItems items

end

mutual

/-- Reads the unmarked JSON form: the first kind that fits, in the order of the constructors. An integer beyond the
signed 64-bit range fits a float. -/
def read : Json → Value
  | .null => .null
  | .bool value => .boolean value
  | .num (.int value) =>
    if value < Int64.bound then .integer value
    else
      match Binary64.ofInt value with
      | some double => .float double
      | none => .json (.num (.int value))
  | .num (.float value) => .float value
  | .str value => .text value
  | .arr items => .array (readItems items)
  | .obj entries => .json (.obj entries)

def readItems : List Json → List Value
  | [] => []
  | item :: items => read item :: readItems items

end

def text? : Value → Option String
  | .text value => some value
  | _ => none

def integer? : Value → Option Int
  | .integer value => some value
  | _ => none

def boolean? : Value → Option Bool
  | .boolean value => some value
  | _ => none

def isNull : Value → Bool
  | .null => true
  | _ => false

end Value

/-- What stands for a value in a statement: a parameter by its position from 1, or the word for null. -/
inductive Operand where
  | null
  | parameter (position : Nat)
  deriving DecidableEq, Repr

def Operand.text (placeholder : Nat → String) : Operand → String
  | .null => "NULL"
  | .parameter position => placeholder position

/-- The values bound so far; the parameter at position `n` is the n-th of them. -/
abbrev Parameters := List Value

namespace Parameters

def bind (value : Value) (bound : Parameters) : Operand × Parameters :=
  (.parameter (bound.length + 1), bound ++ [value])

/-- Binds a JSON value, unless it is null, which is written out. -/
def marshal (value : Json) (bound : Parameters) : Operand × Parameters :=
  match value with
  | .null => (.null, bound)
  | value => bind (Value.ofJson value) bound

end Parameters

end RelationalGraphQL.Sql
