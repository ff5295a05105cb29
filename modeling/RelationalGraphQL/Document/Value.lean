import RelationalGraphQL.Json.Printer

/-!
Values written in a document, and their JSON form in either direction.
-/

namespace RelationalGraphQL.Document

/-- A value as it is written. A float too large for a double has no number. -/
inductive Value where
  | variable (name : String)
  | int (value : Int)
  | float (value : Option Binary64)
  | text (value : String)
  | boolean (value : Bool)
  | null
  | enum (name : String)
  | list (items : List Value)
  | object (entries : List (String × Value))
  deriving Inhabited

namespace Value

mutual

/-- The JSON form, with variables replaced; a variable that has no value is null, and so is a float without a
number. -/
def toJson (variableValues : List (String × Json)) : Value → Json
  | .variable name => (variableValues.lookup name).getD .null
  | .int value => .num (.int value)
  | .float value => Json.ofDouble? value
  | .text value => .str value
  | .boolean value => .bool value
  | .null => .null
  | .enum name => .str name
  | .list items => .arr (itemsToJson variableValues items)
  | .object entries => .obj (entriesToJson variableValues entries)

def itemsToJson (variableValues : List (String × Json)) : List Value → List Json
  | [] => []
  | item :: items => item.toJson variableValues :: itemsToJson variableValues items

def entriesToJson (variableValues : List (String × Json)) : List (String × Value) → List (String × Json)
  | [] => []
  | (key, value) :: entries => (key, value.toJson variableValues) :: entriesToJson variableValues entries

end

/-- The JSON form of a value that stands where no variable can. -/
def constant (value : Value) : Json := value.toJson []

/-- The JSON forms of named values, of which the last of a name counts. -/
def argumentTable (variableValues : List (String × Json)) (arguments : List (String × Value)) :
    List (String × Json) :=
  Table.ofList (entriesToJson variableValues arguments)

end Value

mutual

/-- A JSON value in the notation of documents: bare keys, and a blank after each comma and colon. -/
def literal : Json → String
  | .null => "null"
  | .bool value => if value then "true" else "false"
  | .num value => Json.numberText value
  | .str value => Json.quote value
  | .arr items => "[" ++ ", ".intercalate (itemLiterals items) ++ "]"
  | .obj entries => "\x7b" ++ ", ".intercalate (entryLiterals entries) ++ "\x7d"

def itemLiterals : List Json → List String
  | [] => []
  | item :: items => literal item :: itemLiterals items

def entryLiterals : List (String × Json) → List String
  | [] => []
  | (key, value) :: entries => (key ++ ": " ++ literal value) :: entryLiterals entries

end

end RelationalGraphQL.Document
