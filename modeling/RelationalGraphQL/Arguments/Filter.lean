import RelationalGraphQL.Error
import RelationalGraphQL.Sql.Condition
import RelationalGraphQL.Sql.Value

/-!
Filter objects as conditions. The keys of an object hold together; `_and`, `_or` and `_not` combine filters; any other
key is a field, with a value it equals or an object of operators. Every operand becomes a parameter.
-/

namespace RelationalGraphQL.Arguments

open Sql (BinaryOperator Condition Operand Parameters)

inductive FilterOperator where
  | compare (operator : BinaryOperator)
  | anyOf
  | noneOf
  | isNull
  deriving DecidableEq, Repr

/-- The operator of a name, which may be written with or without the leading underscore. -/
def FilterOperator.ofName? : String → Option FilterOperator
  | "_eq" | "eq" => some (.compare .eq)
  | "_neq" | "neq" | "_ne" | "ne" => some (.compare .notEq)
  | "_gt" | "gt" => some (.compare .gt)
  | "_gte" | "gte" | "_ge" | "ge" => some (.compare .gtEq)
  | "_lt" | "lt" => some (.compare .lt)
  | "_lte" | "lte" | "_le" | "le" => some (.compare .ltEq)
  | "_like" | "like" => some (.compare .like)
  | "_ilike" | "ilike" => some (.compare .iLike)
  | "_contains" | "contains" => some (.compare .jsonContains)
  | "_contained_by" | "contained_by" | "containedBy" => some (.compare .jsonContainedBy)
  | "_in" | "in" => some .anyOf
  | "_nin" | "nin" | "_not_in" | "not_in" => some .noneOf
  | "_is_null" | "is_null" | "isNull" => some .isNull
  | _ => none

inductive FilterKey where
  | all
  | any
  | not
  | field
  deriving DecidableEq, Repr

def FilterKey.ofName : String → FilterKey
  | "_and" | "AND" => .all
  | "_or" | "OR" => .any
  | "_not" | "NOT" => .not
  | _ => .field

inductive FilterFault where
  | notAnObject
  | branchesExpected (key : String)
  | objectExpected (key : String)
  | unknownOperator (name field : String)
  | nullOperand (operator : BinaryOperator)
  | listExpected
  | booleanExpected
  deriving DecidableEq, Repr

def FilterFault.message : FilterFault → String
  | .notAnObject => "expected an input object"
  | .branchesExpected key => "`" ++ key ++ "` expects a list of input objects"
  | .objectExpected key => "`" ++ key ++ "` expects an input object"
  | .unknownOperator name field => "unknown operator `" ++ name ++ "` on `" ++ field ++ "`"
  | .nullOperand operator => "operator `" ++ operator.symbol ++ "` needs a non-null operand"
  | .listExpected => "`_in` / `_nin` expect a list"
  | .booleanExpected => "`_is_null` expects a boolean"

/-- A computation that binds parameters and may refuse a filter. -/
abbrev FilterM := StateT Parameters (Except FilterFault)

def bindOperand (value : Json) : FilterM Nat := do
  let bound ← get
  set (bound ++ [Sql.Value.ofJson value])
  return bound.length + 1

variable {κ : Type}

/-- The condition that one operator puts on a column. Equality with null asks whether the column is null. -/
def operatorCondition (column : κ) (operator : FilterOperator) (operand : Json) : FilterM (Condition κ) :=
  match operator, operand with
  | .compare .eq, .null => return .isNull column
  | .compare .notEq, .null => return .isNotNull column
  | .compare operator, .null => throw (.nullOperand operator)
  | .compare operator, operand => return .compare column operator (← bindOperand operand)
  | .anyOf, .arr items => return .anyOf column (← bindOperand (.arr items))
  | .noneOf, .arr items => return .noneOf column (← bindOperand (.arr items))
  | .anyOf, _ | .noneOf, _ => throw .listExpected
  | .isNull, .bool true => return .isNull column
  | .isNull, .bool false => return .isNotNull column
  | .isNull, _ => throw .booleanExpected

def operatorConditions (column : κ) (field : String) : List (String × Json) → FilterM (List (Condition κ))
  | [] => return []
  | (name, operand) :: rest => do
    match FilterOperator.ofName? name with
    | none => throw (.unknownOperator name field)
    | some operator =>
      let condition ← operatorCondition column operator operand
      return condition :: (← operatorConditions column field rest)

def fieldConditions (column : String → κ) (field : String) : Json → FilterM (List (Condition κ))
  | .obj operators => operatorConditions (column field) field operators
  | operand => return [← operatorCondition (column field) (.compare .eq) operand]

/-- A disjunction of branches, given what was bound before them. A branch without conditions holds of every row, so
the whole disjunction does: it disappears together with its parameters. -/
def disjoin (before : Parameters) (branches : List (List (Condition κ))) : FilterM (List (Condition κ)) := do
  if branches.any List.isEmpty then
    set before
    return []
  else if branches.isEmpty then return []
  else return [.disjunction branches]

def isObject : Json → Bool
  | .obj _ => true
  | _ => false

mutual

/-- The conditions of a filter object, which hold together. -/
def conditions (column : String → κ) : List (String × Json) → FilterM (List (Condition κ))
  | [] => return []
  | (key, value) :: rest => do
    let here ← entryConditions column key value
    return here ++ (← conditions column rest)

/-- The conditions of one entry of a filter object. A combinator joins a list of objects, or a single one. -/
def entryConditions (column : String → κ) (key : String) (value : Json) : FilterM (List (Condition κ)) :=
  match FilterKey.ofName key, value with
  | .all, .obj entries => conditions column entries
  | .all, .arr items =>
    if items.all isObject then return (← branchConditions column items).flatten else throw (.branchesExpected key)
  | .any, .obj entries => do
    let before ← get
    disjoin before [← conditions column entries]
  | .any, .arr items =>
    if items.all isObject then do
      let before ← get
      disjoin before (← branchConditions column items)
    else throw (.branchesExpected key)
  | .all, _ | .any, _ => throw (.branchesExpected key)
  | .not, .obj entries => return [.negation (← conditions column entries)]
  | .not, _ => throw (.objectExpected key)
  | .field, value => fieldConditions column key value

def branchConditions (column : String → κ) : List Json → FilterM (List (List (Condition κ)))
  | [] => return []
  | .obj entries :: rest => do
    let branch ← conditions column entries
    return branch :: (← branchConditions column rest)
  | _ :: rest => branchConditions column rest

end

/-- The conditions of a filter argument; null constrains nothing. -/
def filterConditions (column : String → κ) : Json → FilterM (List (Condition κ))
  | .null => return []
  | .obj entries => conditions column entries
  | _ => throw .notAnObject

def lowerFilter (argument : String) (column : String → κ) (filter : Json) :
    StateT Parameters (Except ConversionError) (List (Condition κ)) :=
  fun bound =>
    match (filterConditions column filter).run bound with
    | .ok result => .ok result
    | .error fault => .error (.invalidArgument argument fault.message)

end RelationalGraphQL.Arguments
