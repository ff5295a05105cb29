import RelationalGraphQL.Arguments.Basic
import RelationalGraphQL.Mapping.Alias
import RelationalGraphQL.Mapping.Basic
import RelationalGraphQL.Sql.Text

/-!
Input objects as INSERT, UPDATE and DELETE statements.
-/

namespace RelationalGraphQL.Mapping

open Sql (Column Conflict ConflictAction Fragment Operand Parameters)

inductive MutationKind where
  | insert
  | update
  | delete
  deriving DecidableEq, Repr

def MutationKind.keyword : MutationKind → String
  | .insert => "INSERT"
  | .update => "UPDATE"
  | .delete => "DELETE"

structure MutationResult where
  kind : MutationKind
  sql : String
  parameters : Parameters

def bareColumn (mapping : Mapping) (typeName fieldName : String) : Fragment :=
  .column { name := mapping.columnName typeName fieldName }

def returningColumns (mapping : Mapping) (typeName : String) (fields : List String) :
    Except ConversionError (List Fragment) :=
  if fields.isEmpty then .ok []
  else if !mapping.dialect.supports .returning then .error (mapping.unsupported "RETURNING")
  else .ok (fields.map (bareColumn mapping typeName))

/-- Binds the values of an input in its order. Nulls are written out. -/
def bindInput : List (String × Json) → Parameters → List (String × Operand) × Parameters
  | [], bound => ([], bound)
  | (field, value) :: rest, bound =>
    let (operand, bound) := Parameters.marshal value bound
    let (operands, bound) := bindInput rest bound
    ((field, operand) :: operands, bound)

def insertWith (mapping : Mapping) (typeName : String) (input : List (String × Json))
    (conflict : Option (Conflict Fragment)) (returning : List String) : Except ConversionError MutationResult := do
  if input.isEmpty then throw (.invalidInput ("INSERT into " ++ typeName ++ " needs at least one field"))
  mapping.requireStatements
  let returning ← returningColumns mapping typeName returning
  let (values, parameters) := bindInput input []
  let statement : Sql.Insert Fragment :=
    { table := mapping.tableName typeName
      columns := values.map fun (field, _) => bareColumn mapping typeName field
      rows := [values.map fun (_, operand) => .operand operand]
      conflict
      returning }
  return { kind := .insert, sql := (statement.map (Fragment.text mapping.dialect)).text, parameters }

def compileInsert (mapping : Mapping) (typeName : String) (input : List (String × Json)) (returning : List String) :
    Except ConversionError MutationResult :=
  insertWith mapping typeName input none returning

/-- What an upsert does on a conflict: it overwrites the columns that are not in conflict, or nothing if that leaves
none. -/
def conflictAction (mapping : Mapping) (typeName : String) (input : List (String × Json)) (conflict : List String)
    (update : Bool) : ConflictAction Fragment :=
  let conflicting := conflict.map (mapping.columnName typeName)
  let columns := (Table.keys input).map (mapping.columnName typeName)
  let others := columns.filter fun column => !conflicting.contains column
  if !update || others.isEmpty then .nothing
  else .update (others.map fun column => (.column { name := column }, .excluded column)) []

/-- Inserts an input object unless it is in conflict with a row on the given fields. -/
def compileUpsert (mapping : Mapping) (typeName : String) (input : List (String × Json)) (conflict : List String)
    (update : Bool) (returning : List String) : Except ConversionError MutationResult := do
  if !mapping.dialect.supports .upsert then throw (mapping.unsupported "ON CONFLICT")
  if conflict.isEmpty then throw (.invalidInput "upsert needs at least one conflict field")
  let action := conflictAction mapping typeName input conflict update
  insertWith mapping typeName input
    (some { columns := conflict.map (bareColumn mapping typeName), action }) returning

/-- The conditions of a mutation's filter, whose operands are bound after the parameters given. -/
def mutationConditions (mapping : Mapping) (typeName aliasName : String) (filter : Json) (bound : Parameters) :
    Except ConversionError (List Fragment × Parameters) := do
  let (conditions, bound) ←
    (Arguments.lowerFilter "where" (mapping.column typeName (some (.aliased aliasName))) filter).run bound
  return (if conditions.isEmpty then [] else [.conjunction conditions], bound)

/-- Sets columns of the rows that a filter picks. The values set are bound before the filter's operands. -/
def compileUpdate (mapping : Mapping) (typeName : String) (set : List (String × Json)) (filter : Json)
    (returning : List String) : Except ConversionError MutationResult := do
  if set.isEmpty then throw (.invalidInput ("UPDATE of " ++ typeName ++ " needs at least one field to set"))
  mapping.requireStatements
  let returning ← returningColumns mapping typeName returning
  let aliasName := initial typeName
  let (values, bound) := bindInput set []
  let (conditions, parameters) ← mutationConditions mapping typeName aliasName filter bound
  let statement : Sql.Update Fragment :=
    { table := mapping.tableName typeName
      aliasName := some aliasName
      assignments := values.map fun (field, operand) => (bareColumn mapping typeName field, .operand operand)
      conditions
      returning }
  return { kind := .update, sql := (statement.map (Fragment.text mapping.dialect)).text, parameters }

def compileDelete (mapping : Mapping) (typeName : String) (filter : Json) (returning : List String) :
    Except ConversionError MutationResult := do
  mapping.requireStatements
  let returning ← returningColumns mapping typeName returning
  let aliasName := initial typeName
  let (conditions, parameters) ← mutationConditions mapping typeName aliasName filter []
  let statement : Sql.Delete Fragment :=
    { table := mapping.tableName typeName, aliasName := some aliasName, conditions, returning }
  return { kind := .delete, sql := (statement.map (Fragment.text mapping.dialect)).text, parameters }

end RelationalGraphQL.Mapping
