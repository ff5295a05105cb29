import RelationalGraphQL.Error
import RelationalGraphQL.Mapping.Relation
import RelationalGraphQL.Naming.Plural
import RelationalGraphQL.Sql.Fragment

/-!
A mapping of a schema onto a database: tables of types, columns of fields, joins of relations.
-/

namespace RelationalGraphQL

open Naming (pluralize snakeCase)

/-- What is known of the database beside the conventions. -/
structure Mapping where
  schema : Schema
  dialect : Sql.Dialect
  tables : List (String × String) := []
  columns : List ((String × String) × String) := []
  /-- Joins by type and field name with a dot between them. -/
  relations : List (String × Mapping.Relation) := []
  /-- Whether fields that the schema marks as relations are joined by convention. -/
  derivesRelations : Bool := false
  pluralizesTables : Bool := false

namespace Mapping

def fieldKey (typeName fieldName : String) : String := typeName ++ "." ++ fieldName

def mapTable (typeName table : String) (mapping : Mapping) : Mapping :=
  { mapping with tables := Table.insert typeName table mapping.tables }

def mapColumn (typeName fieldName column : String) (mapping : Mapping) : Mapping :=
  let others := mapping.columns.filter fun (key, _) => key ≠ (typeName, fieldName)
  { mapping with columns := ((typeName, fieldName), column) :: others }

def mapRelation (typeName fieldName : String) (relation : Relation) (mapping : Mapping) : Mapping :=
  { mapping with relations := Table.insert (fieldKey typeName fieldName) relation mapping.relations }

def pluralizeTables (enabled : Bool) (mapping : Mapping) : Mapping := { mapping with pluralizesTables := enabled }

/-- The table of a type: the mapped one, or its name in snake case. -/
def tableName (mapping : Mapping) (typeName : String) : String :=
  match mapping.tables.lookup typeName with
  | some table => table
  | none => if mapping.pluralizesTables then pluralize (snakeCase typeName) else snakeCase typeName

/-- The column of a field: the mapped one, the one the schema names, or its name in snake case. -/
def columnName (mapping : Mapping) (typeName fieldName : String) : String :=
  match mapping.columns.lookup (typeName, fieldName) with
  | some column => column
  | none => ((mapping.schema.field? typeName fieldName).bind Schema.Field.column).getD (snakeCase fieldName)

/-- The usual join of a field that a schema marks as a relation, to the table it names or else that of its type. -/
def usualJoin? (schema : Schema) (tableName : String → String) (typeName fieldName : String) : Option Relation := do
  let object ← schema.object? typeName
  let field ← object.fields.lookup fieldName
  let kind ← field.relation
  return .usual typeName field kind (field.table.getD (tableName field.type.namedType))

/-- The join by convention of a field that the schema marks as a relation. -/
def derivedRelation? (mapping : Mapping) (typeName fieldName : String) : Option Relation :=
  usualJoin? mapping.schema mapping.tableName typeName fieldName

/-- The join of a field: the mapped one, or the one by convention. -/
def relation? (mapping : Mapping) (typeName fieldName : String) : Option Relation :=
  match mapping.relations.lookup (fieldKey typeName fieldName) with
  | some relation => some relation
  | none => if mapping.derivesRelations then mapping.derivedRelation? typeName fieldName else none

/-- A field's column under a qualifier. -/
def column (mapping : Mapping) (typeName : String) (qualifier : Option Sql.Qualifier) (fieldName : String) :
    Sql.Column :=
  { qualifier, name := mapping.columnName typeName fieldName }

def unsupported (mapping : Mapping) (capability : String) : ConversionError :=
  .unsupported mapping.dialect.name capability

def requireStatements (mapping : Mapping) : Except ConversionError Unit :=
  if mapping.dialect.buildsStatements then .ok () else .error (mapping.unsupported "statement building")

end Mapping

end RelationalGraphQL
