import RelationalGraphQL.Config.Basic
import RelationalGraphQL.Mapping.Builder
import RelationalGraphQL.Sql.Dialect
import RelationalGraphQL.Text.Split

/-!
What a configuration makes: a mapping of a schema, and a schema with coercions attached to its scalars.
-/

namespace RelationalGraphQL

namespace Config

def sqlDialect (config : Config) : Except ConfigError Sql.Dialect :=
  match Sql.Dialect.ofName? config.dialect with
  | some dialect => .ok dialect
  | none => .error (.unsupportedDialect config.dialect)

/-- The type and the field of a key, cut at its first dot. -/
def splitFieldKey (part key : String) : Except ConfigError (String × String) :=
  match Text.splitOnce '.' key.toList with
  | some (typeName, fieldName) => .ok (String.ofList typeName, String.ofList fieldName)
  | none => .error (.invalidKey part key "expected `Type.field`")

/-- The configured scalars that a schema knows. -/
def knownScalars (config : Config) (schema : Schema) : List (String × ScalarKind) :=
  config.scalars.filter fun (name, _) => (schema.scalar? name).isSome

/-- Attaches the configured coercions to the scalars that the schema knows. -/
def registerScalars (config : Config) (schema : Schema) : Schema :=
  (config.knownScalars schema).foldl
    (fun schema (name, kind) => schema.registerScalar name (Scalar.marshaler kind)) schema

/-- The steps that set up a mapping: the flag, the tables, the columns and the joins. -/
def settings (config : Config) : Except ConfigError (List Mapping.Setting) := do
  let columns ← config.fields.mapM fun (key, column) => do
    let (typeName, fieldName) ← splitFieldKey "fields" key
    return .column typeName fieldName column
  let joins ← config.relations.mapM fun (key, relation) => do
    let (typeName, fieldName) ← splitFieldKey "relations" key
    return .join typeName fieldName relation.toMapping
  let tables := config.models.map fun (typeName, table) => .table typeName table
  return .plural config.pluralizesTables :: tables ++ columns ++ joins

end Config

/-- The mapping of a schema by a configuration, with relations by convention where none is configured. -/
def Mapping.Builder.ofConfig (schema : Schema) (config : Config) : Except ConfigError Builder := do
  let dialect ← config.sqlDialect
  return (ofSchema schema dialect).setAll (← config.settings)

end RelationalGraphQL

