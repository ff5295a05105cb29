import RelationalGraphQL.Config.Basic
import RelationalGraphQL.Error

/-!
The rules that a configuration must keep before it is used: names are identifiers of SQL, keys of fields have a type and
a name, link tables go with many-to-many relations, and limits are in range.
-/

namespace RelationalGraphQL

/-- A letter or underscore, then letters, digits and underscores; all of them ASCII. -/
def isWord : List Char → Bool
  | [] => false
  | c :: rest => (c.isAlpha || c = '_') && rest.all fun c => c.isAlphanum || c = '_'

/-- Whether a text is a name in SQL, which a schema's name and a dot may precede. -/
def isIdentifier (text : String) : Bool :=
  match text.toList.splitOn '.' with
  | [name] => isWord name
  | [qualifier, name] => isWord qualifier && isWord name
  | _ => false

/-- Whether a text names a field of a type. -/
def isFieldKey (text : String) : Bool :=
  match text.toList.splitOn '.' with
  | [typeName, fieldName] => isWord typeName && isWord fieldName
  | _ => false

namespace Config

/-- A rule that a part of the configuration breaks: its code and what to say. -/
abbrev Violation := String × String

def checkIdentifier (key what name : String) : Except Violation Unit :=
  if isIdentifier name then .ok ()
  else .error ("sql_identifier", key ++ ": " ++ what ++ " '" ++ name ++ "' is not a valid SQL identifier")

def checkFieldKey (key : String) : Except Violation Unit :=
  if isFieldKey key then .ok () else .error ("field_key", "'" ++ key ++ "' must have the form Type.field")

def checkLink (key : String) (relation : Relation) : Except Violation Unit :=
  match relation.kind, relation.link with
  | .manyToMany, none => .error ("relation_through", key ++ ": manyToMany relations need a through table")
  | .manyToMany, some link => do
    checkIdentifier key "through.table" link.table
    checkIdentifier key "through.sourceKey" link.sourceKey
    checkIdentifier key "through.targetKey" link.targetKey
  | kind, some _ =>
    .error ("relation_through", key ++ ": only manyToMany relations take a through table, not " ++ kind.text)
  | _, none => .ok ()

def checkRelation (key : String) (relation : Relation) : Except Violation Unit := do
  checkFieldKey key
  checkIdentifier key "table" relation.table
  checkIdentifier key "foreignKey" relation.foreignKey
  checkIdentifier key "references" relation.references
  checkLink key relation

def checkField (key column : String) : Except Violation Unit := do
  checkFieldKey key
  checkIdentifier key "column" column

def checkModel (typeName table : String) : Except Violation Unit := checkIdentifier typeName "table" table

/-- The first rule that a part of the configuration breaks, as a problem at its path. -/
def problemAt (path : String) (checked : Except Violation Unit) : List Problem :=
  match checked with
  | .ok _ => []
  | .error (code, message) => [{ path, code, message }]

def checkDialect (config : Config) : Except Violation Unit :=
  if config.dialect.isEmpty then .error ("length", "dialect cannot be empty") else .ok ()

def checkMaxBatch (config : Config) : Except Violation Unit :=
  let maxBatch := config.execution.loading.maxBatch
  if 1 ≤ maxBatch ∧ maxBatch ≤ 10000 then .ok ()
  else .error ("range", "max_batch must be between 1 and 10000")

def checkTimeout (config : Config) : Except Violation Unit :=
  if config.execution.timeout = some 0 then .error ("range", "timeout_ms must be positive") else .ok ()

/-- The rules that a configuration breaks, at most one at a path and in the order of their paths. -/
def problems (config : Config) : List Problem :=
  problemAt "database.dialect" config.checkDialect
    ++ problemAt "execution.dataloader.max_batch" config.checkMaxBatch
    ++ problemAt "execution.timeout_ms" config.checkTimeout
    ++ problemAt "fields" (config.fields.forM fun (key, column) => checkField key column)
    ++ problemAt "models" (config.models.forM fun (typeName, table) => checkModel typeName table)
    ++ problemAt "relations" (config.relations.forM fun (key, relation) => checkRelation key relation)

/-- The configuration, if it keeps all rules. -/
def validated (config : Config) : Except ConfigError Config :=
  if config.problems.isEmpty then .ok config else .error (.invalid config.problems)

end Config

end RelationalGraphQL
