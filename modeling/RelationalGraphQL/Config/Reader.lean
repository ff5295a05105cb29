import RelationalGraphQL.Config.Validity
import RelationalGraphQL.Json.Lenient
import RelationalGraphQL.Response.Json
import RelationalGraphQL.Yaml.Reader

/-!
Reading a configuration from a tree of records, maps and scalars. The same rules serve YAML and JSON, which differ only
in what counts as a text, a number or null.
-/

namespace RelationalGraphQL.Config

/-- How a kind of tree presents what a configuration is made of. -/
structure Form (ν : Type) where
  text? : ν → Option String
  /-- One of several fixed words. -/
  word? : ν → Option String
  bool? : ν → Option Bool
  nat? : ν → Option Nat
  /-- Whether a part is null, if that can be told. -/
  isNull? : ν → Option Bool
  /-- The entries of a map; the last of equal keys counts. -/
  entries? : ν → Option (List (String × ν))
  /-- The parts of a record by their keys; other keys do not count. -/
  parts? : List String → ν → Option (List (Option ν))

namespace Form

variable {ν α : Type} (form : Form ν)

def map? (read : ν → Option α) (node : ν) : Option (Table α) := do
  let entries ← (← form.entries? node).mapM fun (key, value) => (read value).map fun value => (key, value)
  return Table.ofList entries

def required? (read : ν → Option α) (part : Option ν) : Option α := part.bind read

def part? (read : ν → Option α) (default : α) : Option ν → Option α
  | none => some default
  | some node => read node

def optional? (read : ν → Option α) : Option ν → Option (Option α)
  | none => some none
  | some node => do if ← form.isNull? node then return none else return some (← read node)

def link? (node : ν) : Option Mapping.LinkTable := do
  match ← form.parts? ["table", "sourceKey", "targetKey"] node with
  | [table, sourceKey, targetKey] =>
    return {
      table := ← required? form.text? table
      sourceKey := ← required? form.text? sourceKey
      targetKey := ← required? form.text? targetKey }
  | _ => none

def relation? (node : ν) : Option Relation := do
  match ← form.parts? ["type", "table", "foreignKey", "references", "joinType", "through"] node with
  | [kind, table, foreignKey, references, join, link] =>
    return {
      kind := ← required? (fun node => (form.word? node).bind RelationKind.ofText?) kind
      table := ← required? form.text? table
      foreignKey := ← required? form.text? foreignKey
      references := ← part? form.text? "id" references
      join := ← part? (fun node => (form.word? node).bind JoinChoice.ofText?) .left join
      link := ← form.optional? form.link? link }
  | _ => none

def scalarKind? (node : ν) : Option ScalarKind := do
  match ← form.parts? ["kind"] node with
  | [kind] => required? (fun node => (form.word? node).bind ScalarKind.ofText?) kind
  | _ => none

def loading? (node : ν) : Option Loading := do
  match ← form.parts? ["max_batch", "batch_delay_ms"] node with
  | [maxBatch, delay] => return { maxBatch := ← part? form.nat? 100 maxBatch, delay := ← part? form.nat? 1 delay }
  | _ => none

def execution? (node : ν) : Option Execution := do
  match ← form.parts? ["timeout_ms", "dataloader"] node with
  | [timeout, loading] =>
    return { timeout := ← form.optional? form.nat? timeout, loading := ← part? form.loading? {} loading }
  | _ => none

def dialect? (node : ν) : Option String := do
  match ← form.parts? ["dialect"] node with
  | [dialect] => part? form.text? "postgresql" dialect
  | _ => none

def pluralizesTables? (node : ν) : Option Bool := do
  match ← form.parts? ["pluralize_tables"] node with
  | [enabled] => part? form.bool? false enabled
  | _ => none

def config? (node : ν) : Option Config := do
  let keys := ["database", "naming", "models", "fields", "relations", "scalars", "execution"]
  match ← form.parts? keys node with
  | [database, naming, models, fields, relations, scalars, execution] =>
    return {
      dialect := ← part? form.dialect? "postgresql" database
      pluralizesTables := ← part? form.pluralizesTables? false naming
      models := ← part? (form.map? form.text?) [] models
      fields := ← part? (form.map? form.text?) [] fields
      relations := ← part? (form.map? form.relation?) [] relations
      scalars := ← part? (form.map? form.scalarKind?) [] scalars
      execution := ← part? form.execution? {} execution }
  | _ => none

end Form

/-- The entries of a YAML mapping with their keys as texts. Nothing written is the empty mapping. -/
def yamlEntries? (document : Yaml.Document) (node : Yaml.Node) : Option (List (String × Yaml.Node)) :=
  match document.resolve node with
  | .mapping entries =>
    entries.mapM fun (key, value) => (document.resolve key).text?.map fun key => (key, value)
  | .scalar .plain _ "" => some []
  | _ => none

/-- The parts of a record in YAML, where no part stands twice. -/
def yamlParts? (document : Yaml.Document) (keys : List String) (node : Yaml.Node) :
    Option (List (Option Yaml.Node)) := do
  let entries ← yamlEntries? document node
  keys.mapM fun key =>
    match entries.filter fun (name, _) => name = key with
    | [] => some none
    | [(_, value)] => some (some value)
    | _ => none

/-- The nodes of a document; a reference reads as what it stands for. -/
def yamlForm (document : Yaml.Document) : Form Yaml.Node where
  text? node := (document.resolve node).text?
  word? node := (document.resolve node).word?
  bool? node := (document.resolve node).bool?
  nat? node := (document.resolve node).nat?
  isNull? node := (document.resolve node).isNull?
  entries? := yamlEntries? document
  parts? := yamlParts? document

def jsonForm : Form Json where
  text? := Json.str?
  word? := Json.word?
  bool? := Json.bool?
  nat? := Json.nat?
  isNull? json := some json.isNull
  entries? := Json.obj?
  parts? := Record.parts?

/-- A configuration in JSON. Its rules are not checked. -/
def ofJson? (json : Json) : Option Config := jsonForm.config? json

/-- A configuration in YAML that keeps its rules. -/
def parse (text : String) : Except ConfigError Config :=
  match (Yaml.parse? text).bind fun document => (yamlForm document).config? document.root with
  | some config => config.validated
  | none => .error (.yaml "the document is not a configuration")

end RelationalGraphQL.Config
