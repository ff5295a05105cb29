import RelationalGraphQL.Document.Value
import RelationalGraphQL.Schema.Basic
import RelationalGraphQL.Selection.Basic

/-!
Introspection: a schema described to those who query it.
-/

namespace RelationalGraphQL.Schema

/-- A thing that introspection describes. -/
inductive MetaNode where
  | schema
  | type (type : TypeRef)
  | field (field : Field)
  | inputValue (value : InputValue)
  | enumValue (value : EnumValue)
  | directive (directive : Directive)

/-- What a field of such a thing holds. -/
inductive MetaValue where
  | leaf (value : Json)
  | one (node : Option MetaNode)
  | many (nodes : List MetaNode)

namespace MetaNode

def typename : MetaNode → String
  | .schema => "__Schema"
  | .type _ => "__Type"
  | .field _ => "__Field"
  | .inputValue _ => "__InputValue"
  | .enumValue _ => "__EnumValue"
  | .directive _ => "__Directive"

def ofTypeName (name : String) : MetaNode := .type (.named name)

end MetaNode

namespace MetaValue

def null : MetaValue := .leaf .null

def text (value : String) : MetaValue := .leaf (.str value)

def text? (value : Option String) : MetaValue := .leaf (Json.ofStr? value)

def truth (value : Bool) : MetaValue := .leaf (.bool value)

end MetaValue

def schemaField (schema : Schema) (name : String) : MetaValue :=
  let root (type : Option String) : MetaValue := .one (type.map MetaNode.ofTypeName)
  match name with
  | "types" =>
    .many ((schema.typeNames.filter fun type => !type.startsWith "__").map MetaNode.ofTypeName)
  | "queryType" => root schema.queryType
  | "mutationType" => root schema.mutationType
  | "subscriptionType" => root schema.subscriptionType
  | "directives" => .many (schema.directives.map .directive)
  | _ => .null

/-- A field of a wrapped type: its kind, or what it wraps. -/
def wrapperField (kind : String) (inner : TypeRef) (name : String) : MetaValue :=
  match name with
  | "kind" => .text kind
  | "ofType" => .one (some (.type inner))
  | _ => .null

/-- A field of a named type. Deprecated parts are left out unless they are asked for. -/
def namedTypeField (schema : Schema) (type : String) (deprecated : Bool) (name : String) : MetaValue :=
  match name with
  | "kind" => .text? ((schema.typeKind? type).map TypeKind.text)
  | "name" => .text type
  | "description" => .text? (schema.description? type)
  | "fields" =>
    match schema.fields? type with
    | some fields => .many (((Table.values fields).filter fun field => deprecated || !field.isDeprecated).map .field)
    | none => .null
  | "interfaces" =>
    match schema.object? type with
    | some object => .many (object.interfaces.map MetaNode.ofTypeName)
    | none => if schema.typeKind? type = some .interface then .many [] else .null
  | "possibleTypes" =>
    if schema.typeKind? type = some .interface || schema.typeKind? type = some .union then
      .many ((schema.possibleTypes type).map MetaNode.ofTypeName)
    else .null
  | "enumValues" =>
    match schema.enum? type with
    | some enum => .many ((enum.values.filter fun value => deprecated || value.deprecation.isNone).map .enumValue)
    | none => .null
  | "inputFields" =>
    match schema.input? type with
    | some input => .many ((Table.values input.fields).map .inputValue)
    | none => .null
  | _ => .null

/-- The value of a field of a described thing; unknown fields are null. -/
def metaField (schema : Schema) (node : MetaNode) (name : String) (arguments : List (String × Json)) : MetaValue :=
  let deprecated := ((arguments.lookup "includeDeprecated").bind Json.bool?).getD false
  match node with
  | .schema => schema.schemaField name
  | .type (.named type) => schema.namedTypeField type deprecated name
  | .type (.list inner) => wrapperField "LIST" inner name
  | .type (.nonNull inner) => wrapperField "NON_NULL" inner name
  | .field field =>
    match name with
    | "name" => .text field.name
    | "description" => .text? field.description
    | "args" => .many (field.arguments.map .inputValue)
    | "type" => .one (some (.type field.type))
    | "isDeprecated" => .truth field.isDeprecated
    | "deprecationReason" => .text? field.deprecation
    | _ => .null
  | .inputValue value =>
    match name with
    | "name" => .text value.name
    | "description" => .text? value.description
    | "type" => .one (some (.type value.type))
    | "defaultValue" => .text? (value.default.map Document.literal)
    | _ => .null
  | .enumValue value =>
    match name with
    | "name" => .text value.name
    | "description" => .text? value.description
    | "isDeprecated" => .truth value.deprecation.isSome
    | "deprecationReason" => .text? value.deprecation
    | _ => .null
  | .directive directive =>
    match name with
    | "name" => .text directive.name
    | "description" => .text? directive.description
    | "locations" => .leaf (.arr (directive.locations.map .str))
    | "args" => .many (directive.arguments.map .inputValue)
    | "isRepeatable" => .truth directive.repeatable
    | _ => .null

mutual

/-- A described thing, with the fields that are selected. -/
def describe (schema : Schema) (node : MetaNode) : SelectionSet → Json
  | ⟨fields, typename⟩ =>
    let entries := describeFields schema node fields
    .obj (if typename then Table.insert "__typename" (.str node.typename) entries else entries)

def describeFields (schema : Schema) (node : MetaNode) : List SelectedField → List (String × Json)
  | [] => []
  | field :: rest => (field.responseKey, describeField schema node field) :: describeFields schema node rest

/-- The value of a selected field. A thing of which nothing is selected is null. -/
def describeField (schema : Schema) (node : MetaNode) : SelectedField → Json
  | ⟨name, _, arguments, _, _, _, selections⟩ =>
    match schema.metaField node name arguments, selections with
    | .leaf value, _ => value
    | .one none, _ => .null
    | .one (some _), none => .null
    | .one (some child), some set => describe schema child set
    | .many children, none => .arr (children.map fun _ => .null)
    | .many children, some set => .arr (children.map fun child => describe schema child set)

end

def describeSchema (schema : Schema) (selections : Option SelectionSet) : Json :=
  selections.elim .null (describe schema .schema)

/-- The answer to a question about one type, null for a name that no type has. -/
def describeType (schema : Schema) (name : String) (selections : Option SelectionSet) : Json :=
  if (schema.typeKind? name).isNone then .null
  else selections.elim .null (describe schema (.ofTypeName name))

end RelationalGraphQL.Schema
