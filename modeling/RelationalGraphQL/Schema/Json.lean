import RelationalGraphQL.Json.Lenient
import RelationalGraphQL.Schema.Basic

/-!
The JSON form of the definitions in a schema.
-/

namespace RelationalGraphQL.Schema

def InputValue.toJson (value : InputValue) : Json :=
  .obj [("name", .str value.name), ("description", .ofStr? value.description), ("type", .str value.type.text),
    ("has_default", .bool value.default.isSome), ("default", value.default.getD .null)]

def inputValuesJson (values : List InputValue) : Json := .arr (values.map InputValue.toJson)

/-- A type as it is referred to, with what is inside its wrappings. -/
def typeRefJson (type : TypeRef) : Json :=
  .obj [("text", .str type.text), ("named", .str type.namedType), ("list", .bool type.isList),
    ("non_null", .bool type.isNonNull)]

def Field.toJson (field : Field) : Json :=
  .obj [("name", .str field.name), ("description", .ofStr? field.description), ("type", typeRefJson field.type),
    ("args", inputValuesJson field.arguments), ("column", .ofStr? field.column), ("table", .ofStr? field.table),
    ("relation", .ofStr? (field.relation.map RelationKind.text)), ("deprecated", .bool field.isDeprecated),
    ("reason", .ofStr? field.deprecation)]

def fieldsJson (fields : List (String × Field)) : Json := .arr ((Table.values fields).map Field.toJson)

def EnumValue.toJson (value : EnumValue) : Json :=
  .arr [.str value.name, .ofStr? value.description, .ofStr? value.deprecation]

def Directive.toJson (directive : Directive) : Json :=
  .obj [("name", .str directive.name), ("description", .ofStr? directive.description),
    ("locations", Json.ofTexts directive.locations), ("args", inputValuesJson directive.arguments),
    ("repeatable", .bool directive.repeatable)]

/-- What a type of its kind has besides a name. -/
def typeDetails (schema : Schema) (name : String) : List (String × Json) :=
  match schema.typeKind? name with
  | some .object =>
    (schema.object? name).elim [] fun object =>
      [("description", .ofStr? object.description), ("interfaces", Json.ofTexts object.interfaces),
        ("fields", fieldsJson object.fields)]
  | some .interface =>
    (schema.interface? name).elim [] fun interface =>
      [("description", .ofStr? interface.description), ("fields", fieldsJson interface.fields)]
  | some .union =>
    (schema.union? name).elim [] fun union =>
      [("description", .ofStr? union.description), ("types", Json.ofTexts union.members)]
  | some .enum =>
    (schema.enum? name).elim [] fun enum =>
      [("description", .ofStr? enum.description), ("values", .arr (enum.values.map EnumValue.toJson))]
  | some .inputObject =>
    (schema.input? name).elim [] fun input =>
      [("description", .ofStr? input.description), ("input_fields", inputValuesJson (Table.values input.fields))]
  | some .scalar =>
    (schema.scalar? name).elim [] fun scalar =>
      [("description", .ofStr? scalar.description), ("marshaler", .bool scalar.marshaler.isSome)]
  | none => []

def kindJson (schema : Schema) (name : String) : Json := .ofStr? ((schema.typeKind? name).map TypeKind.text)

def typeJson (schema : Schema) (name : String) : Json :=
  .obj ([("name", .str name), ("kind", schema.kindJson name)] ++ schema.typeDetails name)

def toJson (schema : Schema) : Json :=
  .obj [("query", .ofStr? schema.queryType), ("mutation", .ofStr? schema.mutationType),
    ("subscription", .ofStr? schema.subscriptionType), ("types", .arr (schema.typeNames.map schema.typeJson)),
    ("objects", Json.ofTexts (schema.objectTypes.map ObjectType.name)),
    ("directives", .arr (schema.directives.map Directive.toJson))]

end RelationalGraphQL.Schema
