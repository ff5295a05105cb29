import RelationalGraphQL.Document.TypeSystem
import RelationalGraphQL.Error
import RelationalGraphQL.Schema.Basic

/-!
Building a schema from a type system document: definitions first, then extensions, then the built-in scalars and
directives, and last a check that everything referred to is declared.
-/

namespace RelationalGraphQL.Schema

/-- The reason of a deprecation that gives none. -/
def defaultDeprecation : String := "No longer supported"

def builtinScalars : List (String × String) :=
  [("Int", "The `Int` scalar type represents non-fractional signed whole numeric values."),
   ("Float", "The `Float` scalar type represents signed double-precision fractional values."),
   ("String", "The `String` scalar type represents textual data, represented as UTF-8 character sequences."),
   ("Boolean", "The `Boolean` scalar type represents `true` or `false`."),
   ("ID", "The `ID` scalar type represents a unique identifier.")]

/-- The condition argument of the directives that leave selections out. -/
def conditionArgument (description : String) : InputValue :=
  { name := "if", description := some description, type := .nonNull (.named "Boolean") }

def builtinDirectives : List Directive :=
  [{ name := "skip",
     description := some "Directs the executor to skip this field or fragment when the `if` argument is true.",
     locations := ["FIELD", "FRAGMENT_SPREAD", "INLINE_FRAGMENT"],
     arguments := [conditionArgument "Skipped when true."] },
   { name := "include",
     description :=
       some "Directs the executor to include this field or fragment only when the `if` argument is true.",
     locations := ["FIELD", "FRAGMENT_SPREAD", "INLINE_FRAGMENT"],
     arguments := [conditionArgument "Included when true."] },
   { name := "deprecated",
     description := some "Marks an element of a GraphQL schema as no longer supported.",
     locations := ["FIELD_DEFINITION", "ENUM_VALUE"],
     arguments :=
       [{ name := "reason", type := .named "String", default := some (.str defaultDeprecation) }] }]

/-- A text argument of a directive, by its first value. -/
def textArgument? (directive : Document.Directive) (name : String) : Option String :=
  (directive.arguments.lookup name).bind fun value => value.constant.str?

def deprecationOf (directives : List Document.Directive) : Option String :=
  (directives.find? (·.name = "deprecated")).map fun directive =>
    (textArgument? directive "reason").getD defaultDeprecation

def inputValueOf (value : Document.InputValue) : InputValue :=
  { name := value.name, description := value.description, type := value.type,
    default := value.default.map Document.Value.constant }

/-- The relation that a field's `@sql` directive names, if it names one. -/
def relationOf (location : String) (sql : Document.Directive) : Except SchemaError (Option RelationKind) :=
  match textArgument? sql "relation" with
  | none => .ok none
  | some relation =>
    match RelationKind.ofText? relation with
    | some kind => .ok (some kind)
    | none =>
      .error (.invalidDirective location
        ("unknown relation '" ++ relation ++ "', expected hasOne, hasMany, belongsTo or manyToMany"))

def fieldOf (typeName : String) (definition : Document.FieldDefinition) : Except SchemaError Field := do
  let field : Field :=
    { name := definition.name, description := definition.description, type := definition.type,
      arguments := definition.arguments.map inputValueOf, deprecation := deprecationOf definition.directives }
  match definition.directives.find? (·.name = "sql") with
  | none => return field
  | some sql =>
    let relation ← relationOf (typeName ++ "." ++ definition.name) sql
    return { field with column := textArgument? sql "column", table := textArgument? sql "table", relation }

/-- The fields of a type by name; of a repeated name the last definition counts. -/
def fieldsOf (typeName : String) (definitions : List Document.FieldDefinition) :
    Except SchemaError (List (String × Field)) := do
  let fields ← definitions.mapM (fieldOf typeName)
  return Table.ofList (fields.map fun field => (field.name, field))

def enumValueOf (value : Document.EnumValue) : EnumValue :=
  { name := value.name, description := value.description, deprecation := deprecationOf value.directives }

/-- Declares a name, which no other type may have. -/
def declare (name : String) (schema : Schema) : Except SchemaError Schema :=
  if schema.declared.contains name then .error (.duplicateType name)
  else .ok { schema with declared := schema.declared ++ [name] }

def addType (schema : Schema) (definition : Document.TypeDefinition) : Except SchemaError Schema := do
  let name := definition.name
  let description := definition.description
  let schema ← schema.declare name
  match definition.body with
  | .scalar => return { schema with scalars := Table.insert name { name, description } schema.scalars }
  | .object interfaces fields =>
    let fields ← fieldsOf name fields
    return { schema with objects := Table.insert name { name, description, interfaces, fields } schema.objects }
  | .interface _ fields =>
    let fields ← fieldsOf name fields
    return { schema with interfaces := Table.insert name { name, description, fields } schema.interfaces }
  | .union members =>
    return { schema with unions := Table.insert name { name, description, members } schema.unions }
  | .enum values =>
    let values := values.map enumValueOf
    return { schema with enums := Table.insert name { name, description, values } schema.enums }
  | .input fields =>
    let fields := Table.ofList (fields.map fun field => (field.name, inputValueOf field))
    return { schema with inputs := Table.insert name { name, description, fields } schema.inputs }

def directiveOf (definition : Document.DirectiveDefinition) : Directive :=
  { name := definition.name, description := definition.description, locations := definition.locations,
    arguments := definition.arguments.map inputValueOf, repeatable := definition.repeatable }

def addDefinition (schema : Schema) : Document.TypeSystemDefinition → Except SchemaError Schema
  | .schema _ | .extension _ => .ok schema
  | .type definition => schema.addType definition
  | .directive definition => .ok { schema with directives := schema.directives ++ [directiveOf definition] }

/-- Adds what an extension says of an object type; other extensions add nothing. -/
def addExtension (schema : Schema) : Document.TypeSystemDefinition → Except SchemaError Schema
  | .extension ⟨_, name, _, .object interfaces fields⟩ => do
    let fields ← fieldsOf name fields
    match schema.object? name with
    | none => throw (.unknownType name "type extension")
    | some object =>
      let extended := { object with
        interfaces := object.interfaces ++ interfaces, fields := Table.insertAll fields object.fields }
      return { schema with objects := Table.insert name extended schema.objects }
  | _ => .ok schema

def addBuiltinScalar (schema : Schema) (builtin : String × String) : Schema :=
  if (schema.scalar? builtin.1).isSome then schema
  else
    { schema with
      declared := schema.declared ++ [builtin.1],
      scalars := Table.insert builtin.1 { name := builtin.1, description := some builtin.2 } schema.scalars }

def addBuiltinDirective (schema : Schema) (builtin : Directive) : Schema :=
  if schema.directives.any (·.name = builtin.name) then schema
  else { schema with directives := schema.directives ++ [builtin] }

/-- Adds the scalars and directives that every schema has, unless the document declares its own. -/
def addBuiltins (schema : Schema) : Schema :=
  builtinDirectives.foldl addBuiltinDirective (builtinScalars.foldl addBuiltinScalar schema)

/-- Fails at the first name that is not known. -/
def requireAll (known : String → Bool) (references : List (String × String)) : Except SchemaError Unit :=
  match references.find? fun (name, _) => !known name with
  | some (name, referencedBy) => .error (.unknownType name referencedBy)
  | none => .ok ()

/-- The types that fields and their arguments refer to, each with the field that does. -/
def fieldReferences (typeName : String) (fields : List (String × Field)) : List (String × String) :=
  fields.flatMap fun (_, field) =>
    let location := typeName ++ "." ++ field.name
    (field.type.namedType, location)
      :: field.arguments.map fun argument => (argument.type.namedType, location)

/-- Checks that every type referred to is declared, and is of a kind that fits. -/
def checkReferences (schema : Schema) : Except SchemaError Unit := do
  let declared := schema.declared.contains
  requireAll declared (schema.objects.flatMap fun (_, object) => fieldReferences object.name object.fields)
  requireAll declared (schema.interfaces.flatMap fun (_, type) => fieldReferences type.name type.fields)
  requireAll (fun name => (schema.interface? name).isSome)
    (schema.objects.flatMap fun (_, object) => object.interfaces.map fun name => (name, object.name))
  requireAll (fun name => (schema.object? name).isSome)
    (schema.unions.flatMap fun (_, union) => union.members.map fun name => (name, union.name))
  requireAll declared
    (schema.inputs.flatMap fun (_, input) =>
      input.fields.map fun (_, field) => (field.type.namedType, input.name ++ "." ++ field.name))

/-- The root types that the last schema definition names, if there is one. -/
def namedRoots? (document : Document.TypeSystemDocument) : Option Document.RootTypes :=
  document.reverse.findSome? fun
    | .schema roots => some roots
    | _ => none

/-- The root types of a document without a schema definition: the objects with the usual names. -/
def usualRoots (schema : Schema) : Document.RootTypes :=
  let root (name : String) : Option String := if (schema.object? name).isSome then some name else none
  { query := root "Query", mutation := root "Mutation", subscription := root "Subscription" }

/-- Sets the root types, which must be objects. -/
def setRoots (schema : Schema) (roots : Document.RootTypes) : Except SchemaError Schema := do
  let names := roots.query.toList ++ roots.mutation.toList ++ roots.subscription.toList
  requireAll (fun name => (schema.object? name).isSome) (names.map fun name => (name, "schema definition"))
  return { schema with
    queryType := roots.query, mutationType := roots.mutation, subscriptionType := roots.subscription }

/-- The schema of a document, or the first thing wrong with it. -/
def build (document : Document.TypeSystemDocument) : Except SchemaError Schema := do
  let schema ← document.foldlM addDefinition {}
  let schema ← document.foldlM addExtension schema
  let schema := schema.addBuiltins
  schema.checkReferences
  schema.setRoots ((namedRoots? document).getD schema.usualRoots)

def parse (text : String) : Except SchemaError Schema :=
  match Document.TypeSystemDocument.parse? text with
  | some document => build document
  | none => .error (.parse "not a type system document")

end RelationalGraphQL.Schema
