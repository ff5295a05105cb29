import RelationalGraphQL.Json.Basic
import RelationalGraphQL.TypeRef

/-!
A schema: the types that a document declares, by name and in order, and what is known of each.
-/

namespace RelationalGraphQL

/-- How a relation field reaches the rows of its target. -/
inductive RelationKind where
  | hasOne
  | hasMany
  | belongsTo
  | manyToMany
  deriving DecidableEq, Repr

namespace RelationKind

def text : RelationKind → String
  | .hasOne => "hasOne"
  | .hasMany => "hasMany"
  | .belongsTo => "belongsTo"
  | .manyToMany => "manyToMany"

def ofText? : String → Option RelationKind
  | "hasOne" => some .hasOne
  | "hasMany" => some .hasMany
  | "belongsTo" => some .belongsTo
  | "manyToMany" => some .manyToMany
  | _ => none

/-- Whether one source row can have several target rows. -/
def isToMany : RelationKind → Bool
  | .hasMany | .manyToMany => true
  | .hasOne | .belongsTo => false

end RelationKind

namespace Schema

/-- An argument or a field of an input type. -/
structure InputValue where
  name : String
  description : Option String := none
  type : TypeRef
  default : Option Json := none

structure Field where
  name : String
  description : Option String := none
  type : TypeRef
  arguments : List InputValue := []
  /-- The column that holds the field, if the document names one. -/
  column : Option String := none
  /-- The table that a relation field reaches, if the document names one. -/
  table : Option String := none
  relation : Option RelationKind := none
  /-- Why the field is deprecated, if it is. -/
  deprecation : Option String := none

def Field.isDeprecated (field : Field) : Bool := field.deprecation.isSome

def Field.argument? (field : Field) (name : String) : Option InputValue := field.arguments.find? (·.name = name)

structure ObjectType where
  name : String
  description : Option String := none
  interfaces : List String := []
  fields : List (String × Field) := []

structure InterfaceType where
  name : String
  description : Option String := none
  fields : List (String × Field) := []

structure UnionType where
  name : String
  description : Option String := none
  members : List String := []

structure InputType where
  name : String
  description : Option String := none
  fields : List (String × InputValue) := []

structure EnumValue where
  name : String
  description : Option String := none
  deprecation : Option String := none

structure EnumType where
  name : String
  description : Option String := none
  values : List EnumValue := []

/-- Shapes a resolved value into a scalar's response form, or says why it cannot. -/
abbrev Marshaler := Json → Except String Json

structure ScalarType where
  name : String
  description : Option String := none
  marshaler : Option Marshaler := none

structure Directive where
  name : String
  description : Option String := none
  locations : List String := []
  arguments : List InputValue := []
  repeatable : Bool := false

inductive TypeKind where
  | scalar
  | object
  | interface
  | union
  | enum
  | inputObject
  deriving DecidableEq, Repr

def TypeKind.text : TypeKind → String
  | .scalar => "SCALAR"
  | .object => "OBJECT"
  | .interface => "INTERFACE"
  | .union => "UNION"
  | .enum => "ENUM"
  | .inputObject => "INPUT_OBJECT"

end Schema

/-- The types of a document by kind, its directives, and the types that operations start from. -/
structure Schema where
  queryType : Option String := none
  mutationType : Option String := none
  subscriptionType : Option String := none
  objects : List (String × Schema.ObjectType) := []
  interfaces : List (String × Schema.InterfaceType) := []
  unions : List (String × Schema.UnionType) := []
  inputs : List (String × Schema.InputType) := []
  enums : List (String × Schema.EnumType) := []
  scalars : List (String × Schema.ScalarType) := []
  directives : List Schema.Directive := []
  /-- Declared types in order, then the built-in scalars. -/
  declared : List String := []

namespace Schema

def object? (schema : Schema) (name : String) : Option ObjectType := schema.objects.lookup name

def interface? (schema : Schema) (name : String) : Option InterfaceType := schema.interfaces.lookup name

def union? (schema : Schema) (name : String) : Option UnionType := schema.unions.lookup name

def input? (schema : Schema) (name : String) : Option InputType := schema.inputs.lookup name

def enum? (schema : Schema) (name : String) : Option EnumType := schema.enums.lookup name

def scalar? (schema : Schema) (name : String) : Option ScalarType := schema.scalars.lookup name

/-- Attaches a marshaler to a scalar, which becomes known if it was not. -/
def registerScalar (name : String) (marshaler : Marshaler) (schema : Schema) : Schema :=
  let scalar : ScalarType := match schema.scalar? name with
    | some scalar => { scalar with marshaler := some marshaler }
    | none => { name, marshaler := some marshaler }
  { schema with scalars := Table.insert name scalar schema.scalars }

/-- The names of all types: declared ones in order, then scalars that became known later, sorted. -/
def typeNames (schema : Schema) : List String :=
  let late := (Table.keys schema.scalars).filter fun name => !schema.declared.contains name
  schema.declared ++ late.mergeSort (fun a b => a ≤ b)

/-- The kind of a named type. -/
def typeKind? (schema : Schema) (name : String) : Option TypeKind :=
  if (schema.object? name).isSome then some .object
  else if (schema.interface? name).isSome then some .interface
  else if (schema.union? name).isSome then some .union
  else if (schema.enum? name).isSome then some .enum
  else if (schema.input? name).isSome then some .inputObject
  else if (schema.scalar? name).isSome then some .scalar
  else none

/-- The fields of an object or interface type. -/
def fields? (schema : Schema) (typeName : String) : Option (List (String × Field)) :=
  match schema.object? typeName with
  | some object => some object.fields
  | none => (schema.interface? typeName).map InterfaceType.fields

def field? (schema : Schema) (typeName fieldName : String) : Option Field :=
  (schema.fields? typeName).bind fun fields => fields.lookup fieldName

/-- Whether values of a type are also values of the type that a fragment is on: the same type, an interface it
implements, or a union it is a member of. -/
def satisfies (schema : Schema) (typeName condition : String) : Bool :=
  typeName = condition
    || ((schema.object? typeName).any fun object => object.interfaces.contains condition)
    || ((schema.union? condition).any fun union => union.members.contains typeName)

def objectTypes (schema : Schema) : List ObjectType := schema.declared.filterMap schema.object?

/-- The object types that a value of an interface or union can have. -/
def possibleTypes (schema : Schema) (abstractType : String) : List String :=
  match schema.union? abstractType with
  | some union => union.members
  | none => (schema.objectTypes.filter fun object => object.interfaces.contains abstractType).map ObjectType.name

/-- What a document says of a type, whatever its kind. -/
def description? (schema : Schema) (name : String) : Option String :=
  ((schema.object? name).bind ObjectType.description)
    <|> ((schema.interface? name).bind InterfaceType.description)
    <|> ((schema.union? name).bind UnionType.description)
    <|> ((schema.enum? name).bind EnumType.description)
    <|> ((schema.input? name).bind InputType.description)
    <|> ((schema.scalar? name).bind ScalarType.description)

end Schema

end RelationalGraphQL
