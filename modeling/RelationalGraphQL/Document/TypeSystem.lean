import RelationalGraphQL.Document.Query

/-!
Type system documents: definitions and extensions of types, directives and the operations' root types.
-/

namespace RelationalGraphQL.Document

structure InputValue where
  description : Option String := none
  name : String
  type : TypeRef
  default : Option Value := none
  directives : List Directive := []

structure FieldDefinition where
  description : Option String := none
  name : String
  arguments : List InputValue := []
  type : TypeRef
  directives : List Directive := []

structure EnumValue where
  description : Option String := none
  name : String
  directives : List Directive := []

/-- What a definition or an extension says of a type of its kind. -/
inductive TypeBody where
  | scalar
  | object (interfaces : List String) (fields : List FieldDefinition)
  | interface (interfaces : List String) (fields : List FieldDefinition)
  | union (members : List String)
  | enum (values : List EnumValue)
  | input (fields : List InputValue)

structure TypeDefinition where
  description : Option String := none
  name : String
  directives : List Directive := []
  body : TypeBody

structure DirectiveDefinition where
  description : Option String := none
  name : String
  arguments : List InputValue := []
  repeatable : Bool := false
  locations : List String := []

/-- The types that operations start from. -/
structure RootTypes where
  query : Option String := none
  mutation : Option String := none
  subscription : Option String := none
  deriving DecidableEq, Repr

inductive TypeSystemDefinition where
  | schema (roots : RootTypes)
  | type (definition : TypeDefinition)
  | extension (definition : TypeDefinition)
  | directive (definition : DirectiveDefinition)

abbrev TypeSystemDocument := List TypeSystemDefinition

/-- The places a directive may stand in. -/
def directiveLocations : List String :=
  ["QUERY", "MUTATION", "SUBSCRIPTION", "FIELD", "FRAGMENT_DEFINITION", "FRAGMENT_SPREAD", "INLINE_FRAGMENT",
   "SCHEMA", "SCALAR", "OBJECT", "FIELD_DEFINITION", "ARGUMENT_DEFINITION", "INTERFACE", "UNION", "ENUM",
   "ENUM_VALUE", "INPUT_OBJECT", "INPUT_FIELD_DEFINITION", "VARIABLE_DEFINITION"]

/-- Adds a root type; each operation has at most one. -/
def RootTypes.add? (roots : RootTypes) (operation type : String) : Option RootTypes :=
  match operation, roots with
  | "query", ⟨none, _, _⟩ => some { roots with query := type }
  | "mutation", ⟨_, none, _⟩ => some { roots with mutation := type }
  | "subscription", ⟨_, _, none⟩ => some { roots with subscription := type }
  | _, _ => none

def RootTypes.ofList? (entries : List (String × String)) : Option RootTypes :=
  entries.foldlM (fun roots (operation, type) => roots.add? operation type) {}

def inputValue (brackets : Nat) : Reader InputValue := do
  let description ← text?
  let name ← name
  expect (punctuator ':')
  let type ← typeRef brackets
  let default ← defaultValue? brackets
  return { description, name, type, default, directives := ← directives brackets }

def fieldDefinition (brackets : Nat) : Reader FieldDefinition := do
  let description ← text?
  let name ← name
  let arguments ← parenthesized brackets inputValue
  expect (punctuator ':')
  let type ← typeRef brackets
  return { description, name, arguments, type, directives := ← directives brackets }

def enumValue (brackets : Nat) : Reader EnumValue := do
  let description ← text?
  let name ← name
  return { description, name, directives := ← directives brackets }

/-- Implemented interfaces, separated by ampersands. -/
def implemented : Reader (List String) := do
  if ← accepts (word "implements") then
    let _ ← accepts (punctuator '&')
    namesBy (punctuator '&')
  else return []

/-- The members of a union, or nothing where no equals sign stands. -/
def unionMembers : Reader (List String) := do
  if ← accepts (punctuator '=') then
    let _ ← accepts (punctuator '|')
    namesBy (punctuator '|')
  else return []

/-- A type after its keyword: its name, its directives and its body. -/
def typeAfter (keyword : String) (description : Option String) (brackets : Nat) : Reader TypeDefinition := do
  let name ← name
  match keyword with
  | "scalar" => return { description, name, directives := ← directives brackets, body := .scalar }
  | "type" | "interface" =>
    let interfaces ← implemented
    let directives ← directives brackets
    let fields ← braced? brackets fieldDefinition
    let body : TypeBody := if keyword = "type" then .object interfaces fields else .interface interfaces fields
    return { description, name, directives, body }
  | "union" =>
    let directives ← directives brackets
    return { description, name, directives, body := .union (← unionMembers) }
  | "enum" =>
    let directives ← directives brackets
    return { description, name, directives, body := .enum (← braced? brackets enumValue) }
  | "input" =>
    let directives ← directives brackets
    return { description, name, directives, body := .input (← braced? brackets inputValue) }
  | _ => failure

/-- An extension adds something: a directive, or a part of its kind's body. -/
def TypeDefinition.addsSomething (definition : TypeDefinition) : Bool :=
  !definition.directives.isEmpty ||
    match definition.body with
    | .scalar => false
    | .object interfaces fields => !interfaces.isEmpty || !fields.isEmpty
    | .interface _ fields => !fields.isEmpty
    | .union members => !members.isEmpty
    | .enum values => !values.isEmpty
    | .input fields => !fields.isEmpty

/-- The places of a directive, separated by bars. -/
def locationList : Reader (List String) := do
  let places ← namesBy (punctuator '|')
  if places.all directiveLocations.contains then return places else failure

/-- The places of a directive, if there are any: a bar or a name that follows is always read as the start of them. -/
def locations : Reader (List String) := do
  if ← accepts (punctuator '|') then locationList
  else
    match ← peek with
    | some (.name _) => locationList
    | _ => return []

def directiveAfter (description : Option String) (brackets : Nat) : Reader DirectiveDefinition := do
  expect (punctuator '@')
  let name ← name
  let arguments ← parenthesized brackets inputValue
  let repeatable ← accepts (word "repeatable")
  expect (word "on")
  return { description, name, arguments, repeatable, locations := ← locations }

/-- The root types after the keyword of a schema definition. -/
def schemaAfter (brackets : Nat) : Reader RootTypes := do
  let _ ← directives brackets
  match brackets with
  | 0 => failure
  | _ + 1 =>
    expect (punctuator '\x7b')
    let entries ← upTo (punctuator '\x7d') (named name)
    match RootTypes.ofList? entries with
    | some roots => return roots
    | none => failure

def typeSystemDefinition (brackets : Nat) : Reader TypeSystemDefinition := do
  match ← text? with
  | some description =>
    match ← name with
    | "directive" => return .directive (← directiveAfter (some description) brackets)
    | keyword => return .type (← typeAfter keyword (some description) brackets)
  | none =>
    match ← name with
    | "schema" => return .schema (← schemaAfter brackets)
    | "directive" => return .directive (← directiveAfter none brackets)
    | "extend" =>
      let definition ← typeAfter (← name) none brackets
      if definition.addsSomething then return .extension definition else failure
    | keyword => return .type (← typeAfter keyword none brackets)

def TypeSystemDocument.parse? (text : String) : Option TypeSystemDocument :=
  readAll (typeSystemDefinition bracketLimit) text

end RelationalGraphQL.Document
