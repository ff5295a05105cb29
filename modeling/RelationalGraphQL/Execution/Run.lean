import RelationalGraphQL.Response.Basic
import RelationalGraphQL.Schema.Introspection

/-!
Executing a selection set, field after field and depth first. A field that fails is null and leaves an entry in the
error list; the others go on.
-/

namespace RelationalGraphQL.Execution

/-- What is known of a field when it is resolved. -/
structure FieldCall where
  field : SelectedField
  parentType : String
  returnType : TypeRef
  path : Path
  operationName : Option String := none
  /-- The value of the parent object. -/
  parent : Json

/-- Where execution takes place: it may be interrupted between fields, and it resolves fields, changing its state. -/
structure Host (σ : Type) where
  interruption? : σ → Option ExecutionError
  resolve : FieldCall → σ → Except ExecutionError Json × σ

/-- What an execution leaves: its result, the errors on the way, and the host's state. -/
structure Outcome (α σ : Type) where
  result : α
  errors : List ResponseError := []
  state : σ

variable {σ : Type}

/-- Shapes a leaf as its scalar wants it. -/
def serializeLeaf (schema : Schema) (typeName : String) (value : Json) : Except ExecutionError Json :=
  match (schema.scalar? typeName).bind Schema.ScalarType.marshaler with
  | none => .ok value
  | some marshaler =>
    match marshaler value with
    | .ok value => .ok value
    | .error message => .error (.scalar typeName message)

/-- The type of a value: the one declared, or for an interface or union the one that the value names, if it is
possible there. -/
def runtimeType (schema : Schema) (declared : String) (value : Json) : String :=
  if schema.typeKind? declared = some .interface || schema.typeKind? declared = some .union then
    match (value.get? "__typename").bind Json.str? with
    | some concrete => if schema.satisfies concrete declared then concrete else declared
    | none => declared
  else declared

/-- Whether a field applies to values of a type. -/
def applies (schema : Schema) (typeName : String) (field : SelectedField) : Bool :=
  field.typeCondition.all fun condition => schema.satisfies typeName condition

/-- Executes the selections below a field on an object, given the object's declared type and path. -/
abbrev Below (σ : Type) := String → Json → Path → σ → Outcome Json σ

mutual

/-- Shapes a resolved value after its type and the selections below it. -/
def complete (schema : Schema) (below : Option (Below σ)) (position : Document.Position) (type : TypeRef) (path : Path)
    (state : σ) : Json → Outcome (Except ExecutionError Json) σ
  | .null => { result := .ok .null, state }
  | .arr items =>
    let outcome := completeItems schema below position type.itemType path 0 state items
    { result := .ok (.arr outcome.result), errors := outcome.errors, state := outcome.state }
  | .obj entries =>
    match below with
    | some execute =>
      let outcome := execute type.namedType (.obj entries) path state
      { result := .ok outcome.result, errors := outcome.errors, state := outcome.state }
    | none => { result := serializeLeaf schema type.namedType (.obj entries), state }
  | .bool value => { result := serializeLeaf schema type.namedType (.bool value), state }
  | .num value => { result := serializeLeaf schema type.namedType (.num value), state }
  | .str value => { result := serializeLeaf schema type.namedType (.str value), state }

/-- Shapes the elements of a list, each at its place. An element that fails is null. -/
def completeItems (schema : Schema) (below : Option (Below σ)) (position : Document.Position) (type : TypeRef)
    (path : Path) (place : Nat) (state : σ) : List Json → Outcome (List Json) σ
  | [] => { result := [], state }
  | item :: items =>
    let itemPath := path.withIndex place
    let first := complete schema below position type itemPath state item
    let rest := completeItems schema below position type path (place + 1) first.state items
    match first.result with
    | .ok value => { result := value :: rest.result, errors := first.errors ++ rest.errors, state := rest.state }
    | .error error =>
      { result := .null :: rest.result
        errors := first.errors ++ .ofField error itemPath position :: rest.errors
        state := rest.state }

end

/-- Resolves and completes one field. Questions about the schema itself are answered from it. -/
def executeField (schema : Schema) (host : Host σ) (operationName : Option String) (below : Option (Below σ))
    (field : SelectedField) (parentType : String) (parent : Json) (path : Path) (state : σ) :
    Outcome (Except ExecutionError Json) σ :=
  match host.interruption? state with
  | some error => { result := .error error, state }
  | none =>
    if field.name = "__schema" then { result := .ok (schema.describeSchema field.selections), state }
    else if field.name = "__type" then
      let name := ((field.arguments.lookup "name").bind Json.str?).getD ""
      { result := .ok (schema.describeType name field.selections), state }
    else
      match schema.field? parentType field.name with
      | none => { result := .error (.unknownField parentType field.name), state }
      | some definition =>
        let call : FieldCall :=
          { field, parentType, returnType := definition.type, path, operationName, parent }
        match host.resolve call state with
        | (.error error, state) => { result := .error error, state }
        | (.ok value, state) => complete schema below field.position definition.type path state value

mutual

/-- Executes a selection set on an object of a declared type. -/
def executeSelections (schema : Schema) (host : Host σ) (operationName : Option String) (set : SelectionSet)
    (declared : String) (parent : Json) (path : Path) (state : σ) : Outcome Json σ :=
  match set with
  | ⟨fields, typename⟩ =>
    let type := runtimeType schema declared parent
    let outcome := executeFields schema host operationName fields type parent path state
    let entries := if typename then Table.insert "__typename" (.str type) outcome.result else outcome.result
    { result := .obj entries, errors := outcome.errors, state := outcome.state }

/-- Executes the fields that apply to a type, in order. A field that fails is null. -/
def executeFields (schema : Schema) (host : Host σ) (operationName : Option String) (fields : List SelectedField)
    (type : String) (parent : Json) (path : Path) (state : σ) : Outcome (List (String × Json)) σ :=
  match fields with
  | [] => { result := [], state }
  | field :: rest =>
    if applies schema type field then
      let key := field.responseKey
      let fieldPath := path.withKey key
      let first := executeOne schema host operationName field type parent fieldPath state
      let others := executeFields schema host operationName rest type parent path first.state
      match first.result with
      | .ok value =>
        { result := (key, value) :: others.result, errors := first.errors ++ others.errors, state := others.state }
      | .error error =>
        { result := (key, .null) :: others.result
          errors := first.errors ++ .ofField error fieldPath field.position :: others.errors
          state := others.state }
    else executeFields schema host operationName rest type parent path state

def executeOne (schema : Schema) (host : Host σ) (operationName : Option String) (field : SelectedField)
    (parentType : String) (parent : Json) (path : Path) (state : σ) : Outcome (Except ExecutionError Json) σ :=
  match field with
  | ⟨name, aliasName, arguments, directives, typeCondition, position, selections⟩ =>
    let below : Option (Below σ) := match selections with
      | none => none
      | some set => some fun declared value path state =>
        executeSelections schema host operationName set declared value path state
    executeField schema host operationName below
      ⟨name, aliasName, arguments, directives, typeCondition, position, selections⟩ parentType parent path state

end

end RelationalGraphQL.Execution
