import RelationalGraphQL.Response.Basic

/-!
The JSON forms of requests and responses. A record reads from an object, whose unknown keys do not count, or from a
list of its parts in order, whose last parts may be missing where they have a default.
-/

namespace RelationalGraphQL

/-- An entry that is written only where there is something to write. -/
def entryIf (holds : Bool) (key : String) (value : Json) : List (String × Json) := if holds then [(key, value)] else []

def PathSegment.toJson : PathSegment → Json
  | .key name => .str name
  | .index place => .ofNat place

def Path.toJson (path : Path) : Json := .arr (path.map PathSegment.toJson)

def Document.Position.toJson (position : Document.Position) : Json :=
  .obj [("line", .ofNat position.line), ("column", .ofNat position.column)]

def ResponseError.toJson (error : ResponseError) : Json :=
  .obj ([("message", .str error.message)]
    ++ entryIf (!error.locations.isEmpty) "locations" (.arr (error.locations.map Document.Position.toJson))
    ++ error.path.elim [] (fun path => [("path", path.toJson)])
    ++ error.extensions.elim [] (fun extensions => [("extensions", .obj extensions)]))

def Response.toJson (response : Response) : Json :=
  .obj (response.data.elim [] (fun data => [("data", data)])
    ++ entryIf (!response.errors.isEmpty) "errors" (.arr (response.errors.map ResponseError.toJson))
    ++ entryIf (!response.extensions.isEmpty) "extensions" (.obj response.extensions))

namespace Record

/-- The parts of a record with the given keys, from an object or a list. A list has no more parts than the record. -/
def parts? (keys : List String) : Json → Option (List (Option Json))
  | .obj entries => some (keys.map fun key => entries.lookup key)
  | .arr items =>
    if items.length ≤ keys.length then
      some (items.map some ++ List.replicate (keys.length - items.length) none)
    else none
  | _ => none

def required? {α : Type} (read : Json → Option α) (part : Option Json) : Option α := part.bind read

def withDefault? {α : Type} (read : Json → Option α) (default : α) : Option Json → Option α
  | none => some default
  | some value => read value

def optional? {α : Type} (read : Json → Option α) : Option Json → Option (Option α)
  | none | some .null => some none
  | some value => (read value).map some

end Record

open Record in
def Document.Position.ofJson? (json : Json) : Option Document.Position := do
  match ← parts? ["line", "column"] json with
  | [line, column] => return { line := ← required? Json.nat? line, column := ← required? Json.nat? column }
  | _ => none

def PathSegment.ofJson? : Json → Option PathSegment
  | .str name => some (.key name)
  | json => json.nat?.map .index

def Path.ofJson? (json : Json) : Option Path := do (← json.arr?).mapM PathSegment.ofJson?

open Record in
def ResponseError.ofJson? (json : Json) : Option ResponseError := do
  match ← parts? ["message", "locations", "path", "extensions"] json with
  | [message, locations, path, extensions] =>
    return {
      message := ← required? Json.str? message
      locations := ← withDefault? (fun value => do (← value.arr?).mapM Document.Position.ofJson?) [] locations
      path := ← optional? Path.ofJson? path
      extensions := ← optional? Json.obj? extensions }
  | _ => none

open Record in
def Response.ofJson? (json : Json) : Option Response := do
  match ← parts? ["data", "errors", "extensions"] json with
  | [data, errors, extensions] =>
    return {
      data := ← optional? some data
      errors := ← withDefault? (fun value => do (← value.arr?).mapM ResponseError.ofJson?) [] errors
      extensions := ← withDefault? Json.obj? [] extensions }
  | _ => none

open Record in
def Request.ofJson? (json : Json) : Option Request := do
  match ← parts? ["query", "operationName", "variables", "extensions"] json with
  | [query, operationName, variableValues, extensions] =>
    return {
      query := ← required? Json.str? query
      operationName := ← optional? Json.str? operationName
      variableValues := ← withDefault? Json.obj? [] variableValues
      extensions := ← withDefault? Json.obj? [] extensions }
  | _ => none

end RelationalGraphQL
