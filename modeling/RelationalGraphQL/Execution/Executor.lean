import RelationalGraphQL.Execution.Bindings
import RelationalGraphQL.Execution.Run
import RelationalGraphQL.Execution.Session
import RelationalGraphQL.Selection.Collect

/-!
An executor answers requests: it reads the document, picks the operation, collects its fields and executes them with
resolvers, behind middleware and interceptors.
-/

namespace RelationalGraphQL.Execution

open Document (Operation OperationKind QueryDocument)

/-- The outcome of resolving a field. -/
abbrev Resolution := Except ExecutionError Json

/-- Produces the value of a field, given the extensions of the request. -/
abbrev Resolver := List (String × Json) → FieldCall → Program Resolution

/-- Wraps the resolution of a field, given the extensions of the request; it decides whether and how to go on. -/
abbrev Middleware := List (String × Json) → FieldCall → (FieldCall → Program Resolution) → Program Resolution

/-- An operation about to run. -/
structure OperationInfo where
  name : Option String
  kind : OperationKind
  query : String
  /-- The response keys of the root fields. -/
  rootKeys : List String

/-- Wraps the execution of an operation, given the extensions of the request. -/
abbrev Interceptor :=
  List (String × Json) → OperationInfo → (Session → Response × Session) → Session → Response × Session

/-- Changes a response before it is sent, given the extensions of the request and the session. -/
abbrev ResponseInterceptor := List (String × Json) → Session → Response → Response

/-- Contributes an entry to the extensions of a response, from those of the request and the session. -/
structure ExtensionData where
  name : String
  data : List (String × Json) → Session → Option Json

structure Executor where
  schema : Schema
  resolvers : FieldTable Resolver := []
  bindings : Bindings := {}
  /-- The first is outermost. -/
  middleware : List Middleware := []
  interceptors : List Interceptor := []
  responseInterceptors : List ResponseInterceptor := []
  extensionData : List ExtensionData := []
  defaultTimeout : Option Nat := none

structure PreparedOperation where
  name : Option String
  kind : OperationKind
  rootType : String
  selection : SelectionSet

/-- Picks the operation to run. Without a name the document has exactly one. -/
def selectOperation (document : QueryDocument) (name : Option String) : Except QueryError Operation :=
  match name with
  | some name =>
    match document.operations.find? fun operation => operation.name = some name with
    | some operation => .ok operation
    | none => .error (.unknownOperation name)
  | none =>
    match document.operations with
    | [] => .error .noOperation
    | [operation] => .ok operation
    | operations => .error (.operationNameRequired operations.length)

/-- The variables of a request, with the operation's defaults for those not given. -/
def withDefaults (provided : List (String × Json)) (definitions : List Document.VariableDefinition) :
    List (String × Json) :=
  definitions.foldl
    (fun variableValues definition =>
      match definition.default with
      | some value => Table.insertNew definition.name value.constant variableValues
      | none => variableValues)
    provided

def rootType? (schema : Schema) : OperationKind → Option String
  | .query => schema.queryType
  | .mutation => schema.mutationType
  | .subscription => schema.subscriptionType

/-- Picks an operation of a document and collects its root fields. -/
def prepare (schema : Schema) (document : QueryDocument) (request : Request) :
    Except QueryError PreparedOperation := do
  let operation ← selectOperation document request.operationName
  if operation.kind = .subscription then throw (.unsupportedOperation operation.kind.text)
  let some rootType := rootType? schema operation.kind | throw (.missingRootType operation.kind.text)
  let scope : Selection.Scope :=
    { schema, fragments := document.fragments
      variableValues := withDefaults request.variableValues operation.variableDefinitions }
  return { name := operation.name, kind := operation.kind, rootType,
           selection := Selection.collect scope rootType operation.selections }

namespace Executor

/-- The program of a field: its resolver, or the default reading of its parent, behind the middleware. -/
def fieldProgram (executor : Executor) (extensions : List (String × Json)) (call : FieldCall) : Program Resolution :=
  let endpoint (call : FieldCall) : Program Resolution :=
    match executor.resolvers.lookup (call.parentType, call.field.name) with
    | some resolver => resolver extensions call
    | none =>
      match executor.bindings.resolve call.parentType call.field.name call.parent with
      | .ok value => .done (.ok value)
      | .error message => .done (.error (.resolver message))
  executor.middleware.foldr (fun middleware next call => middleware extensions call next) endpoint call

/-- The host of a request: fields run as programs of its session. -/
def host (executor : Executor) (extensions : List (String × Json)) : Host Session where
  interruption? := Session.interruption?
  resolve call session :=
    match session.run (executor.fieldProgram extensions call) with
    | (.ok resolution, session) => (resolution, session)
    | (.error error, session) => (.error error, session)

/-- Executes the root fields of an operation. -/
def executeOperation (executor : Executor) (request : Request) (operation : PreparedOperation) (session : Session) :
    Response × Session :=
  let outcome := executeSelections executor.schema (executor.host request.extensions) operation.name
    operation.selection operation.rootType request.rootValue .root session
  ({ data := some outcome.result, errors := outcome.errors }, outcome.state)

/-- Executes an operation behind the interceptors. -/
def runOperation (executor : Executor) (request : Request) (operation : PreparedOperation) (session : Session) :
    Response × Session :=
  let info : OperationInfo :=
    { name := operation.name, kind := operation.kind, query := request.query,
      rootKeys := operation.selection.keys }
  executor.interceptors.foldr (fun interceptor next => interceptor request.extensions info next)
    (executor.executeOperation request operation) session

/-- Adds extensions and applies the response interceptors. -/
def finish (executor : Executor) (request : Request) (response : Response) (session : Session) : Response :=
  let extended := executor.extensionData.foldl
    (fun response contribution =>
      match contribution.data request.extensions session with
      | some value => { response with extensions := Table.insert contribution.name value response.extensions }
      | none => response)
    response
  executor.responseInterceptors.foldl (fun response interceptor => interceptor request.extensions session response)
    extended

/-- Documents read so far, by their text. -/
abbrev DocumentCache := List (String × QueryDocument)

/-- Reads a document, or takes it from those read before. -/
def document (cache : DocumentCache) (query : String) : Except QueryError QueryDocument × DocumentCache :=
  match cache.lookup query with
  | some document => (.ok document, cache)
  | none =>
    match QueryDocument.parse? query with
    | some document => (.ok document, cache ++ [(query, document)])
    | none => (.error (.parse "not a query document"), cache)

/-- Answers a request. Where the document or its operation cannot be used the response has no data. -/
def execute (executor : Executor) (request : Request) (cache : DocumentCache) (session : Session) :
    Response × DocumentCache × Session :=
  let (document, cache) := document cache request.query
  let prepared := document.bind fun document => prepare executor.schema document request
  let (response, session) := match prepared with
    | .ok operation => executor.runOperation request operation session
    | .error error => ({ errors := [.ofQuery error] }, session)
  (executor.finish request response session, cache, session)

/-- A session for a request that starts now, with the given timeout or the executor's own. -/
def session (executor : Executor) (timeout : Option Nat) (limits : Limits) (owner : Nat) (timeline : Loader.Timeline) :
    Session :=
  let deadline := (timeout <|> executor.defaultTimeout).map (timeline.now + ·)
  { timeline, limits := { limits with deadline }, owner }

end Executor

end RelationalGraphQL.Execution
