import RelationalGraphQL.Execution.Executor
import RelationalGraphQL.Json.Lenient

/-!
Middleware and interceptors that are useful with any schema: traces, rescues, checks and marks.
-/

namespace RelationalGraphQL.Execution

namespace Program

/-- Writes down a value and goes on. -/
def logging {α : Type} (value : Json) (next : Program α) : Program α := .act (.log value) fun _ => next

def succeed (value : Json) : Program Resolution := .done (.ok value)

def fail (message : String) : Program Resolution := .done (.error (.resolver message))

end Program

/-- The field of a call as a trace names it. -/
def FieldCall.label (call : FieldCall) : String := call.parentType ++ "." ++ call.field.name ++ "@" ++ call.path.text

namespace Middleware

def pass : Middleware := fun _ call next => next call

/-- Restricts a middleware to fields of a name. -/
def onField (name : Option String) (middleware : Middleware) : Middleware := fun extensions call next =>
  if name.all fun name => name = call.field.name then middleware extensions call next else next call

/-- Logs the beginning and the end of a resolution. The end is missing if the request ends before. -/
def trace (label : String) : Middleware := fun _ call next =>
  let mark := label ++ ":" ++ call.label
  .logging (.str ("> " ++ mark)) <| (next call).bind fun resolution =>
    let ending := match resolution with
      | .ok _ => " ok"
      | .error _ => " err"
    .logging (.str ("< " ++ mark ++ ending)) (.done resolution)

/-- Changes the value of a field that succeeds. -/
def mapValue (change : Json → Json) : Middleware := fun _ call next =>
  (next call).bind fun
    | .ok value => .succeed (change value)
    | .error error => .done (.error error)

/-- Answers in place of the resolver. -/
def answer (value : Json) : Middleware := fun _ _ _ => .succeed value

def refuse (message : String) : Middleware := fun _ _ _ => .fail message

/-- Turns a failure into a text. -/
def rescue : Middleware := fun _ call next =>
  (next call).bind fun
    | .ok value => .succeed value
    | .error error => .succeed (.str ("rescued " ++ error.message))

/-- Sets an argument before going on. -/
def setArgument (name : String) (value : Json) : Middleware := fun _ call next =>
  next { call with field := { call.field with arguments := Table.insert name value call.field.arguments } }

end Middleware

def Session.note (value : Json) (session : Session) : Session := { session with log := session.log ++ [value] }

namespace Interceptor

def pass : Interceptor := fun _ _ next session => next session

/-- Logs the operation before it runs, and afterwards whether there is data and how many errors there are. -/
def trace (label : String) : Interceptor := fun _ info next session =>
  let opening := Json.arr [.str label, .str info.kind.text, .ofStr? info.name, .ofTexts info.rootKeys,
    .ofNat info.query.utf8ByteSize]
  let (response, session) := next (session.note opening)
  (response, session.note (.arr [.str label, .bool response.data.isSome, .ofNat response.errors.length]))

def keep (value : Json) : Interceptor := fun _ _ next session => next { session with kept := some value }

end Interceptor

namespace ResponseInterceptor

/-- Sets an extension to the number of extensions there were. -/
def stamp (name : String) : ResponseInterceptor := fun _ _ response =>
  { response with extensions := Table.insert name (.ofNat response.extensions.length) response.extensions }

def clearErrors : ResponseInterceptor := fun _ _ response => { response with errors := [] }

def dropData : ResponseInterceptor := fun _ _ response => { response with data := none }

end ResponseInterceptor

/-- What a trace tells of a call: the names of field, key and types, the path, the operation and the selected keys. -/
def FieldCall.summary (call : FieldCall) : String :=
  "|".intercalate [call.field.name, call.field.responseKey, call.parentType, call.returnType.text, call.path.text,
    call.operationName.getD "-", call.field.selections.elim "-" fun set => ",".intercalate set.keys]

end RelationalGraphQL.Execution
