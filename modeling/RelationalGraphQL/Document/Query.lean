import RelationalGraphQL.Document.Reader

/-!
Query documents: operations and fragments.
-/

namespace RelationalGraphQL.Document

inductive OperationKind where
  | query
  | mutation
  | subscription
  deriving DecidableEq, Repr

def OperationKind.text : OperationKind → String
  | .query => "query"
  | .mutation => "mutation"
  | .subscription => "subscription"

inductive Selection where
  | field (aliasName : Option String) (name : String) (arguments : List (String × Value)) (directives : List Directive)
      (selections : List Selection) (position : Position)
  | spread (fragment : String) (directives : List Directive)
  | inline (condition : Option String) (directives : List Directive) (selections : List Selection)
  deriving Inhabited

structure Fragment where
  name : String
  /-- The type the fragment is on. -/
  condition : String
  directives : List Directive := []
  selections : List Selection

structure VariableDefinition where
  name : String
  type : TypeRef
  default : Option Value := none

structure Operation where
  kind : OperationKind
  name : Option String := none
  variableDefinitions : List VariableDefinition := []
  directives : List Directive := []
  selections : List Selection

inductive Definition where
  | operation (operation : Operation)
  | fragment (fragment : Fragment)

abbrev QueryDocument := List Definition

def QueryDocument.operations (document : QueryDocument) : List Operation :=
  document.filterMap fun
    | .operation operation => some operation
    | .fragment _ => none

/-- The fragments of a document by name, the last of a name counting. -/
def QueryDocument.fragments (document : QueryDocument) : List (String × Fragment) :=
  Table.ofList (document.filterMap fun
    | .operation _ => none
    | .fragment fragment => some (fragment.name, fragment))

/-- A selection, given how to read a selection set and the brackets that may still be opened. -/
def selectionWith (brackets : Nat) (selectionSet : Reader (List Selection)) : Reader Selection := do
  if ← accepts .spread then
    if ← accepts (word "on") then
      let condition ← name
      let directives ← directives brackets
      return .inline (some condition) directives (← selectionSet)
    match ← name? with
    | some fragment => return .spread fragment (← directives brackets)
    | none =>
      let directives ← directives brackets
      return .inline none directives (← selectionSet)
  else
    let position ← position
    let first ← name
    let second ← if ← accepts (punctuator ':') then some <$> name else pure none
    let arguments ← arguments brackets
    let directives ← directives brackets
    let selections ← if ← sees (punctuator '\x7b') then selectionSet else pure []
    match second with
    | some name => return .field (some first) name arguments directives selections position
    | none => return .field none first arguments directives selections position

def selectionSet : Nat → Reader (List Selection)
  | 0 => failure
  | brackets + 1 => do
    expect (punctuator '\x7b')
    someUpTo (punctuator '\x7d') (selectionWith brackets (selectionSet brackets))

def defaultValue? (brackets : Nat) : Reader (Option Value) := do
  if ← accepts (punctuator '=') then some <$> value false brackets else return none

def variableDefinition (brackets : Nat) : Reader VariableDefinition := do
  expect (punctuator '$')
  let name ← name
  expect (punctuator ':')
  let type ← typeRef brackets
  return { name, type, default := ← defaultValue? brackets }

def operationAfter (kind : OperationKind) (brackets : Nat) : Reader Definition := do
  let name ← name?
  let variableDefinitions ← parenthesized brackets variableDefinition
  let directives ← directives brackets
  let selections ← selectionSet brackets
  return .operation { kind, name, variableDefinitions, directives, selections }

def fragmentAfter (brackets : Nat) : Reader Definition := do
  let fragmentName ← name
  expect (word "on")
  let condition ← name
  let directives ← directives brackets
  let selections ← selectionSet brackets
  return .fragment { name := fragmentName, condition, directives, selections }

def queryDefinition (brackets : Nat) : Reader Definition := do
  if ← sees (punctuator '\x7b') then
    return .operation { kind := .query, selections := ← selectionSet brackets }
  else
    match ← name with
    | "query" => operationAfter .query brackets
    | "mutation" => operationAfter .mutation brackets
    | "subscription" => operationAfter .subscription brackets
    | "fragment" => fragmentAfter brackets
    | _ => failure

def QueryDocument.parse? (text : String) : Option QueryDocument := readAll (queryDefinition bracketLimit) text

end RelationalGraphQL.Document
