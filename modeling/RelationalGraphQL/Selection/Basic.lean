import RelationalGraphQL.Document.Token
import RelationalGraphQL.Json.Basic

/-!
Selections as they are executed: one entry for each response key, with variables replaced and fragments expanded.
-/

namespace RelationalGraphQL

/-- A directive that a selected field carries, other than those that leave selections out. -/
structure AppliedDirective where
  name : String
  arguments : List (String × Json) := []

mutual

/-- A field to execute. -/
structure SelectedField where
  name : String
  aliasName : Option String
  arguments : List (String × Json)
  directives : List AppliedDirective
  /-- The type that a value must have for the field to apply, where a fragment restricts it. -/
  typeCondition : Option String
  position : Document.Position
  selections : Option SelectionSet

/-- The fields of one level, in the order in which their keys were first met. -/
structure SelectionSet where
  fields : List SelectedField
  /-- Whether the name of the type itself is asked for. -/
  typename : Bool

end

namespace SelectedField

/-- The key of the field in the response: its alias, or its name. -/
def responseKey (field : SelectedField) : String := field.aliasName.getD field.name

def hasSelections (field : SelectedField) : Bool :=
  field.selections.any fun set => !set.fields.isEmpty || set.typename

/-- The fields below, none for a leaf. -/
def children (field : SelectedField) : List SelectedField := field.selections.elim [] SelectionSet.fields

end SelectedField

namespace SelectionSet

def empty : SelectionSet := ⟨[], false⟩

def isEmpty (set : SelectionSet) : Bool := set.fields.isEmpty && !set.typename

def get? (set : SelectionSet) (key : String) : Option SelectedField := set.fields.find? (·.responseKey = key)

def keys (set : SelectionSet) : List String := set.fields.map SelectedField.responseKey

end SelectionSet

/-- Changes the field with a key, or adds one at the end. -/
def upsertField (key : String) (change : SelectedField → SelectedField) (fresh : SelectedField) :
    List SelectedField → List SelectedField
  | [] => [fresh]
  | field :: rest =>
    if field.responseKey = key then change field :: rest else field :: upsertField key change fresh rest

end RelationalGraphQL
