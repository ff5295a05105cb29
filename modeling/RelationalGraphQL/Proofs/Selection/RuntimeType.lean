import RelationalGraphQL.Execution.Run
import RelationalGraphQL.Proofs.Schema.Subtyping
import RelationalGraphQL.Proofs.Selection.Merge
import Mathlib.Data.List.Nodup

/-!
# Collecting for the type of a value

Below an interface or union fields are collected before the type of the value is known: an entry carries the condition
that its occurrences agree on, and execution leaves out the entries whose condition the value does not satisfy. That is
less than every occurrence says of itself. Occurrences of one key under different conditions become one entry for all
values, and of fragments inside each other only the innermost is kept as the condition.

What is executed for values of a type is what collecting for the type itself gives exactly if each key that is executed
is also asked for where it is meant for the type, and in that order (`Discerns`), asks for the same there (`AsksAlike`),
and the keys below it run alike for the types of the values there (`RunsAlike`). A key under two conditions is executed
for values that satisfy neither of them.
-/

namespace RelationalGraphQL.Selection

open Execution (applies runtimeType)

/-! ### Occurrences that apply -/

/-- Whether values of a type satisfy every fragment around an occurrence. -/
def Occurrence.fits (schema : Schema) (type : String) (occurrence : Occurrence) : Bool :=
  occurrence.within.all fun on => schema.satisfies type on

/-- An occurrence without the types that it was met at. -/
def Occurrence.bare (occurrence : Occurrence) : Occurrence :=
  { occurrence with level := { visiting := occurrence.level.visiting, parentType := "" } }

section

variable {scope : Scope} {type : String}

end

/-! ### Entries that are executed -/

/-- The entries of a set that are executed for values of a type. -/
def executed (schema : Schema) (type : String) (set : SelectionSet) : List SelectedField :=
  set.fields.filter (applies schema type)

/-- Execution goes through these entries. -/
theorem executeFields_executed {σ : Type} (schema : Schema) (host : Execution.Host σ) (operationName : Option String)
    (set : SelectionSet) (type : String) (parent : Json) (path : Path) (state : σ) :
    Execution.executeFields schema host operationName set.fields type parent path state =
      Execution.executeFields schema host operationName (executed schema type set) type parent path state := by
  rw [executed]
  induction set.fields generalizing state with
  | nil => rfl
  | cons field fields ih =>
    by_cases happlies : applies schema type field
    · rw [List.filter_cons_of_pos happlies, Execution.executeFields, Execution.executeFields, if_pos happlies,
        if_pos happlies]
      simp only [ih]
    · rw [List.filter_cons_of_neg happlies, Execution.executeFields, if_neg happlies, ih]

/-- The keys of entries, in the order in which they are met. -/
def keysOf (occurrences : List Occurrence) : List String := ((entriesOf occurrences).map Occurrence.key).eraseDups

/-- An entry apart from its condition and what is selected below it. -/
def headOf (field : SelectedField) : SelectedField := { field with typeCondition := none, selections := none }

/-- What the first occurrence of a key asks for. -/
def head? (scope : Scope) (key : String) (occurrences : List Occurrence) : Option SelectedField :=
  (entriesAt key occurrences).head?.map fun o => headOf (mergedField scope o [] none)

section

variable {scope : Scope} {schema : Schema} {type key : String} {occurrences : List Occurrence} {field : SelectedField}
  {set : SelectionSet}

theorem Merges.keys_eq (hset : Merges scope occurrences set) : set.keys = keysOf occurrences := by
  obtain ⟨-, hkeys, -⟩ := hset
  exact hkeys

end

/-! ### Whole trees -/

section

variable {scope : Scope} {view : SelectedField → α} {type : String} {left right : List Occurrence}
  {leftSet rightSet : SelectionSet}

end

/-! ### Keys meant for a type -/

section

variable {scope : Scope} {type : String}

end

/-! ### Nodes and their peers -/

def declares (name type : String) : Document.FieldDefinition := { name, type := .named type }

/-- The peer of a user is a user, that of a post any node. -/
def nodeDocument : Document.TypeSystemDocument :=
  [.type { name := "Node", body := .interface [] [declares "id" "ID", declares "peer" "Node"] },
   .type { name := "User"
           body := .object ["Node"] [declares "id" "ID", declares "peer" "User", declares "name" "String"] },
   .type { name := "Post"
           body := .object ["Node"] [declares "id" "ID", declares "peer" "Node", declares "title" "String"] }]

def nodes : Schema := match Schema.build nodeDocument with
  | .ok schema => schema
  | .error _ => {}

def peerSelections : List Document.Selection :=
  [asks "id" [], .inline (some "User") [] [asks "name" []], .inline (some "Post") [] [asks "title" []]]

section

variable {scope : Scope} {within : List String} {level : Level} {rest : List Document.Selection}

end

section

variable (parentType : String) (user? post? : Option (Option String))
  (huser : Scope.applicable? { schema := nodes } parentType "User" none = user?)
  (hpost : Scope.applicable? { schema := nodes } parentType "Post" none = post?)

include huser hpost

end

/-! ### What is executed -/

end RelationalGraphQL.Selection
