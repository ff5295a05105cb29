import RelationalGraphQL.Json.Basic
import RelationalGraphQL.Naming.SnakeCase

/-!
How a field without a resolver reads its value off its parent.
-/

namespace RelationalGraphQL.Execution

abbrev FieldTable (α : Type) := List ((String × String) × α)

def FieldTable.set {α : Type} (typeName fieldName : String) (value : α) (table : FieldTable α) : FieldTable α :=
  ((typeName, fieldName), value) :: table.filter fun (key, _) => key ≠ (typeName, fieldName)

/-- A value computed from the whole parent. -/
abbrev Computed := Json → Except String Json

structure Bindings where
  keys : FieldTable String := []
  computed : FieldTable Computed := []

namespace Bindings

/-- Reads a field from another entry of its parent. -/
def bindKey (typeName fieldName key : String) (bindings : Bindings) : Bindings :=
  { bindings with keys := bindings.keys.set typeName fieldName key }

def bindComputed (typeName fieldName : String) (compute : Computed) (bindings : Bindings) : Bindings :=
  { bindings with computed := bindings.computed.set typeName fieldName compute }

/-- The parent's entry for a field: the one named like it, or the one under the bound key, which is the name in snake
case unless another is bound. -/
def entry? (bindings : Bindings) (typeName fieldName : String) : Json → Option Json
  | .obj entries =>
    match entries.lookup fieldName with
    | some value => some value
    | none => entries.lookup ((bindings.keys.lookup (typeName, fieldName)).getD (Naming.snakeCase fieldName))
  | _ => none

/-- The value of a field: its parent's entry, else what is computed for it, else null. -/
def resolve (bindings : Bindings) (typeName fieldName : String) (parent : Json) : Except String Json :=
  match bindings.entry? typeName fieldName parent with
  | some value => .ok value
  | none =>
    match bindings.computed.lookup (typeName, fieldName) with
    | some compute => compute parent
    | none => .ok .null

end Bindings

end RelationalGraphQL.Execution
