import RelationalGraphQL.Json.Lenient
import RelationalGraphQL.Selection.Basic

/-!
The JSON form of collected selections.
-/

namespace RelationalGraphQL

def AppliedDirective.toJson (directive : AppliedDirective) : Json :=
  .arr [.str directive.name, Json.ofPairs directive.arguments]

mutual

def SelectionSet.toJson : SelectionSet → Json
  | ⟨fields, typename⟩ =>
    .obj [("typename", .bool typename), ("len", .ofNat fields.length), ("empty", .bool (fields.isEmpty && !typename)),
      ("fields", .arr (SelectionSet.fieldsJson fields))]

def SelectionSet.fieldsJson : List SelectedField → List Json
  | [] => []
  | field :: fields => SelectedField.toJson field :: SelectionSet.fieldsJson fields

def SelectedField.toJson : SelectedField → Json
  | ⟨name, aliasName, arguments, directives, typeCondition, position, selections⟩ =>
    let field : SelectedField := ⟨name, aliasName, arguments, directives, typeCondition, position, selections⟩
    .obj [("key", .str field.responseKey), ("name", .str name), ("alias", .ofStr? aliasName),
      ("args", Json.ofPairs arguments), ("directives", .arr (directives.map AppliedDirective.toJson)),
      ("on", .ofStr? typeCondition), ("at", .arr [.ofNat position.line, .ofNat position.column]),
      ("children", .ofNat field.children.length), ("has_selections", .bool field.hasSelections),
      ("selections", match selections with
        | some set => set.toJson
        | none => .null)]

end

end RelationalGraphQL
