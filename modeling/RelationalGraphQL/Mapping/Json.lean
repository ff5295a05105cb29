import RelationalGraphQL.Mapping.Relation
import RelationalGraphQL.Sql.Json

/-!
Joins of relations in JSON. A join is a left join unless it says otherwise.
-/

namespace RelationalGraphQL.Mapping

def LinkTable.toJson (link : LinkTable) : Json := .ofTexts [link.table, link.sourceKey, link.targetKey]

/-- A link table from a list of its names; those that are missing are empty. -/
def LinkTable.ofJson? : Json → Option LinkTable
  | .arr parts =>
    let text (place : Nat) : String := (Json.arr parts).itemText place
    some { table := text 0, sourceKey := text 1, targetKey := text 2 }
  | _ => none

namespace Relation

def toJson (relation : Relation) : Json :=
  .obj [("relation", .str relation.kind.text), ("table", .str relation.table), ("source", .str relation.sourceColumn),
    ("target", .str relation.targetColumn), ("kind", .str relation.joinKind.name),
    ("lateral", .bool relation.isLateral), ("through", Json.orNull LinkTable.toJson relation.link)]

def ofJson? (json : Json) : Option Relation := do
  let kind ← (json.part "relation").word?.bind RelationKind.ofText?
  let joinKind ← match json.part "kind" with
    | .null => some Sql.JoinKind.left
    | kind => kind.word?.bind Sql.JoinKind.ofName?
  return { kind, table := json.textAt "table", sourceColumn := json.textAt "source",
           targetColumn := json.textAt "target", joinKind, link := LinkTable.ofJson? (json.part "through") }

end Relation

end RelationalGraphQL.Mapping
