import RelationalGraphQL.Naming.SnakeCase
import RelationalGraphQL.Schema.Basic
import RelationalGraphQL.Sql.Operator

/-!
How a relation field joins the table of its target.
-/

namespace RelationalGraphQL.Mapping

open Naming (snakeCase)

/-- The link table of a many-to-many relation, with its columns that point at either side. -/
structure LinkTable where
  table : String
  sourceKey : String
  targetKey : String
  deriving DecidableEq, Repr

/-- The join of a relation. The source column is on the parent's table and the target column on the target's; with a
link table, both are compared with its keys. -/
structure Relation where
  kind : RelationKind
  table : String
  sourceColumn : String
  targetColumn : String
  joinKind : Sql.JoinKind := .left
  link : Option LinkTable := none
  deriving DecidableEq, Repr

namespace Relation

/-- Whether the rows are fetched through a correlated subquery. -/
def isLateral (relation : Relation) : Bool := relation.kind.isToMany

/-- The usual join of a field that the schema marks as a relation: a target refers to its parent by
`<parent>_id`, a parent to its target by `<field>_id`, and a link table is named for both sides. -/
def usual (parentType : String) (field : Schema.Field) (kind : RelationKind) (table : String) : Relation :=
  let parent := snakeCase parentType
  match kind with
  | .hasMany | .hasOne => { kind, table, sourceColumn := "id", targetColumn := parent ++ "_id" }
  | .belongsTo => { kind, table, sourceColumn := snakeCase field.name ++ "_id", targetColumn := "id" }
  | .manyToMany =>
    { kind, table, sourceColumn := "id", targetColumn := "id",
      link := some
        { table := parent ++ "_" ++ table, sourceKey := parent ++ "_id",
          targetKey := snakeCase field.type.namedType ++ "_id" } }

end Relation

end RelationalGraphQL.Mapping
