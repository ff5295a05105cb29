import RelationalGraphQL.Mapping.Relation
import RelationalGraphQL.Scalar
import RelationalGraphQL.Table

/-!
The configuration of a mapping: names of tables and columns, joins, coercions of scalars, and limits of execution.
-/

namespace RelationalGraphQL

namespace Config

inductive JoinChoice where
  | left
  | inner
  | right
  deriving DecidableEq, Repr

namespace JoinChoice

def text : JoinChoice → String
  | .left => "left"
  | .inner => "inner"
  | .right => "right"

def ofText? : String → Option JoinChoice
  | "left" => some .left
  | "inner" => some .inner
  | "right" => some .right
  | _ => none

def joinKind : JoinChoice → Sql.JoinKind
  | .left => .left
  | .inner => .inner
  | .right => .right

end JoinChoice

/-- The join of a relation field. The foreign key is a column of the table that refers, and `references` the column
that it refers to. A many-to-many relation has a link table, and both name the columns its keys refer to. -/
structure Relation where
  kind : RelationKind
  table : String
  foreignKey : String
  references : String := "id"
  join : JoinChoice := .left
  link : Option Mapping.LinkTable := none
  deriving DecidableEq, Repr

/-- The join seen from the parent. Only a relation that belongs to its target has the foreign key on its own side. -/
def Relation.toMapping (relation : Relation) : Mapping.Relation :=
  let (sourceColumn, targetColumn) := match relation.kind with
    | .belongsTo => (relation.foreignKey, relation.references)
    | .hasOne | .hasMany | .manyToMany => (relation.references, relation.foreignKey)
  { kind := relation.kind, table := relation.table, sourceColumn, targetColumn,
    joinKind := relation.join.joinKind, link := relation.link }

/-- Limits of the loaders that fetch rows in batches. The delay is in milliseconds. -/
structure Loading where
  maxBatch : Nat := 100
  delay : Nat := 1
  deriving DecidableEq, Repr

/-- Limits of execution. The time limit of a request is in milliseconds. -/
structure Execution where
  timeout : Option Nat := none
  loading : Loading := {}
  deriving DecidableEq, Repr

end Config

/-- A configuration. Fields are keyed by type and name with a dot between them. -/
structure Config where
  dialect : String := "postgresql"
  pluralizesTables : Bool := false
  models : Table String := []
  fields : Table String := []
  relations : Table Config.Relation := []
  scalars : Table ScalarKind := []
  execution : Config.Execution := {}
  deriving DecidableEq, Repr

def Config.blog : Config where
  pluralizesTables := true
  relations :=
    [("User.posts", { kind := .hasMany, table := "posts", foreignKey := "user_id" }),
      ("Post.author", { kind := .belongsTo, table := "users", foreignKey := "user_id" }),
      ("Post.tags",
        { kind := .manyToMany, table := "tags", foreignKey := "id",
          link := some { table := "post_tags", sourceKey := "post_id", targetKey := "tag_id" } })]

end RelationalGraphQL
