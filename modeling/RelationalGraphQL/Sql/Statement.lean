import RelationalGraphQL.Sql.Operator

/-!
Statements as data, over any type of fragments. Table names are raw and quoted when the statement is written; all
other pieces are fragments. `Select.findings` reports clauses that contradict each other.
-/

namespace RelationalGraphQL.Sql

structure OrderItem (φ : Type) where
  column : φ
  direction : Direction := .asc
  nulls : Option NullsOrder := none

/-- The body of a lateral join. Without a source it reads the joined table. -/
structure Subquery (φ : Type) where
  columns : List φ := []
  source : Option φ := none
  conditions : List φ := []
  order : List (OrderItem φ) := []
  limit : Option Nat := none
  offset : Option Nat := none

structure Join (φ : Type) where
  kind : JoinKind
  table : String
  aliasName : String
  on : Option φ := none
  subquery : Option (Subquery φ) := none

structure Select (φ : Type) where
  table : String
  aliasName : Option String := none
  distinctOn : List φ := []
  columns : List φ := []
  joins : List (Join φ) := []
  conditions : List φ := []
  groupBy : List φ := []
  having : List φ := []
  order : List (OrderItem φ) := []
  limit : Option Nat := none
  offset : Option Nat := none
  forUpdate : Bool := false
  lockedTables : List φ := []

inductive ConflictAction (φ : Type) where
  | nothing
  | update (assignments : List (φ × φ)) (conditions : List φ)

structure Conflict (φ : Type) where
  columns : List φ := []
  action : ConflictAction φ

structure Insert (φ : Type) where
  table : String
  columns : List φ := []
  /-- One list of values a row. -/
  rows : List (List φ) := []
  conflict : Option (Conflict φ) := none
  returning : List φ := []

structure Update (φ : Type) where
  table : String
  aliasName : Option String := none
  assignments : List (φ × φ) := []
  sources : List φ := []
  conditions : List φ := []
  returning : List φ := []

structure Delete (φ : Type) where
  table : String
  aliasName : Option String := none
  sources : List φ := []
  conditions : List φ := []
  returning : List φ := []

variable {φ ψ : Type}

def OrderItem.map (f : φ → ψ) (item : OrderItem φ) : OrderItem ψ := { item with column := f item.column }

def Subquery.map (f : φ → ψ) (query : Subquery φ) : Subquery ψ where
  columns := query.columns.map f
  source := query.source.map f
  conditions := query.conditions.map f
  order := query.order.map (OrderItem.map f)
  limit := query.limit
  offset := query.offset

def Join.map (f : φ → ψ) (join : Join φ) : Join ψ where
  kind := join.kind
  table := join.table
  aliasName := join.aliasName
  on := join.on.map f
  subquery := join.subquery.map (Subquery.map f)

def Select.map (f : φ → ψ) (select : Select φ) : Select ψ where
  table := select.table
  aliasName := select.aliasName
  distinctOn := select.distinctOn.map f
  columns := select.columns.map f
  joins := select.joins.map (Join.map f)
  conditions := select.conditions.map f
  groupBy := select.groupBy.map f
  having := select.having.map f
  order := select.order.map (OrderItem.map f)
  limit := select.limit
  offset := select.offset
  forUpdate := select.forUpdate
  lockedTables := select.lockedTables.map f

def ConflictAction.map (f : φ → ψ) : ConflictAction φ → ConflictAction ψ
  | .nothing => .nothing
  | .update assignments conditions =>
    .update (assignments.map fun (column, value) => (f column, f value)) (conditions.map f)

def Conflict.map (f : φ → ψ) (conflict : Conflict φ) : Conflict ψ where
  columns := conflict.columns.map f
  action := conflict.action.map f

def Insert.map (f : φ → ψ) (insert : Insert φ) : Insert ψ where
  table := insert.table
  columns := insert.columns.map f
  rows := insert.rows.map (List.map f)
  conflict := insert.conflict.map (Conflict.map f)
  returning := insert.returning.map f

def Update.map (f : φ → ψ) (update : Update φ) : Update ψ where
  table := update.table
  aliasName := update.aliasName
  assignments := update.assignments.map fun (column, value) => (f column, f value)
  sources := update.sources.map f
  conditions := update.conditions.map f
  returning := update.returning.map f

def Delete.map (f : φ → ψ) (delete : Delete φ) : Delete ψ where
  table := delete.table
  aliasName := delete.aliasName
  sources := delete.sources.map f
  conditions := delete.conditions.map f
  returning := delete.returning.map f

/-- A contradiction between clauses of a SELECT. -/
structure Finding where
  field : String
  message : String
  deriving DecidableEq, Repr

namespace Finding

def distinctGrouped : Finding := ⟨"DistinctOn/GroupBy", "DISTINCT ON cannot be combined with GROUP BY"⟩

def distinctUnordered : Finding :=
  ⟨"DistinctOn/OrderBy", "DISTINCT ON expressions must match the leftmost ORDER BY expressions"⟩

def lockedOuter : Finding :=
  ⟨"ForUpdate/Join",
    "FOR UPDATE cannot be applied to the nullable side of an outer join; name the locked tables with FOR UPDATE OF"⟩

def havingUngrouped : Finding := ⟨"Having", "HAVING requires a GROUP BY clause"⟩

def havingOuter : Finding :=
  ⟨"Join/Having", "HAVING over a LEFT JOIN filters out NULL-extended rows; an INNER JOIN may be intended"⟩

end Finding

/-- Whether the first orderings are exactly the distinct expressions. -/
def Select.distinctLeadsOrder [DecidableEq φ] (select : Select φ) : Bool :=
  select.distinctOn.isPrefixOf (select.order.map OrderItem.column)

/-- The contradictions of a SELECT. The statement can be written all the same. -/
def Select.findings [DecidableEq φ] (select : Select φ) : List Finding :=
  let distinct := !select.distinctOn.isEmpty
  let having := !select.having.isEmpty
  let report (holds : Bool) (finding : Finding) : List Finding := if holds then [finding] else []
  report (distinct && !select.groupBy.isEmpty) .distinctGrouped
    ++ report (distinct && !select.order.isEmpty && !select.distinctLeadsOrder) .distinctUnordered
    ++ report (select.forUpdate && select.lockedTables.isEmpty && select.joins.any (·.kind.isOuter)) .lockedOuter
    ++ report (having && select.groupBy.isEmpty) .havingUngrouped
    ++ report (having && select.joins.any fun join => join.kind = .left || join.kind = .leftLateral) .havingOuter

end RelationalGraphQL.Sql
