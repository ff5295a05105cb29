import RelationalGraphQL.Json.Lenient
import RelationalGraphQL.Sql.Name
import RelationalGraphQL.Sql.Statement
import RelationalGraphQL.Sql.Value

/-!
Statements and bound values in JSON. In a statement whatever is absent is empty, but a direction, a kind of join or a
place for nulls must be one that exists.
-/

namespace RelationalGraphQL.Sql

mutual

/-- A value with the name of its kind in front. -/
def Value.tagged : Value → Json
  | .null => .arr [.str "Null"]
  | .boolean value => .arr [.str "Boolean", .bool value]
  | .integer value => .arr [.str "Integer", .ofInt value]
  | .float value => .arr [.str "Float", .num (.float value)]
  | .text value => .arr [.str "String", .str value]
  | .array items => .arr [.str "Array", .arr (Value.taggedItems items)]
  | .json value => .arr [.str "Json", value]

def Value.taggedItems : List Value → List Json
  | [] => []
  | item :: items => item.tagged :: Value.taggedItems items

end

def Parameters.toJson (parameters : Parameters) : Json := .arr (parameters.map Value.tagged)

def Finding.toJson (finding : Finding) : Json := .obj [("field", .str finding.field), ("message", .str finding.message)]

def OrderItem.toJson (item : OrderItem String) : Json :=
  .arr [.str item.column, .str item.direction.name, Json.orNull (fun nulls => .str nulls.name) item.nulls]

/-- The place for nulls, if one is given. -/
def NullsOrder.ofJson? : Json → Option (Option NullsOrder)
  | .null => some none
  | json => (json.word?.bind NullsOrder.ofName?).map some

def OrderItem.ofJson? (json : Json) : Option (OrderItem String) := do
  let direction ← (json.part "direction").word?.bind Direction.ofName?
  let nulls ← NullsOrder.ofJson? (json.part "nulls")
  return { column := json.textAt "column", direction, nulls }

def orderOfJson? (json : Json) : Option (List (OrderItem String)) := (json.itemsAt "order_by").mapM OrderItem.ofJson?

/-- A text that stands for nothing if it is empty. -/
def nonEmpty? (text : String) : Option String := if text.isEmpty then none else some text

def Subquery.ofJson? (json : Json) : Option (Subquery String) := do
  return {
    columns := json.textsAt "columns"
    source := nonEmpty? (json.textAt "from")
    conditions := json.textsAt "where"
    order := ← orderOfJson? json
    limit := json.nat?At "limit"
    offset := json.nat?At "offset" }

def Join.ofJson? (json : Json) : Option (Join String) := do
  let kind ← (json.part "kind").word?.bind JoinKind.ofName?
  let subquery ← match json.part "subquery" with
    | .null => some none
    | query => (Subquery.ofJson? query).map some
  return { kind, table := json.textAt "table", aliasName := json.textAt "alias", on := nonEmpty? (json.textAt "on"),
           subquery }

def Select.ofJson? (json : Json) : Option (Select String) := do
  return {
    table := json.textAt "table"
    aliasName := json.text?At "alias"
    distinctOn := json.textsAt "distinct_on"
    columns := json.textsAt "columns"
    joins := ← (json.itemsAt "joins").mapM Join.ofJson?
    conditions := json.textsAt "where"
    groupBy := json.textsAt "group_by"
    having := json.textsAt "having"
    order := ← orderOfJson? json
    limit := json.nat?At "limit"
    offset := json.nat?At "offset"
    forUpdate := json.flagAt "for_update"
    lockedTables := json.textsAt "for_update_of" }

/-- Assignments as pairs of a column and a value. -/
def assignmentsOfJson (json : Json) : List (String × String) :=
  json.toItems.map fun pair => (pair.itemText 0, pair.itemText 1)

def Conflict.ofJson : Json → Option (Conflict String)
  | .null => none
  | json => some {
      columns := json.textsAt "columns"
      action := match json.part "update" with
        | .null => .nothing
        | update => .update (assignmentsOfJson update) (json.textsAt "where") }

def Insert.ofJson (json : Json) : Insert String where
  table := json.textAt "table"
  columns := json.textsAt "columns"
  rows := (json.itemsAt "values").map Json.toTexts
  conflict := Conflict.ofJson (json.part "on_conflict")
  returning := json.textsAt "returning"

def Update.ofJson (json : Json) : Update String where
  table := json.textAt "table"
  aliasName := json.text?At "alias"
  assignments := assignmentsOfJson (json.part "set")
  sources := json.textsAt "from"
  conditions := json.textsAt "where"
  returning := json.textsAt "returning"

def Delete.ofJson (json : Json) : Delete String where
  table := json.textAt "table"
  aliasName := json.text?At "alias"
  sources := json.textsAt "using"
  conditions := json.textsAt "where"
  returning := json.textsAt "returning"

end RelationalGraphQL.Sql
