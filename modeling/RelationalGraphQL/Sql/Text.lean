import RelationalGraphQL.Sql.Quoted
import RelationalGraphQL.Sql.Statement

/-!
The text of a statement whose fragments are written already. A clause without content is left out.
-/

namespace RelationalGraphQL.Sql

def commaList (texts : List String) : String := ", ".intercalate texts

/-- A clause with its keyword, or nothing for an empty list. -/
def clause (keyword separator : String) (texts : List String) : String :=
  if texts.isEmpty then "" else keyword ++ separator.intercalate texts

def OrderItem.text (item : OrderItem String) : String :=
  item.column ++ " " ++ item.direction.keyword ++ (item.nulls.elim "" fun nulls => " " ++ nulls.keyword)

def orderClause (keyword : String) (order : List (OrderItem String)) : String :=
  clause keyword ", " (order.map OrderItem.text)

/-- A keyword and a number, or nothing. -/
def countClause (keyword : String) (count : Option Nat) : String :=
  count.elim "" fun count => keyword ++ toString count

def columnList (columns : List String) : String := if columns.isEmpty then "*" else commaList columns

def aliasText (aliasName : Option String) : String := aliasName.elim "" fun aliasName => " " ++ aliasName

def assignmentList (assignments : List (String × String)) : String :=
  commaList (assignments.map fun (column, value) => column ++ " = " ++ value)

def returningClause (columns : List String) : String := clause "\nRETURNING " ", " columns

def Subquery.text (table : String) (query : Subquery String) : String :=
  "(\n    SELECT " ++ columnList query.columns
    ++ "\n    FROM " ++ query.source.getD (quoteQualified table)
    ++ clause "\n    WHERE " " AND " query.conditions
    ++ orderClause "\n    ORDER BY " query.order
    ++ countClause "\n    LIMIT " query.limit
    ++ countClause "\n    OFFSET " query.offset
    ++ "\n)"

def Join.text (join : Join String) : String :=
  "\n" ++ join.kind.keyword ++ " "
    ++ (match join.subquery with
        | some query => query.text join.table
        | none => quoteQualified join.table)
    ++ " " ++ join.aliasName
    ++ (join.on.elim "" fun condition => " ON " ++ condition)

def Select.text (select : Select String) : String :=
  "SELECT "
    ++ (if select.distinctOn.isEmpty then "" else "DISTINCT ON (" ++ commaList select.distinctOn ++ ") ")
    ++ columnList select.columns
    ++ "\nFROM " ++ quoteQualified select.table ++ aliasText select.aliasName
    ++ String.join (select.joins.map Join.text)
    ++ clause "\nWHERE " "\n  AND " select.conditions
    ++ clause "\nGROUP BY " ", " select.groupBy
    ++ clause "\nHAVING " " AND " select.having
    ++ orderClause "\nORDER BY " select.order
    ++ countClause "\nLIMIT " select.limit
    ++ countClause " OFFSET " select.offset
    ++ (if select.forUpdate then "\nFOR UPDATE" ++ clause " OF " ", " select.lockedTables else "")

def ConflictAction.text : ConflictAction String → String
  | .nothing => " DO NOTHING"
  | .update assignments conditions =>
    " DO UPDATE SET " ++ assignmentList assignments ++ clause " WHERE " " AND " conditions

def Conflict.text (conflict : Conflict String) : String :=
  "\nON CONFLICT"
    ++ (if conflict.columns.isEmpty then "" else " (" ++ commaList conflict.columns ++ ")")
    ++ conflict.action.text

def Insert.text (insert : Insert String) : String :=
  "INSERT INTO " ++ quoteQualified insert.table ++ " (" ++ commaList insert.columns ++ ")\nVALUES "
    ++ commaList (insert.rows.map fun row => "(" ++ commaList row ++ ")")
    ++ (insert.conflict.elim "" Conflict.text)
    ++ returningClause insert.returning

def Update.text (update : Update String) : String :=
  "UPDATE " ++ quoteQualified update.table ++ aliasText update.aliasName
    ++ "\nSET " ++ assignmentList update.assignments
    ++ clause "\nFROM " ", " update.sources
    ++ clause "\nWHERE " " AND " update.conditions
    ++ returningClause update.returning

def Delete.text (delete : Delete String) : String :=
  "DELETE FROM " ++ quoteQualified delete.table ++ aliasText delete.aliasName
    ++ clause "\nUSING " ", " delete.sources
    ++ clause "\nWHERE " " AND " delete.conditions
    ++ returningClause delete.returning

end RelationalGraphQL.Sql
