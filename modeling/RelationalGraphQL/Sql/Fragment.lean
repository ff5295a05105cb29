import RelationalGraphQL.Sql.Condition
import RelationalGraphQL.Sql.Dialect
import RelationalGraphQL.Sql.Value

/-!
The pieces that a compiled statement is put together from: columns, outputs, join conditions, operands.
-/

namespace RelationalGraphQL.Sql

/-- What a column name is qualified by: an alias as it is, or a table by its quoted name. -/
inductive Qualifier where
  | aliased (name : String)
  | table (name : String)
  deriving DecidableEq, Repr

structure Column where
  qualifier : Option Qualifier := none
  name : String
  deriving DecidableEq, Repr

inductive Fragment where
  | column (c : Column)
  /-- A column under an output name. -/
  | output (c : Column) (name : String)
  | equal (left right : Column)
  | always
  | conjunction (conditions : List (Condition Column))
  /-- A target table joined with its link table. -/
  | linked (target link targetKey targetColumn : String)
  | operand (o : Operand)
  /-- The value that a conflicting insertion proposed for a column. -/
  | excluded (name : String)

def Qualifier.text (dialect : Dialect) : Qualifier → String
  | .aliased name => name
  | .table name => dialect.quoteName name

def Column.text (dialect : Dialect) (column : Column) : String :=
  match column.qualifier with
  | none => dialect.quoteName column.name
  | some qualifier => qualifier.text dialect ++ "." ++ dialect.quoteName column.name

def Fragment.text (dialect : Dialect) : Fragment → String
  | .column c => c.text dialect
  | .output c name => c.text dialect ++ " AS " ++ dialect.quoteName name
  | .equal left right => left.text dialect ++ " = " ++ right.text dialect
  | .always => booleanLiteral true
  | .conjunction conditions => Condition.conjunctionText (Column.text dialect) dialect.placeholder conditions
  | .linked target link targetKey targetColumn =>
    dialect.quoteName target ++ " INNER JOIN " ++ dialect.quoteName link ++ " ON "
      ++ dialect.quoteName link ++ "." ++ dialect.quoteName targetKey ++ " = "
      ++ dialect.quoteName target ++ "." ++ dialect.quoteName targetColumn
  | .operand o => o.text dialect.placeholder
  | .excluded name => "EXCLUDED." ++ dialect.quoteName name

end RelationalGraphQL.Sql
