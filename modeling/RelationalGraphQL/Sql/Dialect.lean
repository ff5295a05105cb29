import RelationalGraphQL.Sql.Quoted

/-!
A dialect says what a database can do, how it quotes a name and how it numbers its placeholders.
-/

namespace RelationalGraphQL.Sql

inductive Capability where
  | returning
  | upsert
  | cte
  | recursiveCte
  | windowFunctions
  | json
  | arrays
  | literalJoin
  | distinctOn
  | limitOffset
  | nullsOrdering
  | rowLocking
  | materializedCte
  | fullOuterJoin
  deriving DecidableEq, Repr

def Capability.all : List Capability :=
  [.returning, .upsert, .cte, .recursiveCte, .windowFunctions, .json, .arrays, .literalJoin, .distinctOn,
   .limitOffset, .nullsOrdering, .rowLocking, .materializedCte, .fullOuterJoin]

structure Dialect where
  name : String
  supports : Capability → Bool
  /-- Whether whole statements can be assembled. -/
  buildsStatements : Bool
  quoteName : String → String
  /-- The placeholder of the parameter at a position counted from 1. -/
  placeholder : Nat → String

namespace Dialect

/-- Every capability, doubled quotes, and `$n` for the n-th parameter. -/
def postgres : Dialect where
  name := "postgresql"
  supports _ := true
  buildsStatements := true
  quoteName := quoteIdentifier
  placeholder n := "$" ++ toString n

/-- The dialect a configuration names, in any case. -/
def ofName? (name : String) : Option Dialect :=
  match String.ofList (name.toList.map Char.toLower) with
  | "postgresql" | "postgres" | "pg" => some postgres
  | _ => none

end Dialect

end RelationalGraphQL.Sql
