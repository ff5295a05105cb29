import RelationalGraphQL.Schema.Basic
import RelationalGraphQL.Text.Escaped

/-!
One-line summaries of a schema and of a scalar, for logs.
-/

namespace RelationalGraphQL.Schema

/-- A record with its fields in order. -/
def recordText (name : String) (fields : List (String × String)) : String :=
  name ++ " \x7b " ++ ", ".intercalate (fields.map fun (key, value) => key ++ ": " ++ value) ++ " \x7d"

def optionalText (text : Option String) : String := text.elim "None" fun text => "Some(" ++ Text.escaped text ++ ")"

/-- The root types and the names of the declared types. -/
def summary (schema : Schema) : String :=
  recordText "Schema" [
    ("query_type", optionalText schema.queryType),
    ("mutation_type", optionalText schema.mutationType),
    ("subscription_type", optionalText schema.subscriptionType),
    ("types", "[" ++ ", ".intercalate (schema.declared.map Text.escaped) ++ "]")]

/-- A scalar, and whether values are marshaled for it. -/
def ScalarType.summary (scalar : ScalarType) : String :=
  recordText "ScalarType" [
    ("name", Text.escaped scalar.name),
    ("description", optionalText scalar.description),
    ("marshaler", if scalar.marshaler.isSome then "true" else "false")]

end RelationalGraphQL.Schema
