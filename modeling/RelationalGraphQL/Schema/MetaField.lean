/-!
The types of the fields that describe a schema itself.
-/

namespace RelationalGraphQL.Schema

/-- The named type of a field on an introspection type. Some names have their type on every parent. -/
def metaFieldType? (parentType fieldName : String) : Option String :=
  match parentType, fieldName with
  | _, "__schema" => some "__Schema"
  | _, "__type" => some "__Type"
  | "__Schema", "types" | "__Schema", "queryType" | "__Schema", "mutationType" | "__Schema", "subscriptionType" =>
    some "__Type"
  | "__Schema", "directives" => some "__Directive"
  | "__Type", "fields" => some "__Field"
  | "__Type", "interfaces" | "__Type", "possibleTypes" | "__Type", "ofType" => some "__Type"
  | "__Type", "enumValues" => some "__EnumValue"
  | "__Type", "inputFields" => some "__InputValue"
  | "__Field", "args" | "__Directive", "args" => some "__InputValue"
  | "__Field", "type" | "__InputValue", "type" => some "__Type"
  | _, "kind" => some "__TypeKind"
  | _, "locations" => some "__DirectiveLocation"
  | _, _ => none

end RelationalGraphQL.Schema
