/-!
Types as they are referred to: a name inside list and non-null wrappings.
-/

namespace RelationalGraphQL

inductive TypeRef where
  | named (name : String)
  | list (inner : TypeRef)
  | nonNull (inner : TypeRef)
  deriving DecidableEq, Repr, Inhabited

namespace TypeRef

/-- The name inside all wrappings. -/
def namedType : TypeRef → String
  | .named name => name
  | .list inner | .nonNull inner => inner.namedType

def isNonNull : TypeRef → Bool
  | .nonNull _ => true
  | _ => false

/-- Whether a value of the type is a list. -/
def isList : TypeRef → Bool
  | .named _ => false
  | .list _ => true
  | .nonNull inner => inner.isList

/-- The type of a list's elements; a type that is no list is its own element type. -/
def itemType : TypeRef → TypeRef
  | .named name => .named name
  | .list inner => inner
  | .nonNull inner => inner.itemType

def text : TypeRef → String
  | .named name => name
  | .list inner => "[" ++ inner.text ++ "]"
  | .nonNull inner => inner.text ++ "!"

end TypeRef

end RelationalGraphQL
