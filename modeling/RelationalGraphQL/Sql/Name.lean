import RelationalGraphQL.Sql.Operator

/-!
The names that statements in data form give to SQL constructs.
-/

namespace RelationalGraphQL.Sql

/-- The value with a name, in a list of named values. -/
def named? {α : Type} (names : List (String × α)) (name : String) : Option α := names.lookup name

/-- The name of a value in a list of named values. -/
def nameIn {α : Type} [DecidableEq α] (names : List (String × α)) (value : α) : String :=
  ((names.find? fun (_, other) => other = value).map Prod.fst).getD ""

def JoinKind.names : List (String × JoinKind) :=
  [("Inner", .inner), ("Left", .left), ("Right", .right), ("Full", .full), ("Cross", .cross), ("Lateral", .lateral),
   ("LeftLateral", .leftLateral)]

def JoinKind.name (kind : JoinKind) : String := nameIn names kind

def JoinKind.ofName? (name : String) : Option JoinKind := named? names name

def Direction.names : List (String × Direction) := [("Asc", .asc), ("Desc", .desc)]

def Direction.name (direction : Direction) : String := nameIn names direction

def Direction.ofName? (name : String) : Option Direction := named? names name

def NullsOrder.names : List (String × NullsOrder) := [("First", .first), ("Last", .last)]

def NullsOrder.name (nulls : NullsOrder) : String := nameIn names nulls

def NullsOrder.ofName? (name : String) : Option NullsOrder := named? names name

def BinaryOperator.names : List (String × BinaryOperator) :=
  [("Eq", .eq), ("NotEq", .notEq), ("Lt", .lt), ("LtEq", .ltEq), ("Gt", .gt), ("GtEq", .gtEq), ("And", .and),
   ("Or", .or), ("Plus", .plus), ("Minus", .minus), ("Multiply", .multiply), ("Divide", .divide),
   ("Modulo", .modulo), ("Like", .like), ("ILike", .iLike), ("NotLike", .notLike), ("NotILike", .notILike),
   ("SimilarTo", .similarTo), ("RegexMatch", .regexMatch), ("RegexIMatch", .regexIMatch), ("JsonGet", .jsonGet),
   ("JsonGetText", .jsonGetText), ("JsonPath", .jsonPath), ("JsonPathText", .jsonPathText),
   ("JsonContains", .jsonContains), ("JsonContainedBy", .jsonContainedBy), ("ArrayContains", .arrayContains),
   ("ArrayOverlap", .arrayOverlap), ("Concat", .concat)]

def BinaryOperator.ofName? (name : String) : Option BinaryOperator := named? names name

def UnaryOperator.names : List (String × UnaryOperator) :=
  [("Not", .not), ("Negate", .negate), ("IsNull", .isNull), ("IsNotNull", .isNotNull), ("IsTrue", .isTrue),
   ("IsFalse", .isFalse), ("Exists", .exists), ("NotExists", .notExists)]

def UnaryOperator.ofName? (name : String) : Option UnaryOperator := named? names name

end RelationalGraphQL.Sql
