/-!
The SQL constructs that statements are made of, with their keywords.
-/

namespace RelationalGraphQL.Sql

inductive JoinKind where
  | inner
  | left
  | right
  | full
  | cross
  | lateral
  | leftLateral
  deriving DecidableEq, Repr

namespace JoinKind

/-- Joins that can extend a row with nulls. -/
def isOuter : JoinKind → Bool
  | .left | .right | .full | .leftLateral => true
  | .inner | .cross | .lateral => false

def isLateral : JoinKind → Bool
  | .lateral | .leftLateral => true
  | _ => false

def keyword : JoinKind → String
  | .inner => "INNER JOIN"
  | .left => "LEFT JOIN"
  | .right => "RIGHT JOIN"
  | .full => "FULL JOIN"
  | .cross => "CROSS JOIN"
  | .lateral => "CROSS JOIN LATERAL"
  | .leftLateral => "LEFT JOIN LATERAL"

end JoinKind

inductive BinaryOperator where
  | eq
  | notEq
  | lt
  | ltEq
  | gt
  | gtEq
  | and
  | or
  | plus
  | minus
  | multiply
  | divide
  | modulo
  | like
  | iLike
  | notLike
  | notILike
  | similarTo
  | regexMatch
  | regexIMatch
  | jsonGet
  | jsonGetText
  | jsonPath
  | jsonPathText
  | jsonContains
  | jsonContainedBy
  | arrayContains
  | arrayOverlap
  | concat
  deriving DecidableEq, Repr

def BinaryOperator.symbol : BinaryOperator → String
  | .eq => "="
  | .notEq => "<>"
  | .lt => "<"
  | .ltEq => "<="
  | .gt => ">"
  | .gtEq => ">="
  | .and => "AND"
  | .or => "OR"
  | .plus => "+"
  | .minus => "-"
  | .multiply => "*"
  | .divide => "/"
  | .modulo => "%"
  | .like => "LIKE"
  | .iLike => "ILIKE"
  | .notLike => "NOT LIKE"
  | .notILike => "NOT ILIKE"
  | .similarTo => "SIMILAR TO"
  | .regexMatch => "~"
  | .regexIMatch => "~*"
  | .jsonGet => "->"
  | .jsonGetText => "->>"
  | .jsonPath => "#>"
  | .jsonPathText => "#>>"
  | .jsonContains => "@>"
  | .jsonContainedBy => "<@"
  | .arrayContains => "@>"
  | .arrayOverlap => "&&"
  | .concat => "||"

inductive UnaryOperator where
  | not
  | negate
  | isNull
  | isNotNull
  | isTrue
  | isFalse
  | exists
  | notExists
  deriving DecidableEq, Repr

namespace UnaryOperator

/-- Operators that follow their operand. -/
def followsOperand : UnaryOperator → Bool
  | .isNull | .isNotNull | .isTrue | .isFalse => true
  | .not | .negate | .exists | .notExists => false

def keyword : UnaryOperator → String
  | .not => "NOT"
  | .negate => "-"
  | .isNull => "IS NULL"
  | .isNotNull => "IS NOT NULL"
  | .isTrue => "IS TRUE"
  | .isFalse => "IS FALSE"
  | .exists => "EXISTS"
  | .notExists => "NOT EXISTS"

end UnaryOperator

/-- ASCII letters in upper case, every other character as it is. -/
def upperAscii (text : String) : String := String.ofList (text.toList.map Char.toUpper)

inductive Direction where
  | asc
  | desc
  deriving DecidableEq, Repr

namespace Direction

def keyword : Direction → String
  | .asc => "ASC"
  | .desc => "DESC"

def parse? (text : String) : Option Direction :=
  match upperAscii text with
  | "ASC" => some .asc
  | "DESC" => some .desc
  | _ => none

end Direction

/-- Where nulls stand in an ordering. -/
inductive NullsOrder where
  | first
  | last
  deriving DecidableEq, Repr

namespace NullsOrder

def keyword : NullsOrder → String
  | .first => "NULLS FIRST"
  | .last => "NULLS LAST"

def parse? (text : String) : Option NullsOrder :=
  match upperAscii text with
  | "FIRST" => some .first
  | "LAST" => some .last
  | _ => none

end NullsOrder

def booleanLiteral (value : Bool) : String := if value then "TRUE" else "FALSE"

/-- A value cast to a named type. -/
def cast (expression typeName : String) : String := expression ++ "::" ++ typeName

end RelationalGraphQL.Sql
