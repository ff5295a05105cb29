import RelationalGraphQL.Text.Split

/-!
Quoted names and strings: a quote inside is written twice.
-/

namespace RelationalGraphQL.Sql

def doubled (mark : Char) : List Char → List Char
  | [] => []
  | c :: rest => if c = mark then mark :: mark :: doubled mark rest else c :: doubled mark rest

def quoted (mark : Char) (text : String) : String := String.ofList (mark :: doubled mark text.toList ++ [mark])

def quoteIdentifier (name : String) : String := quoted '"' name

def quoteString (text : String) : String := quoted '\'' text

/-- A name that may carry schemas before dots, quoted part by part. -/
def quoteQualified (name : String) : String := ".".intercalate ((Text.pieces '.' name).map quoteIdentifier)

end RelationalGraphQL.Sql
