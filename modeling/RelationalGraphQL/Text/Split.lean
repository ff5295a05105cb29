/-!
Cutting texts at a character.
-/

namespace RelationalGraphQL.Text

/-- The texts before and after the first separator. -/
def splitOnce (separator : Char) : List Char → Option (List Char × List Char)
  | [] => none
  | c :: rest =>
    if c = separator then some ([], rest)
    else (splitOnce separator rest).map fun (before, after) => (c :: before, after)

/-- The pieces of a text between the separators. -/
def pieces (separator : Char) (text : String) : List String := (text.toList.splitOn separator).map String.ofList

end RelationalGraphQL.Text
