/-!
Lower-case names with underscores, from names in camel case. A run of capitals is one word, so an acronym stays
together, and every character that is not an ASCII letter or digit separates words.
-/

namespace RelationalGraphQL.Naming

/-- The case of the letters read so far in a word; digits keep it. -/
inductive LetterCase where
  | none
  | lower
  | upper
  deriving DecidableEq, Repr

/-- The case after a character. -/
def LetterCase.after (current : LetterCase) (c : Char) : LetterCase :=
  if c.isLower then .lower else if c.isUpper then .upper else current

/-- The pieces of a text between its separators, empty ones included. -/
def alphanumericPieces : List Char → List (List Char)
  | [] => [[]]
  | c :: rest =>
    match alphanumericPieces rest with
    | [] => [[]]
    | piece :: pieces => if c.isAlphanum then (c :: piece) :: pieces else [] :: piece :: pieces

/-- Cuts a piece into words: after a lower-case letter before a capital, and before the last capital of a run that a
lower-case letter follows. `word` is the word under way, in reverse. -/
def wordsOf (current : LetterCase) (word : List Char) : List Char → List (List Char)
  | [] => if word.isEmpty then [] else [word.reverse]
  | [c] => [(c :: word).reverse]
  | c :: next :: rest =>
    let reached := current.after c
    if reached = .lower ∧ next.isUpper then (c :: word).reverse :: wordsOf .none [] (next :: rest)
    else if current = .upper ∧ c.isUpper ∧ next.isLower then word.reverse :: wordsOf .none [c] (next :: rest)
    else wordsOf reached (c :: word) (next :: rest)

/-- The snake-case form of a name. -/
def snakeCase (name : String) : String :=
  let words := (alphanumericPieces name.toList).flatMap (wordsOf .none [])
  "_".intercalate (words.map fun word => String.ofList (word.map Char.toLower))

end RelationalGraphQL.Naming
