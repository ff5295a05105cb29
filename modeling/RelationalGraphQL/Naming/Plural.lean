/-!
English plurals for table names. Only the last word of a snake-case name changes.
-/

namespace RelationalGraphQL.Naming

def isVowel (c : Char) : Bool := c ∈ ['a', 'e', 'i', 'o', 'u']

/-- Words in -o after a consonant that take a bare -s. -/
def plainPlurals : List (List Char) :=
  ["photo", "piano", "halo", "memo", "logo", "video"].map String.toList

/-- Whether the letter before the last one is a vowel; the word is given in reverse. -/
def afterVowel : List Char → Bool
  | _ :: before :: _ => isVowel before
  | _ => false

/-- The plural of a word given in reverse, itself in reverse. -/
def pluralReversed (word : List Char) : List Char :=
  let plus (ending : String) (stem : List Char) : List Char := ending.toList.reverse ++ stem
  match word with
  | 'y' :: c :: stem => if afterVowel word then plus "s" word else plus "ies" (c :: stem)
  | 's' :: _ | 'h' :: 's' :: _ | 'h' :: 'c' :: _ | 'x' :: _ | 'z' :: _ => plus "es" word
  | 'e' :: 'f' :: c :: stem => plus "ves" (c :: stem)
  | 'f' :: c :: stem => if c = 'f' then plus "s" word else plus "ves" (c :: stem)
  | 'o' :: _ :: _ =>
    if afterVowel word ∨ word.reverse ∈ plainPlurals then plus "s" word else plus "es" word
  | _ => plus "s" word

/-- The plural of a snake-case name. The empty name has no plural but itself. -/
def pluralize (name : String) : String :=
  if name.isEmpty then name
  else
    let reversed := name.toList.reverse
    let word := reversed.takeWhile (· ≠ '_')
    let head := reversed.dropWhile (· ≠ '_')
    String.ofList (pluralReversed word ++ head).reverse

end RelationalGraphQL.Naming
