/-!
Table aliases: a letter, and a number from 2 where the letter is taken.
-/

namespace RelationalGraphQL.Mapping

/-- The first ASCII letter of a name in lower case. -/
def initial (name : String) : String :=
  match name.toList.find? Char.isAlpha with
  | some c => c.toLower.toString
  | none => "t"

/-- An alias for a name that is not taken. Among one more candidate than aliases are taken, one is free. -/
def freshAlias (taken : List String) (name : String) : String :=
  let base := initial name
  if taken.contains base then
    let candidates := (List.range (taken.length + 1)).map fun n : Nat => base ++ toString (n + 2)
    (candidates.find? fun candidate => !taken.contains candidate).getD base
  else base

end RelationalGraphQL.Mapping
