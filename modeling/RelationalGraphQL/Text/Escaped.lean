import RelationalGraphQL.Text.Hidden

/-!
Texts as they are shown to people who look for faults: in quotes, with an escape for whatever cannot be seen.
-/

namespace RelationalGraphQL.Text

def escapedChar (c : Char) : List Char :=
  match c with
  | '"' => ['\\', '"']
  | '\\' => ['\\', '\\']
  | '\n' => ['\\', 'n']
  | '\r' => ['\\', 'r']
  | '\t' => ['\\', 't']
  | '\x00' => ['\\', '0']
  | c => if isHidden c then '\\' :: 'u' :: '\x7b' :: Nat.toDigits 16 c.toNat ++ ['\x7d'] else [c]

/-- A text in quotes, escaped. -/
def escaped (text : String) : String := "\"" ++ String.ofList (text.toList.flatMap escapedChar) ++ "\""

end RelationalGraphQL.Text
