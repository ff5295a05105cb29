import RelationalGraphQL.Binary64.Shortest
import RelationalGraphQL.Json.Basic

/-!
Compact JSON text: no blanks, entries in their order, and numbers with the fewest digits that read back.
-/

namespace RelationalGraphQL.Json

/-- Where a floating-point number is written positionally, by the place of its first digit. -/
structure FloatFormat where
  lowest : Int
  highest : Int

/-- Positional from five places after the point to sixteen before it; the exponent is signed and not padded. -/
def floatFormat : FloatFormat := ⟨-5, 15⟩

/-- Digits with a point after the first of them, if there are more. -/
def pointAfterFirst : List Char → List Char
  | [] => []
  | [c] => [c]
  | c :: rest => c :: '.' :: rest

/-- A magnitude in positional notation, with at least one digit on either side of the point. -/
def positional (digits : List Char) (exponent : Int) : List Char :=
  if 0 ≤ exponent then digits ++ List.replicate exponent.toNat '0' ++ ['.', '0']
  else
    let places := (-exponent).toNat
    let padded := List.replicate (places + 1 - digits.length) '0' ++ digits
    padded.take (padded.length - places) ++ '.' :: padded.drop (padded.length - places)

/-- A magnitude as a mantissa and a power of ten. -/
def scientific (digits : List Char) (leading : Int) : List Char :=
  let sign := if leading < 0 then '-' else '+'
  pointAfterFirst digits ++ 'e' :: sign :: Nat.toDigits 10 leading.natAbs

def floatText (x : Binary64) : String :=
  let decimal := x.shortest
  let digits := Nat.toDigits 10 decimal.digits
  let magnitude :=
    if floatFormat.lowest ≤ decimal.leading ∧ decimal.leading ≤ floatFormat.highest then
      positional digits decimal.exponent
    else scientific digits decimal.leading
  String.ofList (if x.negative then '-' :: magnitude else magnitude)

def numberText : Number → String
  | .int value => toString value
  | .float value => floatText value

def hexDigit (n : Nat) : Char := (Nat.digitChar (n % 16))

/-- A character inside a quoted text: quotes, backslashes and controls are escaped, all else stands as it is. -/
def escapeChar (c : Char) : List Char :=
  if c = '"' then ['\\', '"']
  else if c = '\\' then ['\\', '\\']
  else if c = '\n' then ['\\', 'n']
  else if c = '\r' then ['\\', 'r']
  else if c = '\t' then ['\\', 't']
  else if c.toNat = 8 then ['\\', 'b']
  else if c.toNat = 12 then ['\\', 'f']
  else if c.toNat < 0x20 then ['\\', 'u', '0', '0', hexDigit (c.toNat / 16), hexDigit c.toNat]
  else [c]

def quote (text : String) : String := String.ofList ('"' :: text.toList.flatMap escapeChar ++ ['"'])

mutual

def compact : Json → String
  | .null => "null"
  | .bool value => if value then "true" else "false"
  | .num value => numberText value
  | .str value => quote value
  | .arr items => "[" ++ ",".intercalate (compactItems items) ++ "]"
  | .obj entries => "\x7b" ++ ",".intercalate (compactEntries entries) ++ "\x7d"

def compactItems : List Json → List String
  | [] => []
  | item :: items => item.compact :: compactItems items

def compactEntries : List (String × Json) → List String
  | [] => []
  | (key, value) :: entries => (quote key ++ ":" ++ value.compact) :: compactEntries entries

end

end RelationalGraphQL.Json
