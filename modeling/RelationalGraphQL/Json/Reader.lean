import RelationalGraphQL.Json.Basic

/-!
Reading JSON text. An integer literal of at most 64 bits is an integer; one beyond, `-0`, and every literal with a
fraction or an exponent is a double. Of repeated keys the last value counts, in the first key's place.
-/

namespace RelationalGraphQL.Json

def skipBlanks (text : List Char) : List Char := text.dropWhile fun c => c = ' ' || c = '\n' || c = '\r' || c = '\t'

def digitsValue (digits : List Char) : Nat := digits.foldl (fun value c => 10 * value + (c.toNat - '0'.toNat)) 0

def hexValue? (c : Char) : Option Nat :=
  if c.isDigit then some (c.toNat - '0'.toNat)
  else if 'a' ≤ c && c ≤ 'f' then some (c.toNat - 'a'.toNat + 10)
  else if 'A' ≤ c && c ≤ 'F' then some (c.toNat - 'A'.toNat + 10)
  else none

/-- Four hexadecimal digits as a number. -/
def hexQuad? (a b c d : Char) : Option Nat := do
  return (((← hexValue? a) * 16 + (← hexValue? b)) * 16 + (← hexValue? c)) * 16 + (← hexValue? d)

def simpleEscape? (c : Char) : Option Char :=
  match c with
  | '"' => some '"'
  | '\\' => some '\\'
  | '/' => some '/'
  | 'b' => some (Char.ofNat 8)
  | 'f' => some (Char.ofNat 12)
  | 'n' => some '\n'
  | 'r' => some '\r'
  | 't' => some '\t'
  | _ => none

/-- The characters up to the closing quote, and the text after it. A pair of surrogate escapes is one character. -/
def readQuoted (text : List Char) : Option (List Char × List Char) :=
  match text with
  | [] => none
  | '"' :: rest => some ([], rest)
  | '\\' :: 'u' :: a :: b :: c :: d :: '\\' :: 'u' :: e :: f :: g :: h :: rest => do
    let high ← hexQuad? a b c d
    if 0xD800 ≤ high && high < 0xDC00 then
      let low ← hexQuad? e f g h
      if 0xDC00 ≤ low && low < 0xE000 then
        let (value, after) ← readQuoted rest
        some (Char.ofNat (0x10000 + (high - 0xD800) * 0x400 + (low - 0xDC00)) :: value, after)
      else none
    else if 0xDC00 ≤ high && high < 0xE000 then none
    else
      let (value, after) ← readQuoted ('\\' :: 'u' :: e :: f :: g :: h :: rest)
      some (Char.ofNat high :: value, after)
  | '\\' :: 'u' :: a :: b :: c :: d :: rest => do
    let code ← hexQuad? a b c d
    if 0xD800 ≤ code && code < 0xE000 then none
    else
      let (value, after) ← readQuoted rest
      some (Char.ofNat code :: value, after)
  | '\\' :: c :: rest => do
    let escaped ← simpleEscape? c
    let (value, after) ← readQuoted rest
    some (escaped :: value, after)
  | c :: rest =>
    if c = '\\' || c.toNat < 0x20 then none
    else do
      let (value, after) ← readQuoted rest
      some (c :: value, after)
termination_by text.length

/-- An optional sign and one or more digits after the mark of an exponent. -/
def readExponent (text : List Char) : Option (Int × List Char) :=
  let (negative, body) : Bool × List Char := match text with
    | '-' :: rest => (true, rest)
    | '+' :: rest => (false, rest)
    | _ => (false, text)
  let digits := body.takeWhile Char.isDigit
  if digits.isEmpty then none
  else
    let value : Int := digitsValue digits
    some (if negative then -value else value, body.dropWhile Char.isDigit)

/-- Appends digits to a number as long as the result has an unsigned 64-bit form; the result, and how many were
appended. -/
def appendFitting (value : Nat) : List Char → Nat × Nat
  | [] => (value, 0)
  | c :: rest =>
    let longer := 10 * value + (c.toNat - '0'.toNat)
    if longer < UInt64.bound then
      let (final, count) := appendFitting longer rest
      (final, count + 1)
    else (value, 0)

/-- The double of a literal, close to its value. The leading digits that a 64-bit integer holds are rounded to a double,
which is then scaled by a power of ten, so the last digit of the double can be off. -/
def readDouble (negative : Bool) (whole fraction : List Char) (exponent : Int) : Option Binary64 := do
  let (leading, wholeCount) := appendFitting 0 whole
  let (digits, fractionCount) := appendFitting leading fraction
  let magnitude ← Binary64.ofInt digits
  let scaled ← magnitude.timesTenPow (exponent + (whole.length - wholeCount : Nat) - fractionCount)
  return { scaled with negative }

def readNumber (text : List Char) : Option (Json × List Char) := do
  let (negative, body) : Bool × List Char := match text with
    | '-' :: rest => (true, rest)
    | _ => (false, text)
  let whole := body.takeWhile Char.isDigit
  let rest := body.dropWhile Char.isDigit
  if whole.isEmpty || (whole.length > 1 && whole.head? = some '0') then none
  else
    let (fraction, rest, marked) ← match rest with
      | '.' :: rest =>
        let fraction := rest.takeWhile Char.isDigit
        if fraction.isEmpty then none else some (fraction, rest.dropWhile Char.isDigit, true)
      | _ => some ([], rest, false)
    let (exponent, rest, marked) ← match rest with
      | 'e' :: rest | 'E' :: rest => (readExponent rest).map fun (exponent, rest) => (exponent, rest, true)
      | _ => some (0, rest, marked)
    let magnitude := digitsValue (whole ++ fraction)
    let value : Int := if negative then -(magnitude : Int) else magnitude
    let fits := -Int64.bound ≤ value && value < UInt64.bound && !(negative && magnitude = 0)
    if !marked && fits then some (ofInt value, rest)
    else
      let double ← readDouble negative whole fraction exponent
      some (.num (.float double), rest)

mutual

/-- One value and the text after it. Each nested value is shorter than the text that holds it, so the length of the
text bounds the nesting. -/
def readValue : Nat → List Char → Option (Json × List Char)
  | 0, _ => none
  | fuel + 1, text =>
    match skipBlanks text with
    | '"' :: rest => (readQuoted rest).map fun (value, rest) => (.str (String.ofList value), rest)
    | '[' :: rest =>
      match skipBlanks rest with
      | ']' :: rest => some (.arr [], rest)
      | _ => (readItems fuel rest).map fun (items, rest) => (.arr items, rest)
    | '\x7b' :: rest =>
      match skipBlanks rest with
      | '\x7d' :: rest => some (.obj [], rest)
      | _ => (readEntries fuel rest).map fun (entries, rest) => (.obj (Table.ofList entries), rest)
    | 'n' :: 'u' :: 'l' :: 'l' :: rest => some (.null, rest)
    | 't' :: 'r' :: 'u' :: 'e' :: rest => some (.bool true, rest)
    | 'f' :: 'a' :: 'l' :: 's' :: 'e' :: rest => some (.bool false, rest)
    | text => readNumber text

def readItems : Nat → List Char → Option (List Json × List Char)
  | 0, _ => none
  | fuel + 1, text => do
    let (item, rest) ← readValue fuel text
    match skipBlanks rest with
    | ',' :: rest =>
      let (items, rest) ← readItems fuel rest
      some (item :: items, rest)
    | ']' :: rest => some ([item], rest)
    | _ => none

def readEntries : Nat → List Char → Option (List (String × Json) × List Char)
  | 0, _ => none
  | fuel + 1, text =>
    match skipBlanks text with
    | '"' :: rest => do
      let (key, rest) ← readQuoted rest
      match skipBlanks rest with
      | ':' :: rest =>
        let (value, rest) ← readValue fuel rest
        let entry := (String.ofList key, value)
        match skipBlanks rest with
        | ',' :: rest =>
          let (entries, rest) ← readEntries fuel rest
          some (entry :: entries, rest)
        | '\x7d' :: rest => some ([entry], rest)
        | _ => none
      | _ => none
    | _ => none

end

/-- The value a text holds, with nothing but blanks around it. -/
def parse? (text : String) : Option Json := do
  let chars := text.toList
  let (value, rest) ← readValue (chars.length + 1) chars
  if (skipBlanks rest).isEmpty then some value else none

end RelationalGraphQL.Json
