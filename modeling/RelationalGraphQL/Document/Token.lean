import RelationalGraphQL.Document.Quoted

/-!
The tokens of a document, each with the place where it starts.
-/

namespace RelationalGraphQL.Document

inductive Lexeme where
  | punctuator (symbol : Char)
  | spread
  | name (text : String)
  | int (value : Int)
  | float (value : Option Binary64)
  | text (value : String)
  deriving DecidableEq

structure Position where
  line : Nat := 1
  column : Nat := 1
  deriving DecidableEq, Repr, Inhabited

structure Token where
  lexeme : Lexeme
  position : Position
  deriving DecidableEq

namespace Position

def advance (count : Nat) (position : Position) : Position := { position with column := position.column + count }

def nextLine (position : Position) : Position := ⟨position.line + 1, 1⟩

/-- The place after a text that may span lines. -/
def after (text : List Char) (position : Position) : Position :=
  text.foldl (fun position c => if c = '\n' then position.nextLine else position.advance 1) position

end Position

def isPunctuator (c : Char) : Bool := c ∈ ['(', ')', '[', ']', '\x7b', '\x7d', '!', '$', ':', '=', '@', '|', '&']

def isNameStart (c : Char) : Bool := c = '_' || c.isAlpha

def isNameChar (c : Char) : Bool := c = '_' || c.isAlphanum

/-- Characters that end a number: blanks, commas, comments and punctuators. -/
def endsNumber (c : Char) : Bool := c ∈ [' ', '\n', '\r', '\t', ',', '#'] || isPunctuator c

/-- Digits without a needless zero in front, after an optional minus sign. -/
def isIntText : List Char → Bool
  | ['0'] | ['-', '0'] => true
  | '0' :: _ | '-' :: '0' :: _ => false
  | ['-'] | [] => false
  | c :: rest => (c = '-' || c.isDigit) && rest.all Char.isDigit

def isFractionText (text : List Char) : Bool := !text.isEmpty && text.all Char.isDigit

/-- A sign or a digit from 1 to 8, then digits. -/
def isExponentText : List Char → Bool
  | [] => false
  | c :: rest => (c = '-' || c = '+' || ('0' < c && c < '9')) && rest.all Char.isDigit

/-- The text before the last character that satisfies a test, and the text after it. -/
def splitLast (test : Char → Bool) (text : List Char) : Option (List Char × List Char) :=
  let reversed := text.reverse
  match reversed.dropWhile fun c => !test c with
  | [] => none
  | _ :: before => some (before.reverse, (reversed.takeWhile fun c => !test c).reverse)

def signedDigits : List Char → Int
  | '-' :: digits => -(Json.digitsValue digits : Int)
  | '+' :: digits => Json.digitsValue digits
  | digits => Json.digitsValue digits

/-- The double of a number in parts: whole digits with a sign, fraction digits, and an exponent. -/
def floatOfParts (whole fraction exponent : List Char) : Option Binary64 :=
  let negative := whole.head? = some '-'
  let digits := Json.digitsValue (whole.filter Char.isDigit ++ fraction)
  Binary64.ofDecimal negative digits (signedDigits exponent - fraction.length)

/-- The whole digits and the fraction of a mantissa. -/
def mantissaParts? (text : List Char) : Option (List Char × List Char) :=
  match splitLast (· = '.') text with
  | none => if isIntText text then some (text, []) else none
  | some (whole, fraction) => if isIntText whole && isFractionText fraction then some (whole, fraction) else none

/-- A number: an integer of at most 64 bits, or a float if it has a point or the mark of an exponent. -/
def numberLexeme? (text : List Char) : Option Lexeme :=
  match splitLast (fun c => c = 'e' || c = 'E') text with
  | some (mantissa, exponent) =>
    if isExponentText exponent && exponent.any Char.isDigit then
      (mantissaParts? mantissa).map fun (whole, fraction) => .float (floatOfParts whole fraction exponent)
    else none
  | none =>
    if text.contains '.' then
      (mantissaParts? text).map fun (whole, fraction) => .float (floatOfParts whole fraction [])
    else if isIntText text && decide (Int64.Within (signedDigits text)) then some (.int (signedDigits text))
    else none

/-- One step through a text: a token or something between tokens, and what follows it. -/
def scanStep (position : Position) : List Char → Option (Option Token × Position × List Char)
  | [] => none
  | c :: rest =>
    let token (lexeme : Lexeme) : Option Token := some ⟨lexeme, position⟩
    if c = ' ' || c = ',' then some (none, position.advance 1, rest)
    else if c = '\t' then some (none, position.advance 8, rest)
    else if c = '\n' then some (none, position.nextLine, rest)
    else if c = '\r' || c.toNat = 0xFEFF then some (none, position, rest)
    else if c = '#' then
      match rest.dropWhile fun c => c ≠ '\r' && c ≠ '\n' with
      | [] => some (none, position, [])
      | _ :: after => some (none, position.nextLine, after)
    else if isPunctuator c then some (token (.punctuator c), position.advance 1, rest)
    else if isNameStart c then
      let name := c :: rest.takeWhile isNameChar
      some (token (.name (String.ofList name)), position.advance name.length, rest.dropWhile isNameChar)
    else if c = '-' || c.isDigit then
      let number := c :: rest.takeWhile fun c => !endsNumber c
      (numberLexeme? number).map fun lexeme =>
        (token lexeme, position.advance number.length, rest.dropWhile fun c => !endsNumber c)
    else
      match c, rest with
      | '.', '.' :: '.' :: rest => some (token .spread, position.advance 3, rest)
      | '"', '"' :: '"' :: rest =>
        (readBlock false rest).map fun (raw, rest) =>
          (token (.text (String.ofList (blockText raw))), ((position.advance 3).after raw).advance 3, rest)
      | '"', rest =>
        (readLineText rest).map fun (value, count, rest) =>
          (token (.text (String.ofList value)), position.advance (count + 1), rest)
      | _, _ => none

/-- The tokens of a text. Every step takes at least one character, so their number bounds the steps. -/
def scan : Nat → Position → List Char → Option (List Token)
  | _, _, [] => some []
  | 0, _, _ :: _ => none
  | fuel + 1, position, text =>
    match scanStep position text with
    | none => none
    | some (token, position, rest) => (scan fuel position rest).map (token.toList ++ ·)

/-- The tokens of a document, or nothing if some part of it is none. -/
def tokens (text : String) : Option (List Token) :=
  let chars := text.toList
  scan chars.length {} chars

end RelationalGraphQL.Document
