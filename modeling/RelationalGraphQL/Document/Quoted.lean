import RelationalGraphQL.Json.Reader
import RelationalGraphQL.Text.Blank

/-!
The two forms of quoted text in a document: on one line with escapes, or in a block whose indentation is taken off.
-/

namespace RelationalGraphQL.Document

/-- The character of an escape after a backslash. The letter `b` stands for U+0010. -/
def escapedChar? : Char → Option Char
  | '"' => some '"'
  | '\\' => some '\\'
  | '/' => some '/'
  | 'b' => some (Char.ofNat 0x10)
  | 'f' => some (Char.ofNat 0x0C)
  | 'n' => some '\n'
  | 'r' => some '\r'
  | 't' => some '\t'
  | _ => none

/-- The character of a four-place code. A plus sign may stand in the first place, and a surrogate is no character. -/
def codeChar? (a b c d : Char) : Option Char := do
  let code ← Json.hexQuad? (if a = '+' then '0' else a) b c d
  if 0xD800 ≤ code && code < 0xE000 then none else some (Char.ofNat code)

/-- The text up to the closing quote, the number of characters read, and what follows. -/
def readLineText : List Char → Option (List Char × Nat × List Char)
  | [] => none
  | '"' :: rest => some ([], 1, rest)
  | '\n' :: _ => none
  | '\\' :: 'u' :: a :: b :: c :: d :: rest => do
    let char ← codeChar? a b c d
    let (value, count, rest) ← readLineText rest
    some (char :: value, count + 6, rest)
  | '\\' :: c :: rest => do
    let char ← escapedChar? c
    let (value, count, rest) ← readLineText rest
    some (char :: value, count + 2, rest)
  | c :: rest =>
    if c = '\\' then none
    else do
      let (value, count, rest) ← readLineText rest
      some (c :: value, count + 1, rest)

/-- The raw text of a block up to its closing quotes, and what follows. Three quotes right after a backslash do not
close it. -/
def readBlock (escaped : Bool) : List Char → Option (List Char × List Char)
  | '"' :: '"' :: '"' :: rest =>
    if escaped then (readBlock false rest).map fun (raw, rest) => ('"' :: '"' :: '"' :: raw, rest)
    else some ([], rest)
  | c :: rest => (readBlock (c = '\\') rest).map fun (raw, rest) => (c :: raw, rest)
  | [] => none

/-- A line without the carriage return before its end. -/
def dropReturn (line : List Char) : List Char :=
  if line.getLast? = some '\r' then line.dropLast else line

/-- The lines of a text. What follows the last line break is a line only if it is not empty. -/
def linesOf (text : List Char) : List (List Char) :=
  let pieces := text.splitOn '\n'
  let last := pieces.getLast?.getD []
  pieces.dropLast.map dropReturn ++ if last.isEmpty then [] else [last]

def byteLength (text : List Char) : Nat := text.foldl (fun count c => count + c.utf8Size) 0

def indentation (line : List Char) : Nat := byteLength (line.takeWhile Text.isBlank)

def isBlankLine (line : List Char) : Bool := line.all Text.isBlank

/-- Drops characters worth a number of bytes. -/
def dropBytes : Nat → List Char → List Char
  | _, [] => []
  | count, c :: rest => if count = 0 then c :: rest else dropBytes (count - c.utf8Size) rest

def trimIndentation (indent : Nat) (line : List Char) : List Char :=
  if indent ≤ byteLength line then dropBytes indent line else line

/-- Three quotes after a backslash stand for themselves. -/
def unescapeBlock : List Char → List Char
  | '\\' :: '"' :: '"' :: '"' :: rest => '"' :: '"' :: '"' :: unescapeBlock rest
  | c :: rest => c :: unescapeBlock rest
  | [] => []

def dropBlankEnds (lines : List (List Char)) : List (List Char) :=
  ((lines.dropWhile isBlankLine).reverse.dropWhile isBlankLine).reverse

/-- The text of a block: the common indentation of all lines but the first is taken off them, and blank lines at
either end are dropped. -/
def blockText (raw : List Char) : List Char :=
  match linesOf raw with
  | [] => []
  | first :: others =>
    let indents := (others.filter fun line => !isBlankLine line).map indentation
    let trimmed := match indents.min? with
      | some indent => others.map (trimIndentation indent)
      | none => others
    let blanks := (first :: others).takeWhile isBlankLine
    let kept := dropBlankEnds (first :: others)
    let lines := ((first :: trimmed).drop blanks.length).take kept.length
    ['\n'].intercalate (lines.map unescapeBlock)

end RelationalGraphQL.Document
