/-!
Places in the text of a YAML document, and the characters that matter there. A line can end in five ways; two of them
stay as they are inside scalars, the others count as line feeds.
-/

namespace RelationalGraphQL.Yaml

def isGap (c : Char) : Bool := c = ' ' || c = '\t'

/-- Separators of lines and paragraphs, which are kept as they are. -/
def isSeparator (c : Char) : Bool := c = '\u2028' || c = '\u2029'

def isBreak (c : Char) : Bool := c = '\n' || c = '\r' || c = '\u0085' || isSeparator c

def isFlowMark (c : Char) : Bool := c ∈ [',', '[', ']', '\x7b', '\x7d']

/-- Whether a character can stand in the name of an anchor, a handle or a directive. -/
def isNameChar (c : Char) : Bool := c.isAlphanum || c = '_' || c = '-'

/-- Whether a blank, a line break or the end comes next. -/
def gapNext : List Char → Bool
  | [] => true
  | c :: _ => isGap c || isBreak c

/-- A place in a text: what follows, the number of bytes before it, and its line and column, counted from 0. -/
structure Cursor where
  rest : List Char
  offset : Nat := 0
  line : Nat := 0
  column : Nat := 0

namespace Cursor

def atEnd (cursor : Cursor) : Bool := cursor.rest.isEmpty

def sees (cursor : Cursor) (c : Char) : Bool := cursor.rest.head? = some c

def seesAny (cursor : Cursor) (p : Char → Bool) : Bool := cursor.rest.head?.any p

def advance (cursor : Cursor) : Cursor :=
  match cursor.rest with
  | [] => cursor
  | c :: rest => { cursor with rest, offset := cursor.offset + c.utf8Size, column := cursor.column + 1 }

def advanceBy : Nat → Cursor → Cursor
  | 0, cursor => cursor
  | count + 1, cursor => advanceBy count cursor.advance

/-- Passes a line break, if one comes next. -/
def nextLine (cursor : Cursor) : Cursor :=
  match cursor.rest with
  | '\r' :: '\n' :: rest => { rest, offset := cursor.offset + 2, line := cursor.line + 1 }
  | c :: rest =>
    if isBreak c then { rest, offset := cursor.offset + c.utf8Size, line := cursor.line + 1 } else cursor
  | [] => cursor

/-- What the line break that comes next reads as. -/
def breakText (cursor : Cursor) : List Char :=
  match cursor.rest with
  | c :: _ => if isSeparator c then [c] else if isBreak c then ['\n'] else []
  | [] => []

/-- The characters up to the first without a property. -/
def ahead (cursor : Cursor) (p : Char → Bool) : List Char := cursor.rest.takeWhile p

/-- Passes the characters with a property. -/
def pass (cursor : Cursor) (p : Char → Bool) : Cursor := advanceBy (cursor.ahead p).length cursor

/-- Passes a comment, if one comes next, up to the end of the line. -/
def passComment (cursor : Cursor) : Cursor := if cursor.sees '#' then cursor.pass fun c => !isBreak c else cursor

/-- Passes what may follow the content of a line, and the line's end. Nothing else may stand there. -/
def finishLine (cursor : Cursor) : Option Cursor :=
  let ending := (cursor.pass isGap).passComment
  if ending.atEnd || ending.seesAny isBreak then some ending.nextLine else none

/-- Whether a mark that separates documents comes next: three hyphens or three points at the start of a line. -/
def atMarker (cursor : Cursor) : Bool :=
  cursor.column = 0 &&
    match cursor.rest with
    | '-' :: '-' :: '-' :: rest | '.' :: '.' :: '.' :: rest => gapNext rest
    | _ => false

end Cursor

end RelationalGraphQL.Yaml
