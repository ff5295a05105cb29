import RelationalGraphQL.Json.Reader
import RelationalGraphQL.Yaml.Cursor

/-!
The scalars of YAML: plain, in single or double quotes, or as a block of lines. Inside a plain or quoted scalar a line
break folds into a blank, and further breaks stay breaks.
-/

namespace RelationalGraphQL.Yaml

inductive Style where
  | plain
  | quoted
  | literal
  | folded
  deriving DecidableEq, Repr

/-- A run of blanks and line breaks inside a scalar. -/
structure Gap where
  /-- The blanks before the first break. -/
  blanks : List Char := []
  broken : Bool := false
  /-- The first break, unless it was escaped. -/
  first : List Char := []
  /-- The breaks after the first. -/
  more : List Char := []

def Gap.text (gap : Gap) : List Char :=
  if !gap.broken then gap.blanks
  else if gap.first = ['\n'] then if gap.more.isEmpty then [' '] else gap.more
  else gap.first ++ gap.more

/-- Reads blanks and breaks. After a break a tab must not stand where the indentation is due. -/
def readGap (indent : Nat) : Nat → Gap → Cursor → Option (Gap × Cursor)
  | 0, _, _ => none
  | fuel + 1, gap, cursor =>
    match cursor.rest with
    | [] => some (gap, cursor)
    | c :: _ =>
      if isGap c then
        if gap.broken then
          if c = '\t' && cursor.column < indent then none else readGap indent fuel gap cursor.advance
        else readGap indent fuel { gap with blanks := gap.blanks ++ [c] } cursor.advance
      else if isBreak c then
        let next := if gap.broken then { gap with more := gap.more ++ cursor.breakText }
          else { gap with broken := true, first := cursor.breakText }
        readGap indent fuel next cursor.nextLine
      else some (gap, cursor)

/-! ### Plain scalars -/

/-- Whether a plain scalar can start here. -/
def startsPlain (flow : Bool) : List Char → Bool
  | [] => false
  | c :: rest =>
    if c = '-' then !gapNext rest
    else if c = '?' || c = ':' then !flow && !gapNext rest
    else !(c ∈ ['#', '&', '*', '!', '|', '>', '\'', '"', '%', '@', '`'] || isFlowMark c || isGap c || isBreak c)

/-- Whether a colon is followed by what cannot follow it inside brackets. -/
def strayColon : List Char → Bool
  | ':' :: c :: _ => isFlowMark c || c = '?'
  | _ => false

/-- Whether a plain scalar ends before these characters. -/
def endsPlain (flow : Bool) : List Char → Bool
  | [] => true
  | c :: rest => (c = ':' && gapNext rest) || (flow && isFlowMark c)

/-- The number of characters of a plain scalar up to the next gap or its end; `none` at a stray colon. -/
def plainWord (flow : Bool) : List Char → Option Nat
  | [] => some 0
  | c :: rest =>
    if isGap c || isBreak c then some 0
    else if flow && strayColon (c :: rest) then none
    else if endsPlain flow (c :: rest) then some 0
    else (plainWord flow rest).map (· + 1)

/-- Reads a plain scalar, which goes on over lines that are indented far enough. Answers its text, whether line breaks
follow it, and the place after them. -/
def readPlain (flow : Bool) (indent : Nat) : Nat → Gap → Cursor → Option (List Char × Bool × Cursor)
  | 0, _, _ => none
  | fuel + 1, gap, cursor =>
    if cursor.atMarker || cursor.sees '#' then some ([], gap.broken, cursor)
    else do
      let count ← plainWord flow cursor.rest
      if count = 0 then some ([], gap.broken, cursor)
      else
        let word := gap.text ++ cursor.rest.take count
        let (next, after) ← readGap indent (cursor.rest.length + 1) {} (cursor.advanceBy count)
        if gapNext (cursor.rest.drop count) && (flow || indent ≤ after.column) then
          let (text, broken, last) ← readPlain flow indent fuel next after
          some (word ++ text, broken, last)
        else some (word, next.broken, after)

/-! ### Quoted scalars -/

/-- The character of an escape that is one letter. -/
def letterEscape? : Char → Option Char
  | '0' => some (Char.ofNat 0)
  | 'a' => some (Char.ofNat 7)
  | 'b' => some (Char.ofNat 8)
  | 't' | '\t' => some '\t'
  | 'n' => some '\n'
  | 'v' => some (Char.ofNat 11)
  | 'f' => some (Char.ofNat 12)
  | 'r' => some '\r'
  | 'e' => some (Char.ofNat 27)
  | ' ' => some ' '
  | '"' => some '"'
  | '/' => some '/'
  | '\\' => some '\\'
  | 'N' => some (Char.ofNat 0x85)
  | '_' => some (Char.ofNat 0xA0)
  | 'L' => some (Char.ofNat 0x2028)
  | 'P' => some (Char.ofNat 0x2029)
  | _ => none

/-- The number of digits of an escape that gives a code. -/
def codeLength? : Char → Option Nat
  | 'x' => some 2
  | 'u' => some 4
  | 'U' => some 8
  | _ => none

def codeChar? (digits : List Char) : Option Char := do
  let values ← digits.mapM Json.hexValue?
  let code := values.foldl (fun code value => 16 * code + value) 0
  if (0xD800 ≤ code && code < 0xE000) || 0x10FFFF < code then none else some (Char.ofNat code)

/-- The character that an escape stands for, and the length of the escape; `text` follows the backslash. -/
def readEscape (text : List Char) : Option (Char × Nat) :=
  match text with
  | [] => none
  | c :: rest =>
    match codeLength? c with
    | some count =>
      if rest.length < count then none else (codeChar? (rest.take count)).map fun char => (char, count + 2)
    | none => (letterEscape? c).map fun char => (char, 2)

/-- A piece of a quoted scalar: up to a gap or the closing quote. -/
structure Piece where
  text : List Char := []
  /-- Whether the piece ends with a line break that is escaped. -/
  escapedBreak : Bool := false
  after : Cursor

/-- Reads the next piece of a scalar in single or double quotes. -/
def readPiece (quote : Char) : Nat → Cursor → Option Piece
  | 0, _ => none
  | fuel + 1, cursor =>
    match cursor.rest with
    | [] => some { after := cursor }
    | c :: rest =>
      let go (char : Char) (count : Nat) : Option Piece :=
        (readPiece quote fuel (cursor.advanceBy count)).map fun piece => { piece with text := char :: piece.text }
      if isGap c || isBreak c then some { after := cursor }
      else if quote = '\'' then
        if c = quote then if rest.head? = some quote then go quote 2 else some { after := cursor }
        else go c 1
      else if c = quote then some { after := cursor }
      else if c = '\\' then
        if rest.head?.any isBreak then some { escapedBreak := true, after := cursor.advance.nextLine }
        else (readEscape rest).bind fun (char, count) => go char count
      else go c 1

/-- Reads a quoted scalar after the opening quote. -/
def readQuotedFrom (quote : Char) : Nat → Cursor → Option (List Char × Cursor)
  | 0, _ => none
  | fuel + 1, cursor =>
    if cursor.atMarker || cursor.atEnd then none
    else do
      let length := cursor.rest.length + 1
      let piece ← readPiece quote length cursor
      if piece.after.sees quote then some (piece.text, piece.after.advance)
      else
        let (gap, after) ← readGap 0 length { broken := piece.escapedBreak } piece.after
        let (text, last) ← readQuotedFrom quote fuel after
        some (piece.text ++ gap.text ++ text, last)

/-- Reads a quoted scalar of either kind, at its opening quote. -/
def readQuoted (quote : Char) (cursor : Cursor) : Option (String × Cursor) :=
  (readQuotedFrom quote (cursor.rest.length + 1) cursor.advance).map fun (text, after) => (String.ofList text, after)

/-! ### Blocks of lines -/

/-- What happens to the line breaks at the end of a block. -/
inductive Chomping where
  | strip
  | clip
  | keep
  deriving DecidableEq, Repr

def readChomping (cursor : Cursor) : Option (Chomping × Cursor) :=
  if cursor.sees '+' then some (.keep, cursor.advance)
  else if cursor.sees '-' then some (.strip, cursor.advance)
  else none

/-- A digit that says how far a block is indented. -/
def readIndentation (cursor : Cursor) : Option (Option Nat × Cursor) :=
  match cursor.rest with
  | c :: _ =>
    if c = '0' then none
    else if c.isDigit then some (some (c.toNat - '0'.toNat), cursor.advance)
    else some (none, cursor)
  | [] => some (none, cursor)

/-- The marks after the sign of a block, in either order. -/
def readBlockMarks (cursor : Cursor) : Option (Chomping × Option Nat × Cursor) :=
  match readChomping cursor with
  | some (chomping, after) => do
    let (indentation, after) ← readIndentation after
    some (chomping, indentation, after)
  | none => do
    let (indentation, after) ← readIndentation cursor
    match indentation, readChomping after with
    | some _, some (chomping, after) => some (chomping, indentation, after)
    | _, _ => some (.clip, indentation, after)

/-- The empty lines before a line of a block. -/
structure EmptyLines where
  breaks : List Char := []
  /-- The widest indentation among them and of the line that follows. -/
  widest : Nat := 0
  after : Cursor

/-- Passes indentation and empty lines; a tab must not stand in the indentation. -/
def readEmptyLines (indent : Option Nat) : Nat → EmptyLines → Option EmptyLines
  | 0, _ => none
  | fuel + 1, lines =>
    let due := (lines.after.ahead (· = ' ')).length
    let count := match indent with
      | none => due
      | some indent => min due (indent - lines.after.column)
    let cursor := lines.after.advanceBy count
    let widest := max lines.widest cursor.column
    if (indent.all fun indent => cursor.column < indent) && cursor.sees '\t' then none
    else if cursor.seesAny isBreak then
      readEmptyLines indent fuel { breaks := lines.breaks ++ cursor.breakText, widest, after := cursor.nextLine }
    else some { lines with widest, after := cursor }

/-- The lines of a block read so far. -/
structure Block where
  text : List Char := []
  /-- The break that ends the last line. -/
  ending : List Char := []
  /-- The empty lines after it. -/
  breaks : List Char := []
  /-- Whether the last line started with a blank, so that breaks beside it stay as they are. -/
  indented : Bool := false
  after : Cursor

/-- Reads the lines of a block that stand at its indentation. -/
def readLines (folded : Bool) (indent : Nat) : Nat → Block → Option Block
  | 0, _ => none
  | fuel + 1, block =>
    let cursor := block.after
    if cursor.column ≠ indent || cursor.atEnd then some block
    else do
      let indented := cursor.seesAny isGap
      let joint :=
        if folded && block.ending = ['\n'] && !block.indented && !indented then
          if block.breaks.isEmpty then [' '] else []
        else block.ending
      let line := cursor.ahead fun c => !isBreak c
      let ending := cursor.pass fun c => !isBreak c
      let lines ← readEmptyLines (some indent) (cursor.rest.length + 1) { after := ending.nextLine }
      readLines folded indent fuel {
        text := block.text ++ joint ++ block.breaks ++ line
        ending := ending.breakText
        breaks := lines.breaks
        indented
        after := lines.after }

/-- Reads a block of lines at its sign. `floor` is the least column of content where the block stands. -/
def readBlock (folded : Bool) (floor : Nat) (cursor : Cursor) : Option (String × Cursor) := do
  let length := cursor.rest.length + 1
  let (chomping, indentation, after) ← readBlockMarks cursor.advance
  let start ← after.finishLine
  let given := indentation.map fun indentation => floor - 1 + indentation
  let lines ← readEmptyLines given length { after := start }
  let indent := given.getD (max lines.widest (max floor 1))
  let block ← readLines folded indent length { breaks := lines.breaks, after := lines.after }
  let tail := match chomping with
    | .strip => []
    | .clip => block.ending
    | .keep => block.ending ++ block.breaks
  some (String.ofList (block.text ++ tail), block.after)

end RelationalGraphQL.Yaml
