import RelationalGraphQL.Yaml.Token

/-!
The tokens of a text. Indentation opens and closes blocks. What turns out to be a key only when a colon follows is kept
as a candidate until then: on one line, and within 1024 bytes. The tokens that open a mapping before such a key are put
in afterwards.
-/

namespace RelationalGraphQL.Yaml

/-- Something that may turn out to be a key. -/
structure Candidate where
  /-- The number of tokens before it. -/
  place : Nat
  /-- Whether nothing but a key can stand there. -/
  required : Bool
  start : Cursor

def Candidate.isStale (candidate : Candidate) (cursor : Cursor) : Bool :=
  candidate.start.line < cursor.line || candidate.start.offset + 1024 < cursor.offset

/-- The tokens read so far and what is needed to read on. -/
structure Scan where
  cursor : Cursor
  /-- The tokens, the last one first. -/
  tokens : List Token := []
  /-- Tokens to be put in before the token at a place. -/
  openings : List (Nat × List Token) := []
  /-- The least column of content in the innermost block. -/
  floor : Nat := 0
  /-- The same of the blocks around it. -/
  floors : List Nat := []
  /-- Whether a key can start here. -/
  keyAllowed : Bool := true
  candidate : Option Candidate := none
  /-- The candidates outside the brackets that are open, from the innermost on. -/
  enclosing : List (Option Candidate) := []

namespace Scan

def inFlow (scan : Scan) : Bool := !scan.enclosing.isEmpty

def emit (token : Token) (scan : Scan) : Scan := { scan with tokens := token :: scan.tokens }

/-- Emits a token that is so many characters long. -/
def emitAt (token : Token) (length : Nat) (scan : Scan) : Scan :=
  { scan.emit token with cursor := scan.cursor.advanceBy length }

/-- Whether content at a column is further to the right than the innermost block. -/
def opensBlock (column : Nat) (scan : Scan) : Bool := !scan.inFlow && scan.floor ≤ column

/-- Makes a column that of the innermost block. -/
def enterBlock (column : Nat) (scan : Scan) : Scan :=
  { scan with floor := column + 1, floors := scan.floor :: scan.floors }

/-- Opens a block at the current column, if it is further to the right. -/
def openBlock (token : Token) (scan : Scan) : Scan :=
  let column := scan.cursor.column
  if scan.opensBlock column then (scan.enterBlock column).emit token else scan

/-- Closes the blocks whose content is further to the right than `floor`. -/
def closeBlocksFrom (floor : Nat) : List Nat → Scan → Scan
  | [], scan => scan
  | outer :: floors, scan =>
    if floor < scan.floor then closeBlocksFrom floor floors { scan.emit .blockEnd with floor := outer, floors } else scan

def closeBlocks (floor : Nat) (scan : Scan) : Scan :=
  if scan.inFlow then scan else scan.closeBlocksFrom floor scan.floors

/-- Gives up the innermost candidate; fails if a key had to stand there. -/
def dropCandidate (scan : Scan) : Option Scan :=
  if scan.candidate.any Candidate.required then none else some { scan with candidate := none }

/-- A candidate that can still become a key here; fails if it cannot and had to. -/
def refresh (cursor : Cursor) : Option Candidate → Option (Option Candidate)
  | none => some none
  | some candidate =>
    if !candidate.isStale cursor then some (some candidate) else if candidate.required then none else some none

/-- Gives up the candidates that can no longer become keys. -/
def dropStale (scan : Scan) : Option Scan := do
  let candidate ← refresh scan.cursor scan.candidate
  let enclosing ← scan.enclosing.mapM (refresh scan.cursor)
  return { scan with candidate, enclosing }

/-- Makes what starts here a candidate, if a key can start here. -/
def offerKey (scan : Scan) : Option Scan :=
  if scan.keyAllowed then do
    let required := !scan.inFlow && scan.floor = scan.cursor.column + 1
    let scan ← scan.dropCandidate
    return { scan with candidate := some { place := scan.tokens.length, required, start := scan.cursor } }
  else some scan

/-- Passes blanks, line breaks and comments. A tab does not count as a blank where a key can start, since it is no
indentation. A byte order mark may start a line. -/
def passBlanks : Nat → Scan → Scan
  | 0, scan => scan
  | fuel + 1, scan =>
    let start := if scan.cursor.column = 0 && scan.cursor.sees '\ufeff' then scan.cursor.advance else scan.cursor
    let tabs := scan.inFlow || !scan.keyAllowed
    let cursor := (start.pass fun c => c = ' ' || (tabs && c = '\t')).passComment
    if cursor.seesAny isBreak then
      passBlanks fuel { scan with cursor := cursor.nextLine, keyAllowed := scan.keyAllowed || !scan.inFlow }
    else { scan with cursor }

/-! ### Tokens by their first characters -/

def marker (token : Token) (scan : Scan) : Option Scan := do
  let scan ← (scan.closeBlocks 0).dropCandidate
  return { scan.emitAt token 3 with keyAllowed := false }

def directive (scan : Scan) : Option Scan := do
  let scan ← (scan.closeBlocks 0).dropCandidate
  let (token, cursor) ← readDirective scan.cursor
  return { scan.emit token with cursor, keyAllowed := false }

def flowStart (token : Token) (scan : Scan) : Option Scan := do
  let scan ← scan.offerKey
  return { scan.emitAt token 1 with
    keyAllowed := true, candidate := none, enclosing := scan.candidate :: scan.enclosing }

def flowEnd (token : Token) (scan : Scan) : Option Scan := do
  let scan ← scan.dropCandidate
  let scan := match scan.enclosing with
    | candidate :: enclosing => { scan with candidate, enclosing }
    | [] => scan
  return { scan.emitAt token 1 with keyAllowed := false }

def flowEntry (scan : Scan) : Option Scan := do
  let scan ← scan.dropCandidate
  return { scan.emitAt .flowEntry 1 with keyAllowed := true }

def blockEntry (scan : Scan) : Option Scan :=
  if !scan.inFlow && !scan.keyAllowed then none
  else do
    let scan ← (scan.openBlock .blockSequence).dropCandidate
    return { scan.emitAt .blockEntry 1 with keyAllowed := true }

def explicitKey (scan : Scan) : Option Scan :=
  if !scan.inFlow && !scan.keyAllowed then none
  else do
    let scan ← (scan.openBlock .blockMapping).dropCandidate
    return { scan.emitAt .key 1 with keyAllowed := !scan.inFlow }

/-- A colon before a value. It makes the candidate a key. -/
def value (scan : Scan) : Option Scan :=
  match scan.candidate with
  | some candidate =>
    let column := candidate.start.column
    let opens := scan.opensBlock column
    let scan := if opens then scan.enterBlock column else scan
    let opening := if opens then [.blockMapping, .key] else [.key]
    some { scan.emitAt .value 1 with
      openings := (candidate.place, opening) :: scan.openings, candidate := none, keyAllowed := false }
  | none =>
    if !scan.inFlow && !scan.keyAllowed then none
    else
      let scan := scan.openBlock .blockMapping
      some { scan.emitAt .value 1 with keyAllowed := !scan.inFlow }

def anchor (token : String → Token) (scan : Scan) : Option Scan := do
  let scan ← scan.offerKey
  let (name, cursor) ← readAnchorName scan.cursor.advance
  return { scan.emit (token name) with cursor, keyAllowed := false }

def tag (scan : Scan) : Option Scan := do
  let scan ← scan.offerKey
  let (token, cursor) ← readTag scan.inFlow scan.cursor
  return { scan.emit token with cursor, keyAllowed := false }

def block (style : Style) (scan : Scan) : Option Scan := do
  let scan ← scan.dropCandidate
  let (text, cursor) ← readBlock (style = .folded) scan.floor scan.cursor
  return { scan.emit (.scalar style text) with cursor, keyAllowed := true }

def quoted (quote : Char) (scan : Scan) : Option Scan := do
  let scan ← scan.offerKey
  let (text, cursor) ← readQuoted quote scan.cursor
  return { scan.emit (.scalar .quoted text) with cursor, keyAllowed := false }

/-- A plain scalar. A key can start after the line breaks that follow it. -/
def plain (scan : Scan) : Option Scan := do
  let scan ← scan.offerKey
  let (text, broken, cursor) ← readPlain scan.inFlow scan.floor (scan.cursor.rest.length + 1) {} scan.cursor
  return { scan.emit (.scalar .plain (String.ofList text)) with cursor, keyAllowed := broken }

/-- Reads the token at the cursor. -/
def next (scan : Scan) : Option Scan :=
  let flow := scan.inFlow
  let cursor := scan.cursor
  if cursor.column = 0 && cursor.sees '%' then scan.directive
  else if cursor.atMarker then scan.marker (if cursor.sees '-' then .documentStart else .documentEnd)
  else
    match cursor.rest with
    | [] => none
    | c :: rest =>
      if c = '[' then scan.flowStart .flowSequence
      else if c = '\x7b' then scan.flowStart .flowMapping
      else if c = ']' then scan.flowEnd .flowSequenceEnd
      else if c = '\x7d' then scan.flowEnd .flowMappingEnd
      else if c = ',' then scan.flowEntry
      else if c = '-' && gapNext rest then scan.blockEntry
      else if c = '?' && (flow || gapNext rest) then scan.explicitKey
      else if c = ':' && (flow || gapNext rest) then scan.value
      else if c = '*' then scan.anchor .reference
      else if c = '&' then scan.anchor .anchor
      else if c = '!' then scan.tag
      else if c = '|' && !flow then scan.block .literal
      else if c = '>' && !flow then scan.block .folded
      else if c = '\'' || c = '"' then scan.quoted c
      else if startsPlain flow cursor.rest then scan.plain
      else none

/-- Reads the tokens up to the end, where all blocks are closed. -/
def all : Nat → Scan → Option Scan
  | 0, _ => none
  | fuel + 1, scan => do
    let scan ← (scan.passBlanks (scan.cursor.rest.length + 1)).dropStale
    let scan := scan.closeBlocks (scan.cursor.column + 1)
    if scan.cursor.atEnd then (scan.closeBlocks 0).dropCandidate else all fuel (← scan.next)

/-- The tokens in order, with the openings put in. -/
def result (scan : Scan) : List Token :=
  (scan.tokens.reverse.zipIdx).flatMap fun (token, place) => (scan.openings.lookup place).getD [] ++ [token]

end Scan

/-- Whether a character may stand in a document. -/
def isAllowed (c : Char) : Bool :=
  let code := c.toNat
  code = 0x09 || code = 0x0A || code = 0x0D || (0x20 ≤ code && code ≤ 0x7E) || code = 0x85
    || (0xA0 ≤ code && code ≤ 0xFFFD) || 0x10000 ≤ code

/-- The tokens of a text. -/
def tokens? (text : String) : Option (List Token) :=
  let chars := text.toList
  if chars.all isAllowed then (Scan.all (chars.length + 1) { cursor := { rest := chars } }).map Scan.result else none

end RelationalGraphQL.Yaml
