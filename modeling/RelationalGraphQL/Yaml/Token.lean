import RelationalGraphQL.Yaml.Scalar

/-!
The tokens of a YAML document, and those that say something of a node: anchors, references and tags, and the directives
before a document.
-/

namespace RelationalGraphQL.Yaml

inductive Token where
  /-- The version of the language. -/
  | version (major minor : Nat)
  /-- A handle, and what tags that use it start with. -/
  | handle (handle stem : String)
  | documentStart
  | documentEnd
  | blockSequence
  | blockMapping
  | blockEnd
  | flowSequence
  | flowSequenceEnd
  | flowMapping
  | flowMappingEnd
  | flowEntry
  | blockEntry
  | key
  | value
  | reference (name : String)
  | anchor (name : String)
  | tag (handle suffix : String)
  | scalar (style : Style) (text : String)
  deriving DecidableEq, Repr

/-- The name of an anchor after its sign. -/
def readAnchorName (cursor : Cursor) : Option (String × Cursor) :=
  let name := cursor.ahead isNameChar
  let after := cursor.pass isNameChar
  let ends := gapNext after.rest || after.seesAny fun c => c ∈ ['?', ':', ',', ']', '\x7d', '%', '@', '`']
  if name.isEmpty || !ends then none else some (String.ofList name, after)

/-! ### Tags -/

/-- Whether a character can stand in a tag. Inside angle brackets and in directives more of them can. -/
def isTagChar (wide : Bool) (c : Char) : Bool :=
  isNameChar c || c ∈ [';', '/', '?', ':', '@', '&', '=', '+', '$', '.', '%', '!', '~', '*', '\'', '(', ')']
    || (wide && c ∈ [',', '[', ']'])

/-- The bytes that percent signs and hexadecimal digits give, up to the first other character. -/
def percentBytes : List Char → Option (List UInt8)
  | '%' :: high :: low :: rest => do
    let byte := 16 * (← Json.hexValue? high) + (← Json.hexValue? low)
    let bytes ← percentBytes rest
    some (byte.toUInt8 :: bytes)
  | '%' :: _ => none
  | _ => some []

/-- Undoes the percent signs in a tag. Their bytes are characters in UTF-8. -/
def unescapeTag : Nat → List Char → Option (List Char)
  | 0, _ => none
  | _, [] => some []
  | fuel + 1, c :: rest =>
    if c = '%' then do
      let bytes ← percentBytes (c :: rest)
      let text ← String.fromUTF8? ⟨bytes.toArray⟩
      let more ← unescapeTag fuel (rest.drop (3 * bytes.length - 1))
      some (text.toList ++ more)
    else (unescapeTag fuel rest).map (c :: ·)

/-- Reads the characters of a tag, which come after those in `lead`. -/
def readTagText (wide : Bool) (lead : List Char) (cursor : Cursor) : Option (String × Cursor) := do
  let written := cursor.ahead (isTagChar wide)
  let text ← unescapeTag (written.length + 1) written
  if lead.isEmpty && written.isEmpty then none
  else some (String.ofList (lead.drop 1 ++ text), cursor.pass (isTagChar wide))

/-- A handle: an exclamation mark, or two of them around a name. The second one may be missing where what follows is no
handle after all. -/
def readHandle (cursor : Cursor) : Option (List Char × Cursor) :=
  if !cursor.sees '!' then none
  else
    let name := '!' :: cursor.advance.ahead isNameChar
    let after := cursor.advance.pass isNameChar
    if after.sees '!' then some (name ++ ['!'], after.advance) else some (name, after)

/-- Whether a handle ends with a mark of its own. -/
def isClosed (handle : List Char) : Bool := 1 < handle.length && handle.getLast? = some '!'

/-- The handle and the suffix of a tag. A tag in angle brackets and the tag that is a single mark have no handle. -/
def readTagParts (cursor : Cursor) : Option (String × String × Cursor) :=
  match cursor.rest with
  | '!' :: '<' :: _ => do
    let (suffix, after) ← readTagText true [] (cursor.advanceBy 2)
    if after.sees '>' then some ("", suffix, after.advance) else none
  | _ => do
    let (handle, after) ← readHandle cursor
    if isClosed handle then
      let (suffix, after) ← readTagText false [] after
      some (String.ofList handle, suffix, after)
    else
      let (suffix, after) ← readTagText false handle after
      if suffix.isEmpty then some ("", "!", after) else some ("!", suffix, after)

/-- Reads a tag, which a blank, a line break or, inside brackets, a comma must follow. -/
def readTag (flow : Bool) (cursor : Cursor) : Option (Token × Cursor) := do
  let (handle, suffix, after) ← readTagParts cursor
  if gapNext after.rest || (flow && after.sees ',') then some (.tag handle suffix, after) else none

/-! ### Directives -/

/-- A number of a version, of at most nine digits. -/
def readVersionNumber (cursor : Cursor) : Option (Nat × Cursor) :=
  let digits := cursor.ahead Char.isDigit
  if digits.isEmpty || 9 < digits.length then none else some (Json.digitsValue digits, cursor.pass Char.isDigit)

def readVersion (cursor : Cursor) : Option (Token × Cursor) := do
  let (major, after) ← readVersionNumber (cursor.pass isGap)
  if !after.sees '.' then none
  else
    let (minor, after) ← readVersionNumber after.advance
    some (.version major minor, after)

/-- A handle and what it stands for, with blanks between them. -/
def readHandleDirective (cursor : Cursor) : Option (Token × Cursor) := do
  let (handle, after) ← readHandle (cursor.pass isGap)
  if !(handle = ['!'] || isClosed handle) || !after.seesAny isGap then none
  else
    let (stem, after) ← readTagText true [] (after.pass isGap)
    if gapNext after.rest then some (.handle (String.ofList handle) stem, after) else none

/-- Reads a directive at its percent sign, with the line it stands on. -/
def readDirective (cursor : Cursor) : Option (Token × Cursor) := do
  let name := String.ofList (cursor.advance.ahead isNameChar)
  let after := cursor.advance.pass isNameChar
  if !gapNext after.rest then none
  else
    let (token, after) ← match name with
      | "YAML" => readVersion after
      | "TAG" => readHandleDirective after
      | _ => none
    let next ← after.finishLine
    some (token, next)

end RelationalGraphQL.Yaml
