import RelationalGraphQL.Table
import RelationalGraphQL.Yaml.Node
import RelationalGraphQL.Yaml.Tokens

/-!
Reading a YAML document from its tokens: mappings and sequences by indentation or in brackets, scalars, anchors and
references, and the marks around a document.
-/

namespace RelationalGraphQL.Yaml

/-- What is left to read, and what was read of anchors and handles. -/
structure Reading where
  tokens : List Token
  /-- The slots of the anchors by name. -/
  slots : Table Nat := []
  /-- The places of the nodes in the slots. -/
  places : List (Nat × Nat) := []
  /-- The number of nodes with anchors so far. -/
  count : Nat := 0
  /-- The nodes with anchors by place. -/
  nodes : List (Nat × Node) := []
  handles : List (String × String) := []

abbrev Reader := StateT Reading Option

namespace Reader

def peek : Reader (Option Token) := do return (← get).tokens.head?

def skip : Reader Unit := modify fun reading => { reading with tokens := reading.tokens.drop 1 }

/-- Skips a token if it comes next, and says whether it did. -/
def accepts (token : Token) : Reader Bool := do
  if (← peek) = some token then
    skip
    return true
  else return false

def expect (token : Token) : Reader Unit := do
  unless ← accepts token do failure

def sees (tokens : List Token) : Reader Bool := do return (← peek).any fun token => tokens.contains token

/-- Gives an anchor a slot, and the node that follows a place. The slot is numbered by the names there are, so that a
name that is given again shares its slot with the next new name; of the nodes in a slot the last counts. -/
def giveAnchor (name : String) : Reader Nat := do
  let reading ← get
  let slot := reading.slots.length
  let place := reading.count
  set { reading with
    slots := Table.insert name slot reading.slots, places := (slot, place) :: reading.places, count := place + 1 }
  return place

def keepNode (place : Option Nat) (node : Node) : Reader Node := do
  match place with
  | none => return node
  | some place =>
    modify fun reading => { reading with nodes := (place, node) :: reading.nodes }
    return node

def readAnchor? : Reader (Option String) := do
  match ← peek with
  | some (.anchor name) =>
    skip
    return some name
  | _ => return none

/-- The tag with a handle and a suffix; the handle must be known. -/
def fullTag (handle suffix : String) : Reader String := do
  if handle.isEmpty then return suffix
  else
    match (← get).handles.lookup handle with
    | some stem => return stem ++ suffix
    | none => failure

def readTag? : Reader (Option String) := do
  match ← peek with
  | some (.tag handle suffix) =>
    skip
    return some (← fullTag handle suffix)
  | _ => return none

/-- An anchor and a tag in either order, each of which may be missing. -/
def properties : Reader (Option String × Option String) := do
  match ← readAnchor? with
  | some anchor => return (some anchor, ← readTag?)
  | none =>
    let tag ← readTag?
    if tag.isSome then return (← readAnchor?, tag) else return (none, none)

/-- The node that a reference stands for. -/
def reference (name : String) : Reader Node := do
  match (← get).slots.lookup name with
  | some slot => return .reference slot
  | none => failure

mutual

/-- A node. Some places take no blocks, and some take a sequence that is not indented. -/
def node : Nat → Bool → Bool → Reader Node
  | 0, _, _ => failure
  | fuel + 1, blocks, unindented => do
    match ← peek with
    | some (.reference name) =>
      skip
      reference name
    | _ =>
      let (anchor, tag) ← properties
      let place ← anchor.mapM giveAnchor
      keepNode place (← content fuel blocks unindented anchor.isSome tag)

/-- A node after its anchor and its tag. Where one of these stands nothing need follow. -/
def content : Nat → Bool → Bool → Bool → Option String → Reader Node
  | 0, _, _, _, _ => failure
  | fuel + 1, blocks, unindented, anchored, tag => do
    match ← peek, blocks, unindented with
    | some .blockEntry, _, true => return .sequence (← unindentedItems fuel)
    | some (.scalar style text), _, _ =>
      skip
      return .scalar style (if tag = some "!" then none else tag) text
    | some .flowSequence, _, _ =>
      skip
      return .sequence (← flowItems fuel true)
    | some .flowMapping, _, _ =>
      skip
      return .mapping (← flowEntries fuel true)
    | some .blockSequence, true, _ =>
      skip
      return .sequence (← blockItems fuel)
    | some .blockMapping, true, _ =>
      skip
      return .mapping (← blockEntries fuel)
    | _, _, _ => if anchored || tag.isSome then return .scalar .plain tag "" else failure

/-- A node, or nothing if one of some tokens comes next. -/
def nodeUnless : Nat → List Token → Bool → Bool → Reader Node
  | 0, _, _, _ => failure
  | fuel + 1, stops, blocks, unindented => do
    if ← sees stops then return .empty else node fuel blocks unindented

def blockItems : Nat → Reader (List Node)
  | 0 => failure
  | fuel + 1 => do
    if ← accepts .blockEntry then
      let item ← nodeUnless fuel [.blockEntry, .blockEnd] true false
      return item :: (← blockItems fuel)
    else
      expect .blockEnd
      return []

/-- The elements of a sequence that stands as far to the left as the key it belongs to. -/
def unindentedItems : Nat → Reader (List Node)
  | 0 => failure
  | fuel + 1 => do
    if ← accepts .blockEntry then
      let item ← nodeUnless fuel [.blockEntry, .key, .value, .blockEnd] true false
      return item :: (← unindentedItems fuel)
    else return []

def blockEntries : Nat → Reader (List (Node × Node))
  | 0 => failure
  | fuel + 1 => do
    let stops := [.key, .value, .blockEnd]
    if ← accepts .key then
      let key ← nodeUnless fuel stops true true
      let value ← if ← accepts .value then nodeUnless fuel stops true true else pure .empty
      return (key, value) :: (← blockEntries fuel)
    else
      expect .blockEnd
      return []

/-- The value of a key inside brackets. -/
def flowValue : Nat → List Token → Reader Node
  | 0, _ => failure
  | fuel + 1, stops => do
    if ← accepts .value then nodeUnless fuel stops false false else return .empty

/-- The elements of a sequence in brackets. A key makes an element a mapping of one entry; one that is left out takes
the token after it along. -/
def flowItems : Nat → Bool → Reader (List Node)
  | 0, _ => failure
  | fuel + 1, first => do
    let stops := [.flowEntry, .flowSequenceEnd]
    if ← accepts .flowSequenceEnd then return []
    unless first do expect .flowEntry
    if ← accepts .key then
      let key ← if ← sees (.value :: stops) then do
          skip
          pure .empty
        else node fuel false false
      let value ← flowValue fuel stops
      return .mapping [(key, value)] :: (← flowItems fuel false)
    else if ← accepts .flowSequenceEnd then return []
    else
      let item ← node fuel false false
      return item :: (← flowItems fuel false)

/-- The entries of a mapping in brackets. A node that is no key is one without a value. -/
def flowEntries : Nat → Bool → Reader (List (Node × Node))
  | 0, _ => failure
  | fuel + 1, first => do
    let stops := [.flowEntry, .flowMappingEnd]
    if ← accepts .flowMappingEnd then return []
    unless first do expect .flowEntry
    if ← accepts .key then
      let key ← nodeUnless fuel (.value :: stops) false false
      let value ← flowValue fuel stops
      return (key, value) :: (← flowEntries fuel false)
    else if ← accepts .flowMappingEnd then return []
    else
      let key ← node fuel false false
      return (key, .empty) :: (← flowEntries fuel false)

end

/-- The handles that need no directive. -/
def coreHandles : List (String × String) := [("!", "!"), ("!!", coreStem)]

/-- The directives before a document: the version at most once, and each handle at most once. -/
def directives : Nat → Bool → List (String × String) → Reader (List (String × String))
  | 0, _, _ => failure
  | fuel + 1, versioned, handles => do
    match ← peek with
    | some (.version major minor) =>
      if versioned || major ≠ 1 || (minor ≠ 1 && minor ≠ 2) then failure
      else
        skip
        directives fuel true handles
    | some (.handle handle stem) =>
      if (handles.lookup handle).isSome then failure
      else
        skip
        directives fuel versioned (handles ++ [(handle, stem)])
    | _ => return handles

/-- Whether what comes next belongs to the frame of a document. -/
def framed : Reader Bool := do
  match ← peek with
  | none | some .documentStart | some .documentEnd | some (.version _ _) | some (.handle _ _) => return true
  | _ => return false

/-- The content of a document that starts with directives or a mark. -/
def framedDocument (fuel : Nat) : Reader Node := do
  let handles ← directives fuel false []
  modify fun reading => { reading with handles := handles ++ coreHandles }
  expect .documentStart
  if ← framed then return .empty else node fuel true false

def documentEnds : Nat → Reader Unit
  | 0 => return
  | fuel + 1 => do
    if ← accepts .documentEnd then documentEnds fuel

/-- The only document of a text; an empty text holds the empty node. -/
def document (fuel : Nat) : Reader Node := do
  let root ← match ← peek with
    | none => pure .empty
    | some .documentStart | some (.version _ _) | some (.handle _ _) => framedDocument fuel
    | some _ => node fuel true false
  documentEnds fuel
  if (← peek).isSome then failure else return root

end Reader

def parse? (text : String) : Option Document := do
  let tokens ← tokens? text
  let (root, reading) ← (Reader.document (4 * tokens.length + 4)).run { tokens, handles := Reader.coreHandles }
  let anchored := reading.places.filterMap fun (slot, place) =>
    (reading.nodes.lookup place).map fun node => (slot, node)
  return { root, anchored }

end RelationalGraphQL.Yaml
