import RelationalGraphQL.Yaml.Token

/-!
YAML documents as trees, and what their scalars can be read as. Only a plain scalar can be a number, a truth value or
null; a block of lines can be one if its tag says so.
-/

namespace RelationalGraphQL.Yaml

inductive Node where
  | scalar (style : Style) (tag : Option String) (text : String)
  | sequence (items : List Node)
  | mapping (entries : List (Node × Node))
  /-- A node that stands elsewhere under an anchor. -/
  | reference (slot : Nat)
  deriving Inhabited

/-- A tree and the nodes that references in it stand for. -/
structure Document where
  root : Node
  anchored : List (Nat × Node) := []

/-- The node that a node stands for. An anchor never names a reference. -/
def Document.resolve (document : Document) : Node → Node
  | .reference slot => (document.anchored.lookup slot).getD (.reference slot)
  | node => node

/-- What the tags of the language's own types start with. -/
def coreStem : String := "tag:yaml.org,2002:"

namespace Node

/-- What stands where nothing is written. -/
def empty : Node := .scalar .plain none ""

/-- The text of a scalar, however it was written. -/
def text? : Node → Option String
  | .scalar _ _ text => some text
  | _ => none

/-- Whether a text is null, written out. -/
def isNullText (text : String) : Bool := text ∈ ["~", "null", "Null", "NULL"]

/-- Whether a node is null, written out or by leaving it out. A node that is tagged as null and is not fails. -/
def isNull? : Node → Option Bool
  | .scalar .plain none text => some (text.isEmpty || isNullText text)
  | .scalar .plain (some tag) text =>
    if tag ≠ coreStem ++ "null" then some false else if isNullText text then some true else none
  | _ => some false

/-- The text of a scalar that can be of a type of the language. -/
def typedText? (type : String) : Node → Option String
  | .scalar .plain _ text => some text
  | .scalar .literal (some tag) text => if tag = coreStem ++ type then some text else none
  | _ => none

def bool? (node : Node) : Option Bool := do
  let text ← node.typedText? "bool"
  if text ∈ ["true", "True", "TRUE"] then some true
  else if text ∈ ["false", "False", "FALSE"] then some false
  else none

/-- An unsigned 64-bit integer in a base. -/
def digits? (base : Nat) (text : List Char) : Option Nat := do
  let digits ← text.mapM fun c => (Json.hexValue? c).filter (· < base)
  let value := digits.foldl (fun value digit => base * value + digit) 0
  if digits.isEmpty || UInt64.bound ≤ value then none else some value

/-- Reads an unsigned integer: decimal without a needless zero in front, or after the mark of another base. A plus
sign may precede it. -/
def readNat? (text : List Char) : Option Nat :=
  let body := match text with
    | '+' :: rest => rest
    | _ => text
  match body with
  | '0' :: 'x' :: digits => digits? 16 digits
  | '0' :: 'o' :: digits => digits? 8 digits
  | '0' :: 'b' :: digits => digits? 2 digits
  | '0' :: _ :: _ => none
  | digits => digits? 10 digits

def nat? (node : Node) : Option Nat := do readNat? (← node.typedText? "int").toList

/-- One of several fixed words: the text of a scalar, or the tag of null. -/
def word? : Node → Option String
  | .scalar style (some tag) text =>
    match tag.toList with
    | '!' :: name =>
      if style = .plain && (text.isEmpty || isNullText text) then
        some (if name.isEmpty then tag else String.ofList name)
      else none
    | _ => some text
  | node => node.text?

end Node

end RelationalGraphQL.Yaml
