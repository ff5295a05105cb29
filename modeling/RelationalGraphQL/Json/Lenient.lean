import RelationalGraphQL.Json.Basic

/-!
Lenient access to a JSON value: what is absent or of another kind reads as null, empty, false or nothing.
-/

namespace RelationalGraphQL.Json

def part (json : Json) (key : String) : Json := (json.get? key).getD .null

def toText (json : Json) : String := json.str?.getD ""

def textAt (json : Json) (key : String) : String := (json.part key).toText

def text?At (json : Json) (key : String) : Option String := (json.part key).str?

def textOr (default : String) (json : Json) (key : String) : String := (json.text?At key).getD default

def toItems (json : Json) : List Json := json.arr?.getD []

def itemsAt (json : Json) (key : String) : List Json := (json.part key).toItems

def toTexts (json : Json) : List String := json.toItems.map toText

def textsAt (json : Json) (key : String) : List String := (json.part key).toTexts

def entriesAt (json : Json) (key : String) : List (String × Json) := (json.part key).obj?.getD []

def flagAt (json : Json) (key : String) : Bool := (json.part key).bool?.getD false

def nat?At (json : Json) (key : String) : Option Nat := (json.part key).nat?

def natOr (default : Nat) (json : Json) (key : String) : Nat := (json.nat?At key).getD default

def item (json : Json) (place : Nat) : Json := json.toItems[place]?.getD .null

def itemText (json : Json) (place : Nat) : String := (json.item place).toText

/-- One of several fixed words: a text, or the only key of an object that holds null. -/
def word? : Json → Option String
  | .str word => some word
  | .obj [(word, .null)] => some word
  | _ => none

def ofTexts (texts : List String) : Json := .arr (texts.map .str)

def orNull {α : Type} (write : α → Json) (value : Option α) : Json := value.elim .null write

/-- Entries as a list of pairs, which keeps their order. -/
def ofPairs (entries : List (String × Json)) : Json := .arr (entries.map fun (key, value) => .arr [.str key, value])

end RelationalGraphQL.Json
