import RelationalGraphQL.Binary64
import RelationalGraphQL.Table

/-!
JSON values. Objects keep the order of their entries, and an integer and a floating-point number are different
values even where they stand for the same quantity.
-/

namespace RelationalGraphQL

/-- A JSON number: an integer of at most 64 bits as its reader leaves it, or a finite double. -/
inductive Number where
  | int (value : Int)
  | float (value : Binary64)
  deriving DecidableEq

inductive Json where
  | null
  | bool (value : Bool)
  | num (value : Number)
  | str (value : String)
  | arr (items : List Json)
  | obj (entries : List (String × Json))
  deriving Inhabited

namespace Json

mutual

/-- Equality of values: entries count in order. -/
def decEq : (a b : Json) → Decidable (a = b)
  | .null, .null => isTrue rfl
  | .bool a, .bool b => decidable_of_iff (a = b) (by simp)
  | .num a, .num b => decidable_of_iff (a = b) (by simp)
  | .str a, .str b => decidable_of_iff (a = b) (by simp)
  | .arr a, .arr b =>
    match decEqItems a b with
    | isTrue h => isTrue (by simp [h])
    | isFalse h => isFalse (by simp [h])
  | .obj a, .obj b =>
    match decEqEntries a b with
    | isTrue h => isTrue (by simp [h])
    | isFalse h => isFalse (by simp [h])
  | .null, .bool _ | .null, .num _ | .null, .str _ | .null, .arr _ | .null, .obj _
  | .bool _, .null | .bool _, .num _ | .bool _, .str _ | .bool _, .arr _ | .bool _, .obj _
  | .num _, .null | .num _, .bool _ | .num _, .str _ | .num _, .arr _ | .num _, .obj _
  | .str _, .null | .str _, .bool _ | .str _, .num _ | .str _, .arr _ | .str _, .obj _
  | .arr _, .null | .arr _, .bool _ | .arr _, .num _ | .arr _, .str _ | .arr _, .obj _
  | .obj _, .null | .obj _, .bool _ | .obj _, .num _ | .obj _, .str _ | .obj _, .arr _ =>
    isFalse (by simp)

def decEqItems : (a b : List Json) → Decidable (a = b)
  | [], [] => isTrue rfl
  | [], _ :: _ | _ :: _, [] => isFalse (by simp)
  | a :: as, b :: bs =>
    match decEq a b, decEqItems as bs with
    | isTrue h, isTrue hs => isTrue (by simp [h, hs])
    | isFalse h, _ => isFalse (by simp [h])
    | _, isFalse hs => isFalse (by simp [hs])

def decEqEntries : (a b : List (String × Json)) → Decidable (a = b)
  | [], [] => isTrue rfl
  | [], _ :: _ | _ :: _, [] => isFalse (by simp)
  | (k, a) :: as, (l, b) :: bs =>
    if hk : k = l then
      match decEq a b, decEqEntries as bs with
      | isTrue h, isTrue hs => isTrue (by simp [hk, h, hs])
      | isFalse h, _ => isFalse (by simp [h])
      | _, isFalse hs => isFalse (by simp [hs])
    else isFalse (by simp [hk])

end

instance : DecidableEq Json := decEq

def get? (key : String) : Json → Option Json
  | .obj entries => entries.lookup key
  | _ => none

def str? : Json → Option String
  | .str value => some value
  | _ => none

def bool? : Json → Option Bool
  | .bool value => some value
  | _ => none

/-- The value as an unsigned 64-bit integer. -/
def nat? : Json → Option Nat
  | .num (.int value) => if 0 ≤ value then some value.toNat else none
  | _ => none

def arr? : Json → Option (List Json)
  | .arr items => some items
  | _ => none

def obj? : Json → Option (List (String × Json))
  | .obj entries => some entries
  | _ => none

def isNull : Json → Bool
  | .null => true
  | _ => false

/-- A double as a value: what is no finite double becomes null. -/
def ofDouble? (value : Option Binary64) : Json :=
  match value with
  | some value => .num (.float value)
  | none => .null

def ofNat (value : Nat) : Json := .num (.int value)

def ofInt (value : Int) : Json := .num (.int value)

/-- An optional text, null when absent. -/
def ofStr? (value : Option String) : Json := value.elim .null .str

end Json

end RelationalGraphQL
