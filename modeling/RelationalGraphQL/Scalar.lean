import RelationalGraphQL.Json.Printer
import RelationalGraphQL.Json.Reader
import RelationalGraphQL.Text.Blank

/-!
Coercions that a scalar can be configured with: each shapes a resolved value into one kind of JSON value.
-/

namespace RelationalGraphQL

inductive ScalarKind where
  | string
  | int
  | float
  | boolean
  | json
  deriving DecidableEq, Repr

namespace ScalarKind

def ofText? : String → Option ScalarKind
  | "string" => some .string
  | "int" => some .int
  | "float" => some .float
  | "boolean" => some .boolean
  | "json" => some .json
  | _ => none

def text : ScalarKind → String
  | .string => "string"
  | .int => "int"
  | .float => "float"
  | .boolean => "boolean"
  | .json => "json"

def title : ScalarKind → String
  | .string => "String"
  | .int => "Int"
  | .float => "Float"
  | .boolean => "Boolean"
  | .json => "Json"

end ScalarKind

/-- Why a value has no form of the kind asked for. -/
inductive CoercionError where
  | notAnInteger (text : String)
  | notABoolean (text : String)
  | emptyInteger
  | invalidDigit
  | tooLarge
  | tooSmall
  | emptyFloat
  | invalidFloat
  | wrongKind (value : String) (kind : ScalarKind)
  deriving DecidableEq, Repr

def CoercionError.message : CoercionError → String
  | .notAnInteger text => text ++ " is not an integer"
  | .notABoolean text => "\"" ++ text ++ "\" is not a boolean"
  | .emptyInteger => "cannot parse integer from empty string"
  | .invalidDigit => "invalid digit found in string"
  | .tooLarge => "number too large to fit in target type"
  | .tooSmall => "number too small to fit in target type"
  | .emptyFloat => "cannot parse float from empty string"
  | .invalidFloat => "invalid float literal"
  | .wrongKind value kind => "cannot coerce " ++ value ++ " to " ++ kind.title

namespace Scalar

/-- Reads the digits of a signed 64-bit integer from the first on. The first character that is no digit, or that takes
the number out of range, decides the error. -/
def readDigits (negative : Bool) (value : Int) : List Char → Except CoercionError Int
  | [] => .ok value
  | c :: rest =>
    if !c.isDigit then .error .invalidDigit
    else
      let digit : Int := c.toNat - '0'.toNat
      let next := if negative then 10 * value - digit else 10 * value + digit
      if next < -Int64.bound then .error .tooSmall
      else if Int64.bound ≤ next then .error .tooLarge
      else readDigits negative next rest

/-- Reads a signed 64-bit integer: an optional sign and digits. -/
def readInteger : List Char → Except CoercionError Int
  | [] => .error .emptyInteger
  | ['+'] | ['-'] => .error .invalidDigit
  | '+' :: digits => readDigits false 0 digits
  | '-' :: digits => readDigits true 0 digits
  | digits => readDigits false 0 digits

/-- The words for numbers that no double stands for. -/
def isNonFinite (text : List Char) : Bool :=
  let lower := String.ofList (text.map Char.toLower)
  lower = "inf" || lower = "infinity" || lower = "nan"

/-- A decimal number after its sign: digits with a point among or around them, and an exponent. What is beyond the
doubles reads as no number. -/
def readMagnitude (negative : Bool) (text : List Char) : Except CoercionError (Option Binary64) :=
  let whole := text.takeWhile Char.isDigit
  let rest := text.dropWhile Char.isDigit
  let (fraction, rest) : List Char × List Char := match rest with
    | '.' :: rest => (rest.takeWhile Char.isDigit, rest.dropWhile Char.isDigit)
    | _ => ([], rest)
  let exponent : Option (Int × List Char) := match rest with
    | 'e' :: rest | 'E' :: rest => Json.readExponent rest
    | _ => some (0, rest)
  match exponent with
  | some (exponent, []) =>
    if whole.isEmpty && fraction.isEmpty then .error .invalidFloat
    else .ok (Binary64.ofDecimal negative (Json.digitsValue (whole ++ fraction)) (exponent - fraction.length))
  | _ => .error .invalidFloat

/-- Reads a double: a decimal number with an optional sign, or a word for a number that is not finite. -/
def readFloat (text : List Char) : Except CoercionError (Option Binary64) :=
  let (negative, body) : Bool × List Char := match text with
    | '-' :: rest => (true, rest)
    | '+' :: rest => (false, rest)
    | _ => (false, text)
  if text.isEmpty then .error .emptyFloat
  else if isNonFinite body then .ok none
  else readMagnitude negative body

/-- The integer that a number stands for. -/
def integerOf : Number → Except CoercionError Json
  | .int value => if value < Int64.bound then .ok (Json.ofInt value) else .error (.notAnInteger (toString value))
  | .float value =>
    match value.toInt? with
    | some n =>
      if -Int64.bound < n ∧ n < Int64.bound then .ok (Json.ofInt n)
      else .error (.notAnInteger (Json.floatText value))
    | none => .error (.notAnInteger (Json.floatText value))

def doubleOf : Number → Json
  | .int value => Json.ofDouble? (Binary64.ofInt value)
  | .float value => .num (.float value)

/-- The value in the form of a kind, or why it has none. -/
def coerce (kind : ScalarKind) (value : Json) : Except CoercionError Json :=
  match kind, value with
  | .json, value => .ok value
  | .string, .str text => .ok (.str text)
  | .string, .num number => .ok (.str (Json.numberText number))
  | .string, .bool truth => .ok (.str (if truth then "true" else "false"))
  | .int, .num number => integerOf number
  | .int, .str text => do return Json.ofInt (← readInteger (Text.trim text.toList))
  | .float, .num number => .ok (doubleOf number)
  | .float, .str text => do return Json.ofDouble? (← readFloat (Text.trim text.toList))
  | .boolean, .bool truth => .ok (.bool truth)
  | .boolean, .str text =>
    match text with
    | "true" => .ok (.bool true)
    | "false" => .ok (.bool false)
    | _ => .error (.notABoolean text)
  | kind, other => .error (.wrongKind other.compact kind)

/-- The coercion of a kind as a scalar's marshaler. -/
def marshaler (kind : ScalarKind) (value : Json) : Except String Json :=
  match coerce kind value with
  | .ok value => .ok value
  | .error error => .error error.message

end Scalar

end RelationalGraphQL
