import RelationalGraphQL.Document.Token
import RelationalGraphQL.Document.Value
import RelationalGraphQL.TypeRef

/-!
Reading tokens into values, types and directives. One token decides every choice. The number of brackets that may
still be opened bounds the nesting of everything that brackets enclose.
-/

namespace RelationalGraphQL.Document

/-- Reads a prefix of the tokens. -/
abbrev Reader := StateT (List Token) Option

/-- How many brackets may be open at once. -/
def bracketLimit : Nat := 50

def peek : Reader (Option Lexeme) := fun tokens => some (tokens.head?.map Token.lexeme, tokens)

def position : Reader Position := fun tokens => some ((tokens.head?.map Token.position).getD {}, tokens)

def sees (lexeme : Lexeme) : Reader Bool := return (← peek) = some lexeme

def expect (lexeme : Lexeme) : Reader Unit
  | token :: rest => if token.lexeme = lexeme then some ((), rest) else none
  | [] => none

def accepts (lexeme : Lexeme) : Reader Bool := do
  if ← sees lexeme then
    expect lexeme
    return true
  else return false

def punctuator (symbol : Char) : Lexeme := .punctuator symbol

def word (text : String) : Lexeme := .name text

def name : Reader String
  | ⟨.name text, _⟩ :: rest => some (text, rest)
  | _ => none

def name? : Reader (Option String) := do
  match ← peek with
  | some (.name _) => return some (← name)
  | _ => return none

def text? : Reader (Option String)
  | ⟨.text value, _⟩ :: rest => some (some value, rest)
  | tokens => some (none, tokens)

variable {α : Type}

def repeatWhile (continues : Option Lexeme → Bool) (item : Reader α) : Nat → Reader (List α)
  | 0 => return []
  | fuel + 1 => do
    if continues (← peek) then
      let first ← item
      return first :: (← repeatWhile continues item fuel)
    else return []

/-- Reads items as long as the next token says so. Each item takes a token, so their number bounds the items. -/
def many (continues : Option Lexeme → Bool) (item : Reader α) : Reader (List α) :=
  fun tokens => repeatWhile continues item tokens.length tokens

/-- Items up to a closing bracket, which is taken too. -/
def upTo (close : Lexeme) (item : Reader α) : Reader (List α) := do
  let items ← many (fun next => next ≠ some close) item
  expect close
  return items

def someUpTo (close : Lexeme) (item : Reader α) : Reader (List α) := do
  let items ← upTo close item
  if items.isEmpty then failure else return items

/-- One or more names with a separator between them. -/
def namesBy (separator : Lexeme) : Reader (List String) := do
  let first ← name
  let others ← many (· = some separator) (do expect separator; name)
  return first :: others

/-- Sets a key of entries sorted by key. -/
def insertSorted (key : String) (value : α) : List (String × α) → List (String × α)
  | [] => [(key, value)]
  | (k, v) :: rest =>
    if key < k then (key, value) :: (k, v) :: rest
    else if key = k then (key, value) :: rest
    else (k, v) :: insertSorted key value rest

/-- Entries sorted by key, the last of a key counting. -/
def sortedEntries (entries : List (String × α)) : List (String × α) :=
  entries.foldl (fun sorted (key, value) => insertSorted key value sorted) []

def named (value : Reader α) : Reader (String × α) := do
  let key ← name
  expect (punctuator ':')
  return (key, ← value)

def nameValue : String → Value
  | "true" => .boolean true
  | "false" => .boolean false
  | "null" => .null
  | text => .enum text

/-- A value, given how to read a value inside brackets, if one more may be opened. Variables stand only where they
are allowed, which is not in default values. -/
def valueWith (withVariables : Bool) (nested : Option (Reader Value)) : Reader Value := do
  match ← peek, nested with
  | some (.name text), _ =>
    expect (.name text)
    return nameValue text
  | some (.int number), _ =>
    expect (.int number)
    return .int number
  | some (.float number), _ =>
    expect (.float number)
    return .float number
  | some (.text content), _ =>
    expect (.text content)
    return .text content
  | some (.punctuator '$'), _ =>
    if withVariables then
      expect (punctuator '$')
      return .variable (← name)
    else failure
  | some (.punctuator '['), some item =>
    expect (punctuator '[')
    return .list (← upTo (punctuator ']') item)
  | some (.punctuator '\x7b'), some item =>
    expect (punctuator '\x7b')
    return .object (sortedEntries (← upTo (punctuator '\x7d') (named item)))
  | _, _ => failure

def value (withVariables : Bool) : Nat → Reader Value
  | 0 => valueWith withVariables none
  | brackets + 1 => valueWith withVariables (some (value withVariables brackets))

/-- A bang makes a type non-null. -/
def nonNullMark (type : TypeRef) : Reader TypeRef := do
  if ← accepts (punctuator '!') then return .nonNull type else return type

/-- A type, given how to read a type inside brackets, if one more may be opened. -/
def typeWith (nested : Option (Reader TypeRef)) : Reader TypeRef := do
  match ← name?, nested with
  | some text, _ => nonNullMark (.named text)
  | none, some inner =>
    expect (punctuator '[')
    let type ← inner
    expect (punctuator ']')
    nonNullMark (.list type)
  | none, none => failure

def typeRef : Nat → Reader TypeRef
  | 0 => typeWith none
  | brackets + 1 => typeWith (some (typeRef brackets))

structure Directive where
  name : String
  arguments : List (String × Value) := []
  deriving Inhabited

/-- What stands in parentheses, one or more times, or nothing. -/
def parenthesized (brackets : Nat) (item : Nat → Reader α) : Reader (List α) := do
  if ← sees (punctuator '(') then
    match brackets with
    | 0 => failure
    | brackets + 1 =>
      expect (punctuator '(')
      someUpTo (punctuator ')') (item brackets)
  else return []

def braced (brackets : Nat) (item : Nat → Reader α) : Reader (List α) :=
  match brackets with
  | 0 => failure
  | brackets + 1 => do
    expect (punctuator '\x7b')
    someUpTo (punctuator '\x7d') (item brackets)

/-- What stands in braces, if braces are next. -/
def braced? (brackets : Nat) (item : Nat → Reader α) : Reader (List α) := do
  if ← sees (punctuator '\x7b') then braced brackets item else return []

def arguments (brackets : Nat) : Reader (List (String × Value)) :=
  parenthesized brackets fun brackets => named (value true brackets)

def directives (brackets : Nat) : Reader (List Directive) :=
  many (· = some (punctuator '@')) do
    expect (punctuator '@')
    let name ← name
    return { name, arguments := ← arguments brackets }

/-- Reads a whole text: one or more items and nothing after them. -/
def readAll (item : Reader α) (text : String) : Option (List α) := do
  let tokens ← tokens text
  let (items, rest) ← (many Option.isSome item) tokens
  if items.isEmpty || !rest.isEmpty then none else some items

end RelationalGraphQL.Document
