/-!
Paths from the root of a response to a value in it.
-/

namespace RelationalGraphQL

inductive PathSegment where
  | key (name : String)
  | index (place : Nat)
  deriving DecidableEq, Repr

def PathSegment.text : PathSegment → String
  | .key name => name
  | .index place => toString place

/-- The steps to a value, from the root on. -/
abbrev Path := List PathSegment

namespace Path

def root : Path := []

def withKey (path : Path) (name : String) : Path := path ++ [.key name]

def withIndex (path : Path) (place : Nat) : Path := path ++ [.index place]

def text (path : Path) : String := ".".intercalate (path.map PathSegment.text)

end Path

end RelationalGraphQL
