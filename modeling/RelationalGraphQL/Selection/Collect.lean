import RelationalGraphQL.Document.Query
import RelationalGraphQL.Schema.Basic
import RelationalGraphQL.Schema.MetaField
import RelationalGraphQL.Selection.Basic

/-!
Collecting fields: the selections of a document merged into one entry for each response key. Fragments are expanded
where they are spread, unless they are being expanded already; a later occurrence of a key adds its selections to the
first.
-/

namespace RelationalGraphQL.Selection

/-- What selections are collected against. -/
structure Scope where
  schema : Schema
  variableValues : List (String × Json) := []
  fragments : List (String × Document.Fragment) := []

namespace Scope

variable (scope : Scope)

/-- The condition of a directive, if it has a boolean one. -/
def directiveCondition (directive : Document.Directive) : Option Bool :=
  (directive.arguments.lookup "if").bind fun value => (value.toJson scope.variableValues).bool?

/-- Whether directives leave a selection out. -/
def excludes (directives : List Document.Directive) : Bool :=
  directives.any fun directive =>
    match directive.name with
    | "skip" => scope.directiveCondition directive = some true
    | "include" => scope.directiveCondition directive = some false
    | _ => false

/-- Whether a fragment applies below a type, and the condition that its fields then carry. A fragment that not every
value of the type satisfies restricts its fields to the type it is on. -/
def applicable? (parentType on : String) (inherited : Option String) : Option (Option String) :=
  if scope.schema.satisfies parentType on then some inherited
  else
    let possible := scope.schema.possibleTypes parentType
    if possible.contains on || possible.any fun type => scope.schema.satisfies type on then some (some on)
    else none

/-- The type of the values below a field, empty where the field is not known. -/
def nestedType (parentType : String) (condition : Option String) (fieldName : String) : String :=
  match condition.bind fun on => scope.schema.field? on fieldName with
  | some field => field.type.namedType
  | none =>
    match scope.schema.field? parentType fieldName with
    | some field => field.type.namedType
    | none => (Schema.metaFieldType? parentType fieldName).getD ""

def appliedDirectives (directives : List Document.Directive) : List AppliedDirective :=
  (directives.filter fun directive => directive.name ≠ "skip" && directive.name ≠ "include").map fun directive =>
    { name := directive.name, arguments := Document.Value.argumentTable scope.variableValues directive.arguments }

end Scope

/-- Selections below a type, under a condition, to be merged into a set. -/
structure Level where
  /-- The fragments being expanded, the innermost first. -/
  visiting : List String := []
  parentType : String
  condition : Option String := none

mutual

/-- Merges selections into a set, given how to merge the selections of a spread fragment. -/
def mergeWith (scope : Scope) (expand : Level → List Document.Selection → SelectionSet → SelectionSet)
    (level : Level) : List Document.Selection → SelectionSet → SelectionSet
  | [], target => target
  | selection :: rest, target =>
    mergeWith scope expand level rest (mergeOneWith scope expand level selection target)

def mergeOneWith (scope : Scope) (expand : Level → List Document.Selection → SelectionSet → SelectionSet)
    (level : Level) : Document.Selection → SelectionSet → SelectionSet
  | .field aliasName name arguments directives selections position, target =>
    if scope.excludes directives then target
    else if name = "__typename" then { target with typename := true }
    else
      let below : Level :=
        { visiting := level.visiting, parentType := scope.nestedType level.parentType level.condition name }
      let nest (nested : Option SelectionSet) : Option SelectionSet :=
        if selections.isEmpty then nested
        else some (mergeWith scope expand below selections (nested.getD .empty))
      let again (field : SelectedField) : SelectedField :=
        { field with
          typeCondition := if field.typeCondition = level.condition then field.typeCondition else none,
          selections := nest field.selections }
      let fresh : SelectedField :=
        { name, aliasName, arguments := Document.Value.argumentTable scope.variableValues arguments,
          directives := scope.appliedDirectives directives, typeCondition := level.condition, position,
          selections := nest none }
      { target with fields := upsertField (aliasName.getD name) again fresh target.fields }
  | .spread fragment directives, target =>
    if scope.excludes directives || level.visiting.contains fragment then target
    else
      match scope.fragments.lookup fragment with
      | none => target
      | some definition =>
        match scope.applicable? level.parentType definition.condition level.condition with
        | none => target
        | some condition =>
          expand { level with visiting := fragment :: level.visiting, condition } definition.selections target
  | .inline on directives selections, target =>
    if scope.excludes directives then target
    else
      match on with
      | none => mergeWith scope expand level selections target
      | some on =>
        match scope.applicable? level.parentType on level.condition with
        | none => target
        | some condition => mergeWith scope expand { level with condition } selections target

end

/-- Merges selections with at most so many fragments expanded inside each other. -/
def mergeNested (scope : Scope) : Nat → Level → List Document.Selection → SelectionSet → SelectionSet
  | 0 => mergeWith scope fun _ _ target => target
  | depth + 1 => mergeWith scope (mergeNested scope depth)

/-- Merges selections into a set. A fragment is never expanded inside itself, so their number bounds the nesting. -/
def merge (scope : Scope) (level : Level) (selections : List Document.Selection) (target : SelectionSet) :
    SelectionSet :=
  mergeNested scope scope.fragments.length level selections target

/-- The fields that selections ask of values of a type. -/
def collect (scope : Scope) (parentType : String) (selections : List Document.Selection) : SelectionSet :=
  merge scope { parentType } selections .empty

end RelationalGraphQL.Selection
