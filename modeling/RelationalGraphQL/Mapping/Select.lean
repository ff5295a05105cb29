import RelationalGraphQL.Arguments.Basic
import RelationalGraphQL.Mapping.Alias
import RelationalGraphQL.Mapping.Basic
import RelationalGraphQL.Selection.Basic
import RelationalGraphQL.Sql.Text

/-!
Selections as SELECT statements. Leaf fields become columns, to-one relations joins, to-many relations lateral
subqueries, and the arguments of a field its conditions, ordering and page.
-/

namespace RelationalGraphQL.Mapping

open Sql (Column Fragment Join Parameters Qualifier Select Subquery)

structure SelectResult where
  statement : Select Fragment
  sql : String
  parameters : Parameters
  /-- Contradictions between clauses; the statement is written regardless. -/
  findings : List Sql.Finding

/-- Refuses a statement that contradicts itself. -/
def SelectResult.ensureValid (result : SelectResult) : Except ConversionError SelectResult :=
  if result.findings.isEmpty then .ok result else .error (.invalidStatement result.findings)

/-- A SELECT under way. -/
structure Draft where
  columns : List Fragment := []
  joins : List (Join Fragment) := []
  /-- The aliases given out so far. -/
  aliases : List String
  parameters : Parameters := []

abbrev DraftM := StateT Draft (Except ConversionError)

/-- Reads arguments against the parameters of the draft. -/
def lowering {α : Type} (action : Arguments.Lowering α) : DraftM α := fun draft =>
  match action.run draft.parameters with
  | .ok (result, parameters) => .ok (result, { draft with parameters })
  | .error error => .error error

def addColumn (column : Fragment) : DraftM Unit :=
  modify fun draft => { draft with columns := draft.columns ++ [column] }

def addJoin (join : Join Fragment) : DraftM Unit := modify fun draft => { draft with joins := draft.joins ++ [join] }

def takeAlias (name : String) : DraftM String := do
  let draft ← get
  let aliasName := freshAlias draft.aliases name
  set { draft with aliases := aliasName :: draft.aliases }
  return aliasName

/-- A table that fields are read from: the type of its rows and the alias it goes by. -/
structure Source where
  typeName : String
  aliasName : String

/-- The arguments of a field, with the schema's defaults for those not given. -/
def argumentsWithDefaults (mapping : Mapping) (parentType : String) (field : SelectedField) : List (String × Json) :=
  match mapping.schema.field? parentType field.name with
  | none => field.arguments
  | some definition =>
    definition.arguments.foldl
      (fun arguments argument =>
        match argument.default with
        | some value => Table.insertNew argument.name value arguments
        | none => arguments)
      field.arguments

/-- Reads what a field's arguments ask of its rows. A page needs a dialect that can cut one. -/
def rowChoice (mapping : Mapping) (parentType : String) (field : SelectedField) (column : String → Column) :
    DraftM (Arguments.RowChoice Column) := do
  let choice ← lowering (Arguments.readRowChoice (argumentsWithDefaults mapping parentType field) column)
  if (choice.limit.isSome || choice.offset.isSome) && !mapping.dialect.supports .limitOffset then
    throw (mapping.unsupported "LIMIT/OFFSET")
  return choice

def orderFragments (order : List (Sql.OrderItem Column)) : List (Sql.OrderItem Fragment) :=
  order.map (Sql.OrderItem.map Fragment.column)

/-- The output of a leaf field. Below a joined relation it is named for the join's alias, so that outputs stay apart;
at the root it is named for its alias, if it has another one than its name. -/
def leafOutput (joined : Bool) (source : Source) (column : Column) (field : SelectedField) : Fragment :=
  if joined then .output column (source.aliasName ++ "_" ++ field.responseKey)
  else
    match field.aliasName with
    | some aliasName => if aliasName ≠ field.name then .output column aliasName else .column column
    | none => .column column

/-- Where a lateral subquery finds its rows: what qualifies its columns, its source, and the condition that ties it to
the parent's row. -/
def correlation (parent : Source) (relation : Relation) : Option Qualifier × Option Fragment × Fragment :=
  let parentColumn : Column := { qualifier := some (.aliased parent.aliasName), name := relation.sourceColumn }
  match relation.link with
  | none => (none, none, .equal { name := relation.targetColumn } parentColumn)
  | some link =>
    (some (.table relation.table),
      some (.linked relation.table link.table link.targetKey relation.targetColumn),
      .equal { qualifier := some (.table link.table), name := link.sourceKey } parentColumn)

/-- The columns that a lateral subquery selects, each once. Only leaf fields are read there. -/
def lateralFields (mapping : Mapping) (targetType : String) (children : List SelectedField) : List SelectedField :=
  children.filter fun child => !child.hasSelections && (mapping.relation? targetType child.name).isNone

/-- Each element once, in the order of first occurrence. -/
def distinctColumns (columns : List Column) : List Column :=
  columns.foldl (fun seen column => if column ∈ seen then seen else seen ++ [column]) []

/-- Joins a to-many relation through a subquery for each parent row. -/
def lateralJoin (mapping : Mapping) (parent : Source) (field : SelectedField) (relation : Relation) (target : Source)
    (children : List SelectedField) : DraftM Unit := do
  let (qualifier, source, tie) := correlation parent relation
  let leaves := lateralFields mapping target.typeName children
  leaves.forM fun leaf =>
    addColumn (.output
      { qualifier := some (.aliased target.aliasName), name := mapping.columnName target.typeName leaf.name }
      (target.aliasName ++ "_" ++ leaf.responseKey))
  let column := mapping.column target.typeName qualifier
  let choice ← rowChoice mapping parent.typeName field column
  let subquery : Subquery Fragment :=
    { columns := (distinctColumns (leaves.map fun leaf => column leaf.name)).map .column
      source
      conditions := tie :: choice.conditions.map .conjunction
      order := orderFragments choice.order
      limit := choice.limit
      offset := choice.offset }
  let inner := relation.joinKind = .inner
  addJoin
    { kind := if inner then .lateral else .leftLateral
      table := relation.table
      aliasName := target.aliasName
      on := if inner then none else some .always
      subquery := some subquery }

/-- Joins the single row of a to-one relation. -/
def singleJoin (parent : Source) (relation : Relation) (aliasName : String) : Join Fragment :=
  { kind := relation.joinKind
    table := relation.table
    aliasName
    on := some (.equal
      { qualifier := some (.aliased parent.aliasName), name := relation.sourceColumn }
      { qualifier := some (.aliased aliasName), name := relation.targetColumn }) }

/-- The named type of a field, empty where it is not known. -/
def targetType (mapping : Mapping) (typeName fieldName : String) : String :=
  ((mapping.schema.field? typeName fieldName).map fun field => field.type.namedType).getD ""

mutual

/-- Adds the columns and joins of a selection set. -/
def addSelections (mapping : Mapping) (joined : Bool) (source : Source) : SelectionSet → DraftM Unit
  | ⟨fields, _⟩ => addFields mapping joined source fields

def addFields (mapping : Mapping) (joined : Bool) (source : Source) : List SelectedField → DraftM Unit
  | [] => return ()
  | field :: rest => do
    addField mapping joined source field
    addFields mapping joined source rest

/-- Adds one field: a relation as a join if anything is selected below it, a leaf as a column. An object field without
a join is left to its resolver. -/
def addField (mapping : Mapping) (joined : Bool) (source : Source) (field : SelectedField) : DraftM Unit :=
  match field with
  | ⟨name, aliasName, arguments, directives, typeCondition, position, selections⟩ =>
    let field : SelectedField := ⟨name, aliasName, arguments, directives, typeCondition, position, selections⟩
    match mapping.relation? source.typeName name, selections with
    | some _, none => return ()
    | some relation, some set => do
      let aliasName ← takeAlias field.responseKey
      let target : Source := { typeName := targetType mapping source.typeName name, aliasName }
      if relation.isLateral then lateralJoin mapping source field relation target set.fields
      else
        addJoin (singleJoin source relation aliasName)
        addSelections mapping true target set
    | none, _ =>
      if field.hasSelections then return ()
      else
        addColumn (leafOutput joined source
          (mapping.column source.typeName (some (.aliased source.aliasName)) name) field)

end

/-- Whether rows of a type can be selected. -/
def isRowType (mapping : Mapping) (typeName : String) : Bool :=
  mapping.schema.typeKind? typeName = some .object || mapping.schema.typeKind? typeName = some .interface

/-- The draft of a field's SELECT and what its arguments ask of the rows. -/
def draftSelect (mapping : Mapping) (root : Source) (parentType : String) (field : SelectedField) :
    DraftM (Arguments.RowChoice Column) := do
  match field.selections with
  | some set => addSelections mapping false root set
  | none => pure ()
  rowChoice mapping parentType field (mapping.column root.typeName (some (.aliased root.aliasName)))

/-- Compiles the selection of a field into a SELECT. The field's type picks the table. -/
def compileSelect (mapping : Mapping) (parentType : String) (returnType : Option TypeRef) (field : SelectedField) :
    Except ConversionError SelectResult := do
  let some type := returnType | throw (.missingReturnType field.name)
  let typeName := type.namedType
  if !isRowType mapping typeName then throw (.unknownType typeName)
  mapping.requireStatements
  let root : Source := { typeName, aliasName := initial typeName }
  let (choice, draft) ← (draftSelect mapping root parentType field).run { aliases := [root.aliasName] }
  let statement : Select Fragment :=
    { table := mapping.tableName typeName
      aliasName := some root.aliasName
      columns := draft.columns
      joins := draft.joins
      conditions := choice.conditions.map .conjunction
      order := orderFragments choice.order
      limit := choice.limit
      offset := choice.offset }
  let written := statement.map (Fragment.text mapping.dialect)
  return { statement, sql := written.text, parameters := draft.parameters, findings := written.findings }

end RelationalGraphQL.Mapping
