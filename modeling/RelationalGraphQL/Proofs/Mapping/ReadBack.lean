import RelationalGraphQL.Execution.Executor
import RelationalGraphQL.Proofs.Execution.ErrorPath
import RelationalGraphQL.Proofs.Mapping.Output

/-!
# Reading rows back

A row of a compiled SELECT has an entry for each of its output names. A field with neither resolver nor binding reads
the entry that is named like the field, or else like it in snake case, whatever the field is called in the response.
So a field gets the value of its own column if it is output under one of these names, and else the value of another
column or null (`rows_read_back`, `aliased_field_not_read_back`).
-/

namespace RelationalGraphQL

open Naming (snakeCase)

namespace Execution

/-! ### Leaves -/

section

variable (schema : Schema)

mutual

/-- The value of a leaf as a response shows it: shaped as its scalar wants it, element by element, and null where that
fails. -/
def shown (typeName : String) : Json → Json
  | .null => .null
  | .arr items => .arr (shownItems typeName items)
  | .bool value => written (serializeLeaf schema typeName (.bool value))
  | .num value => written (serializeLeaf schema typeName (.num value))
  | .str value => written (serializeLeaf schema typeName (.str value))
  | .obj entries => written (serializeLeaf schema typeName (.obj entries))

def shownItems (typeName : String) : List Json → List Json
  | [] => []
  | item :: items => shown typeName item :: shownItems typeName items

end

/-- The named type of a field, empty where the field is not declared. -/
def leafType (typeName fieldName : String) : String :=
  ((schema.field? typeName fieldName).map fun field => field.type.namedType).getD ""

end

theorem namedType_itemType (type : TypeRef) : type.itemType.namedType = type.namedType := by
  induction type with
  | named name => rfl
  | list inner => rfl
  | nonNull inner ih => exact ih

mutual

theorem complete_leaf (schema : Schema) (position : Document.Position) (type : TypeRef) (path : Path)
    (session : Session) : ∀ value : Json,
      written (complete schema none position type path session value).result = shown schema type.namedType value ∧
        (complete schema none position type path session value).state = session
  | .null => ⟨rfl, rfl⟩
  | .arr items => by
    obtain ⟨hresult, hstate⟩ := completeItems_leaf schema position type.itemType path 0 session items
    rw [namedType_itemType] at hresult
    exact ⟨congrArg Json.arr hresult, hstate⟩
  | .bool _ | .num _ | .str _ | .obj _ => ⟨rfl, rfl⟩

theorem completeItems_leaf (schema : Schema) (position : Document.Position) (type : TypeRef) (path : Path) (place : Nat)
    (session : Session) : ∀ items : List Json,
      (completeItems schema none position type path place session items).result =
          shownItems schema type.namedType items ∧
        (completeItems schema none position type path place session items).state = session
  | [] => ⟨rfl, rfl⟩
  | item :: items => by
    obtain ⟨hitem, hstate⟩ := complete_leaf schema position type (path.withIndex place) session item
    obtain ⟨hitems, hstates⟩ := completeItems_leaf schema position type path (place + 1) session items
    rw [completeItems_cons, hitem, hstate]
    exact ⟨congrArg (shown schema type.namedType item :: ·) hitems, hstates⟩

end

mutual

theorem shown_self {schema : Schema} {typeName : String}
    (hplain : (schema.scalar? typeName).bind Schema.ScalarType.marshaler = none) : ∀ value : Json,
      shown schema typeName value = value
  | .null => rfl
  | .arr items => congrArg Json.arr (shownItems_self hplain items)
  | .bool _ | .num _ | .str _ | .obj _ => by simp only [shown, serializeLeaf, hplain, written]

theorem shownItems_self {schema : Schema} {typeName : String}
    (hplain : (schema.scalar? typeName).bind Schema.ScalarType.marshaler = none) : ∀ items : List Json,
      shownItems schema typeName items = items
  | [] => rfl
  | item :: items => by rw [shownItems, shown_self hplain item, shownItems_self hplain items]

end

/-! ### Fields read off their parent -/

/-- A field of a type that is read off its parent: it is declared and applies, and has neither resolver nor binding. -/
structure ReadByDefault (executor : Executor) (typeName : String) (field : SelectedField) : Prop where
  declared : (executor.schema.field? typeName field.name).isSome
  ordinary : field.name ≠ "__schema" ∧ field.name ≠ "__type"
  applies : applies executor.schema typeName field
  unresolved : executor.resolvers.lookup (typeName, field.name) = none
  unbound : executor.bindings.keys.lookup (typeName, field.name) = none
  uncomputed : executor.bindings.computed.lookup (typeName, field.name) = none

/-- What such a field reads: the entry named like it, or else like it in snake case. -/
def reading (row : List (String × Json)) (name : String) : Json :=
  ((row.lookup name).or (row.lookup (snakeCase name))).getD .null

/-- What a response shows for such a field. -/
def Executor.shows (executor : Executor) (typeName : String) (row : List (String × Json)) (field : SelectedField) :
    Json :=
  shown executor.schema (leafType executor.schema typeName field.name) (reading row field.name)

section

variable {executor : Executor} {typeName : String} {field : SelectedField} {row : List (String × Json)}

theorem ReadByDefault.resolve (hdefault : ReadByDefault executor typeName field) :
    executor.bindings.resolve typeName field.name (.obj row) = .ok (reading row field.name) := by
  unfold Bindings.resolve Bindings.entry? reading
  rw [hdefault.unbound, hdefault.uncomputed, Option.getD_none]
  dsimp only
  cases row.lookup field.name with
  | some value => rfl
  | none => cases row.lookup (snakeCase field.name) <;> rfl

variable (hmiddleware : executor.middleware = []) {extensions : List (String × Json)} {session : Session}

include hmiddleware

theorem ReadByDefault.host_resolve (hdefault : ReadByDefault executor typeName field) {call : FieldCall}
    (htype : call.parentType = typeName) (hfield : call.field = field) (hparent : call.parent = .obj row) :
    (executor.host extensions).resolve call session = (.ok (reading row field.name), session) := by
  have hprogram : executor.fieldProgram extensions call = .done (.ok (reading row field.name)) := by
    unfold Executor.fieldProgram
    dsimp only
    rw [hmiddleware, List.foldr_nil, htype, hfield, hparent, hdefault.unresolved, hdefault.resolve]
  dsimp only [Executor.host]
  rw [hprogram]
  rfl

variable {operationName : Option String} (hrunning : session.interruption? = none)

include hrunning

theorem ReadByDefault.executeOne_leaf (hdefault : ReadByDefault executor typeName field)
    (hleaf : field.selections = none) (path : Path) :
    let host := executor.host extensions
    let outcome := executeOne executor.schema host operationName field typeName (.obj row) path session
    written outcome.result = executor.shows typeName row field ∧ outcome.state = session := by
  intro host outcome
  obtain ⟨definition, hdefinition⟩ := Option.isSome_iff_exists.1 hdefault.declared
  have hattempt : attempt executor.schema host operationName field typeName (.obj row) path session =
      { resolution := .ok (reading row field.name), state := session, type := some definition.type } := by
    unfold attempt
    rw [show host.interruption? session = none from hrunning]
    dsimp only
    rw [if_neg hdefault.ordinary.1, if_neg hdefault.ordinary.2, hdefinition]
    dsimp only
    rw [hdefault.host_resolve hmiddleware rfl rfl rfl]
  have htype : leafType executor.schema typeName field.name = definition.type.namedType := by
    rw [leafType, hdefinition]
    rfl
  have houtcome : outcome = complete executor.schema none field.position definition.type path session
      (reading row field.name) := by
    rw [show outcome = _ from executeOne_eq field typeName (.obj row) path session, hattempt, hleaf]
    rfl
  rw [houtcome, Executor.shows, htype]
  exact complete_leaf executor.schema field.position definition.type path session (reading row field.name)

theorem executeFields_leaves {fields : List SelectedField}
    (hfields : ∀ field ∈ fields, field.selections = none ∧ ReadByDefault executor typeName field)
    (row : List (String × Json)) (path : Path) :
    (executeFields executor.schema (executor.host extensions) operationName fields typeName (.obj row) path
      session).result = fields.map fun field => (field.responseKey, executor.shows typeName row field) := by
  induction fields with
  | nil => rfl
  | cons field rest ih =>
    rw [List.forall_mem_cons] at hfields
    obtain ⟨⟨hleaf, hdefault⟩, hrest⟩ := hfields
    obtain ⟨hresult, hstate⟩ :=
      hdefault.executeOne_leaf hmiddleware hrunning hleaf (path.withKey field.responseKey)
    rw [executeFields_cons hdefault.applies, hresult, hstate, ih hrest, List.map_cons]

/-- A selection of leaves shows the reading of each under its key. -/
theorem executeSelections_leaves {set : SelectionSet} {declared : String} {row : List (String × Json)}
    (htype : runtimeType executor.schema declared (.obj row) = typeName)
    (hfields : ∀ field ∈ set.fields, field.selections = none ∧ ReadByDefault executor typeName field)
    (hdistinct : Selection.Distinct set) (htypename : set.typename → "__typename" ∉ set.keys) (path : Path) :
    ∃ entries, (executeSelections executor.schema (executor.host extensions) operationName set declared (.obj row) path
        session).result = .obj entries ∧
      ∀ field ∈ set.fields, entries.lookup field.responseKey = some (executor.shows typeName row field) := by
  obtain ⟨fields, typename⟩ := set
  obtain ⟨hkeys⟩ := hdistinct
  rw [executeSelections, htype]
  refine ⟨_, rfl, ?_⟩
  intro field hfield
  rw [executeFields_leaves hmiddleware hrunning hfields]
  have hmem := List.mem_map_of_mem (f := fun field => (field.responseKey, executor.shows typeName row field)) hfield
  have hlookup := Table.lookup_of_mem (by rw [List.map_map]; exact hkeys) hmem
  split
  · rename_i hasked
    have hkey : field.responseKey ≠ "__typename" :=
      fun heq => htypename hasked (heq ▸ List.mem_map_of_mem hfield)
    rw [Table.lookup_insert, if_neg hkey, hlookup]
  · exact hlookup

end

end Execution

/-! ### Rows -/

/-- A row as an object: the value of its column under each output name, and nothing else. -/
structure Sql.IsRow (columns : List Sql.Fragment) (value : String → Json) (row : List (String × Json)) : Prop where
  holds : ∀ fragment ∈ columns, ∀ name ∈ fragment.outputName, ∀ column ∈ fragment.columns,
    row.lookup name = some (value column.name)
  only : ∀ name, name ∉ Sql.outputNames columns → row.lookup name = none

namespace Mapping

open Execution (Executor ReadByDefault Session executeSelections executeSelections_leaves leafType reading runtimeType
  shown shown_self)
open Sql (Fragment outputNames)

theorem Draft.Walk.leaves {mapping : Mapping} {joined : Bool} {source : Source} {fields : List SelectedField}
    {draft draft' : Draft} (hwalk : Draft.Walk mapping joined source fields draft draft')
    (hleaves : ∀ field ∈ fields, isLeaf mapping source.typeName field) :
    draft'.columns = draft.columns ++ fields.map (leafFragment mapping joined source) := by
  induction hwalk with
  | nil => simp
  | skip hleaf _ _ _ =>
    rw [hleaves _ List.mem_cons_self] at hleaf
    cases hleaf
  | leaf _ _ ih =>
    rw [ih fun field hmem => hleaves field (List.mem_cons_of_mem _ hmem), Draft.withLeaf, List.append_assoc,
      List.map_cons, List.singleton_append]
  | single hrelation | lateral hrelation =>
    have hleaf := hleaves _ List.mem_cons_self
    rw [isLeaf_of_isSome hrelation] at hleaf
    cases hleaf

/-- The field whose output a field reads: it is named like the field or, where no output is, like it in snake case. -/
def ReadsFrom (mapping : Mapping) (typeName : String) (fields : List SelectedField) (field other : SelectedField) :
    Prop :=
  other ∈ fields ∧
    (rootName mapping typeName other = field.name ∨
      (∀ third ∈ fields, rootName mapping typeName third ≠ field.name) ∧
        rootName mapping typeName other = snakeCase field.name)

section

variable {mapping : Mapping} {source : Source} {fields : List SelectedField} {value : String → Json}
  {row : List (String × Json)}

theorem lookup_rootName (hrow : Sql.IsRow (fields.map (leafFragment mapping false source)) value row)
    {field : SelectedField} (hfield : field ∈ fields) :
    row.lookup (rootName mapping source.typeName field) =
      some (value (mapping.columnName source.typeName field.name)) := by
  refine hrow.holds _ (List.mem_map_of_mem hfield) _ (leafFragment_root mapping source field)
    (mapping.column source.typeName (some (.aliased source.aliasName)) field.name) ?_
  rw [leafFragment_columns]
  exact List.mem_singleton_self _

theorem lookup_eq_none (hrow : Sql.IsRow (fields.map (leafFragment mapping false source)) value row) {name : String}
    (hname : ∀ field ∈ fields, rootName mapping source.typeName field ≠ name) : row.lookup name = none := by
  apply hrow.only
  rw [outputNames_map (leafFragment_root mapping source), List.mem_map]
  rintro ⟨field, hfield, heq⟩
  exact hname field hfield heq

theorem reading_eq (hrow : Sql.IsRow (fields.map (leafFragment mapping false source)) value row)
    {field other : SelectedField} (hreads : ReadsFrom mapping source.typeName fields field other) :
    reading row field.name = value (mapping.columnName source.typeName other.name) := by
  obtain ⟨hother, hname | ⟨hnone, hname⟩⟩ := hreads
  · rw [reading, ← hname, lookup_rootName hrow hother]
    rfl
  · rw [reading, lookup_eq_none hrow hnone, ← hname, lookup_rootName hrow hother]
    rfl

theorem reading_eq_null (hrow : Sql.IsRow (fields.map (leafFragment mapping false source)) value row)
    {field : SelectedField} (hnone : ∀ other, ¬ReadsFrom mapping source.typeName fields field other) :
    reading row field.name = .null := by
  have hname : ∀ other ∈ fields, rootName mapping source.typeName other ≠ field.name :=
    fun other hother heq => hnone other ⟨hother, .inl heq⟩
  have hsnake : ∀ other ∈ fields, rootName mapping source.typeName other ≠ snakeCase field.name :=
    fun other hother heq => hnone other ⟨hother, .inr ⟨hname, heq⟩⟩
  rw [reading, lookup_eq_none hrow hname, lookup_eq_none hrow hsnake]
  rfl

end

/-- The response to leaf fields that are read off a row of their own SELECT: under each key stands the value of the
column whose output is named like the field or, where no output is, like it in snake case, and null where there is
neither. The value is shaped by the marshaler of its scalar, if that has one. In particular a field that is output under
its name, or under it in snake case where no other field is output under the name itself, gets the value of its own
column. -/
theorem rows_read_back {mapping : Mapping} {executor : Executor} (hmiddleware : executor.middleware = [])
    {parentType : String} {type : TypeRef} {field : SelectedField} {set : SelectionSet} {result : SelectResult}
    (hcompiled : compileSelect mapping parentType (some type) field = .ok result) (hset : field.selections = some set)
    (hdistinct : Selection.Distinct set) {value : String → Json} {row : List (String × Json)}
    (hrow : Sql.IsRow result.statement.columns value row) {typeName : String}
    (htype : runtimeType executor.schema type.namedType (.obj row) = typeName)
    (hleaves : ∀ child ∈ set.fields, child.selections = none ∧ mapping.relation? type.namedType child.name = none ∧
      ReadByDefault executor typeName child)
    (htypename : set.typename → "__typename" ∉ set.keys) (extensions : List (String × Json))
    (operationName : Option String) (path : Path) {session : Session} (hrunning : session.interruption? = none) :
    ∃ entries, (executeSelections executor.schema (executor.host extensions) operationName set type.namedType (.obj row)
        path session).result = .obj entries ∧
      ∀ child ∈ set.fields,
        let leaf := leafType executor.schema typeName child.name
        (∀ other, ReadsFrom mapping type.namedType set.fields child other → entries.lookup child.responseKey =
          some (shown executor.schema leaf (value (mapping.columnName type.namedType other.name)))) ∧
        ((∀ other, ¬ReadsFrom mapping type.namedType set.fields child other) →
          entries.lookup child.responseKey = some .null) ∧
        ((executor.schema.scalar? leaf).bind Schema.ScalarType.marshaler = none →
          ∀ value, shown executor.schema leaf value = value) := by
  -- of leaves alone, the columns are those of the fields, in order
  have hcolumns :
      result.statement.columns = set.fields.map (leafFragment mapping false (rootSource type.namedType)) := by
    obtain ⟨typeName, draft, choice, hcompiled⟩ := compileSelect_eq_ok.1 hcompiled
    obtain rfl : type.namedType = typeName := Option.some.inj hcompiled.type
    have hwalk := hcompiled.walk
    rw [SelectedField.children, hset] at hwalk
    rw [hcompiled.statement]
    refine hwalk.leaves ?_
    intro child hchild
    obtain ⟨hnone, hrelation, -⟩ := hleaves child hchild
    rw [isLeaf, SelectedField.hasSelections, hnone]
    exact Option.isNone_iff_eq_none.2 hrelation
  rw [hcolumns] at hrow
  obtain ⟨entries, hentries, hlookup⟩ := executeSelections_leaves hmiddleware hrunning htype
    (fun child hchild => ⟨(hleaves child hchild).1, (hleaves child hchild).2.2⟩) hdistinct htypename path
  refine ⟨entries, hentries, fun child hchild => ⟨?_, ?_, shown_self⟩⟩
  · intro other hreads
    rw [hlookup child hchild, Executor.shows, reading_eq hrow hreads]
    rfl
  · intro hnone
    rw [hlookup child hchild, Executor.shows, reading_eq_null hrow hnone]
    rfl

def textField (name : String) (column : Option String) : String × Schema.Field :=
  (name, { name, type := .named "String", column })

/-- Members whose full name is in a column of another name. -/
def membersSchema : Schema where
  objects :=
    [("User", { name := "User", fields := [textField "createdAt" none, textField "name" none,
      textField "fullName" (some "display_name")] })]

/-- A field under its own name, one under an alias, and one from a column of another name. -/
def memberFields : List SelectedField :=
  [leafField "createdAt", { leafField "name" with aliasName := some "n" }, leafField "fullName"]

/-- A row in which the value of each column is the name of the column. -/
def memberRow : List (String × Json) :=
  [("created_at", .str "created_at"), ("n", .str "name"), ("display_name", .str "display_name")]

def ofMembers : Mapping := { schema := membersSchema, dialect := .postgres, derivesRelations := true }

theorem memberFields_distinct : Selection.Distinct ⟨memberFields, false⟩ :=
  .intro (by decide) (by simp [memberFields, leafField])

theorem memberFields_default : ∀ child ∈ memberFields, child.selections = none ∧
    ofMembers.relation? "User" child.name = none ∧ ReadByDefault { schema := membersSchema } "User" child := by
  simp only [memberFields, List.forall_mem_cons]
  refine ⟨⟨rfl, rfl, ⟨rfl, ?_, rfl, rfl, rfl, rfl⟩⟩, ⟨rfl, rfl, ⟨rfl, ?_, rfl, rfl, rfl, rfl⟩⟩,
    ⟨rfl, rfl, ⟨rfl, ?_, rfl, rfl, rfl, rfl⟩⟩, by simp⟩ <;> decide

def memberQuery : SelectedField := relationOf "users" [] memberFields

theorem memberQuery_row : ∃ result, compileSelect ofMembers "Query" (some (.named "User")) memberQuery = .ok result ∧
    Sql.IsRow result.statement.columns Json.str memberRow := by
  refine ⟨_, rfl, ?_⟩
  change Sql.IsRow [.column ⟨some (.aliased "u"), "created_at"⟩, .output ⟨some (.aliased "u"), "name"⟩ "n",
    .column ⟨some (.aliased "u"), "display_name"⟩] Json.str memberRow
  constructor
  · simp [Fragment.outputName, Fragment.columns, memberRow, Table.lookup_cons]
  · intro name hname
    simp only [outputNames, Fragment.outputName, List.filterMap_cons, List.filterMap_nil, List.mem_cons,
      List.not_mem_nil, or_false, not_or] at hname
    simp [memberRow, Table.lookup_cons, hname]

theorem rows_read_back_members : ∃ result entries,
    compileSelect ofMembers "Query" (some (.named "User")) memberQuery = .ok result ∧
      Sql.IsRow result.statement.columns Json.str memberRow ∧
      (executeSelections membersSchema (Executor.host { schema := membersSchema } []) none ⟨memberFields, false⟩ "User"
        (.obj memberRow) .root {}).result = .obj entries ∧
      entries.lookup "createdAt" = some (.str "created_at") ∧ entries.lookup "n" = some .null := by
  obtain ⟨result, hcompiled, hrow⟩ := memberQuery_row
  obtain ⟨entries, hentries, hlookup⟩ :=
    rows_read_back (show Executor.middleware { schema := membersSchema } = [] from rfl) hcompiled rfl
      memberFields_distinct hrow rfl memberFields_default (by decide) [] none .root
      (show Session.interruption? {} = none from rfl)
  refine ⟨result, entries, hcompiled, hrow, hentries, ?_, ?_⟩
  · exact (hlookup (leafField "createdAt") List.mem_cons_self).1 _ ⟨List.mem_cons_self, .inr ⟨by decide, rfl⟩⟩
  · have hnone : ∀ other ∈ memberFields, rootName ofMembers "User" other ≠ "name" := by decide
    refine (hlookup { leafField "name" with aliasName := some "n" } (by simp [memberFields])).2.1 ?_
    rintro other ⟨hother, hname | ⟨-, hname⟩⟩
    · exact hnone other hother hname
    · exact hnone other hother hname

/-- What is read need not be the value of the field's own column: not under an alias, and not from a column of another
name. -/
theorem aliased_field_not_read_back :
    ¬∀ (schema : Schema) (type : TypeRef) (field : SelectedField) (set : SelectionSet) (result : SelectResult)
      (value : String → Json) (row : List (String × Json)) (entries : List (String × Json)),
      let mapping : Mapping := { schema, dialect := .postgres, derivesRelations := true }
      compileSelect mapping "Query" (some type) field = .ok result → field.selections = some set →
      Selection.Distinct set →
      (∀ child ∈ set.fields, child.selections = none ∧ mapping.relation? type.namedType child.name = none ∧
        ReadByDefault { schema } type.namedType child) →
      Sql.IsRow result.statement.columns value row →
      (executeSelections schema (Executor.host { schema } []) none set type.namedType (.obj row) .root {}).result =
        .obj entries →
      ∀ child ∈ set.fields, entries.lookup child.responseKey =
        some (shown schema (leafType schema type.namedType child.name)
          (value (mapping.columnName type.namedType child.name))) := by
  intro hread
  obtain ⟨result, hcompiled, hrow⟩ := memberQuery_row
  have hname := hread membersSchema (.named "User") memberQuery ⟨memberFields, false⟩ result Json.str memberRow _
    hcompiled rfl memberFields_distinct memberFields_default hrow rfl { leafField "name" with aliasName := some "n" }
    (by simp [memberFields])
  cases hname

end Mapping

end RelationalGraphQL
