import RelationalGraphQL.Proofs.Arguments.Acceptance
import RelationalGraphQL.Proofs.Mapping.Alias
import RelationalGraphQL.Proofs.Mapping.Walk
import RelationalGraphQL.Proofs.Sql.Evaluation

/-!
# The parents that a SELECT gives

Beside each row of its table, a SELECT gives the rows of the relations that are selected. Left joins neither lose a
parent nor bring in another, but they repeat it for every child, and a page is cut from the repeated rows. So
relations keep the set of parents where no page is asked for or no parent is repeated, and
`limited_parents_depend_on_relations` shows two parents of which a page of two rows loses one.
-/

namespace RelationalGraphQL.Mapping

open Arguments (RowChoice choiceTruth orderArgument_columns readRowChoice_lowered readRowChoice_run_eq_ok
  readRowChoice_steady)
open Sql (Column Database Engine Fragment Join KeepRoot Row page repeated)

/-! ### Joins of a draft -/

theorem usual_joinKind (parentType : String) (field : Schema.Field) (kind : RelationKind) (table : String) :
    (Relation.usual parentType field kind table).joinKind = .left := by
  cases kind <;> rfl

/-- Where the relations that are mapped are left joins, all are: those by convention always are. -/
theorem relation?_joinKind {mapping : Mapping} (hleft : ∀ entry ∈ mapping.relations, entry.2.joinKind = .left)
    {typeName fieldName : String} {relation : Relation}
    (hrelation : mapping.relation? typeName fieldName = some relation) : relation.joinKind = .left := by
  unfold relation? at hrelation
  split at hrelation
  · rename_i hlookup
    cases hrelation
    obtain ⟨front, back, hentries, -⟩ := List.lookup_eq_some_iff.1 hlookup
    exact hleft (fieldKey typeName fieldName, relation) (by simp [hentries])
  · split at hrelation
    · simp only [derivedRelation?, usualJoin?, Option.bind_eq_bind, Option.bind_eq_some_iff] at hrelation
      obtain ⟨object, -, field, -, kind, -, husual⟩ := hrelation
      cases husual
      exact usual_joinKind _ _ _ _
    · cases hrelation

section

variable {mapping : Mapping} {draft draft' : Draft} {root : String}

theorem keepRoot_append {joins : List (Join Fragment)} {join : Join Fragment} (hjoins : KeepRoot (.aliased root) joins)
    (hkind : join.kind.isLeft) (halias : join.aliasName ≠ root) : KeepRoot (.aliased root) (joins ++ [join]) := by
  intro other hother
  rcases List.mem_append.1 hother with hother | hother
  · exact hjoins other hother
  · rw [List.mem_singleton.1 hother]
    refine ⟨hkind, fun heq => halias ?_⟩
    injection heq

theorem Draft.Step.keepRoot (hleft : ∀ entry ∈ mapping.relations, entry.2.joinKind = .left)
    (hstep : Step mapping draft draft') (hroot : root ∈ draft.aliases) (hjoins : KeepRoot (.aliased root) draft.joins) :
    KeepRoot (.aliased root) draft'.joins := by
  have hfresh : ∀ name, freshAlias draft.aliases name ≠ root := by
    intro name heq
    exact freshAlias_notMem draft.aliases name (heq ▸ hroot)
  cases hstep with
  | leaf => exact hjoins
  | single parent field relation _ hrelation _ =>
    apply keepRoot_append hjoins _ (hfresh field.responseKey)
    change Sql.JoinKind.isLeft relation.joinKind
    rw [relation?_joinKind hleft hrelation]
    exact ⟨rfl, rfl⟩
  | lateral parent field relation target children choice parameters _ hrelation _ htarget _ =>
    apply keepRoot_append hjoins
    · change Sql.JoinKind.isLeft (if relation.joinKind = .inner then _ else _)
      rw [relation?_joinKind hleft hrelation]
      exact ⟨rfl, rfl⟩
    · change target.aliasName ≠ root
      rw [htarget]
      exact hfresh field.responseKey

theorem Draft.Steps.keepRoot (hleft : ∀ entry ∈ mapping.relations, entry.2.joinKind = .left)
    (hsteps : Steps mapping draft draft') (hroot : root ∈ draft.aliases)
    (hjoins : KeepRoot (.aliased root) draft.joins) : KeepRoot (.aliased root) draft'.joins := by
  induction hsteps with
  | refl => exact hjoins
  | tail hbefore hstep ih => exact hstep.keepRoot hleft (Steps.aliases_subset hbefore hroot) ih

end

/-! ### A selection without its relations -/

/-- A field whose selection keeps only what is not a relation of its type. -/
def withoutRelations (mapping : Mapping) (typeName : String) (field : SelectedField) : SelectedField :=
  { field with
    selections := field.selections.map fun set =>
      { set with fields := set.fields.filter fun child => (mapping.relation? typeName child.name).isNone } }

theorem addField_of_isNone {mapping : Mapping} {source : Source} {field : SelectedField}
    (hnone : (mapping.relation? source.typeName field.name).isNone) (draft : Draft) :
    ∃ columns, (addField mapping false source field).run draft =
      .ok ((), { draft with columns := draft.columns ++ columns }) := by
  obtain ⟨name, aliasName, arguments, directives, typeCondition, position, selections⟩ := field
  unfold addField
  dsimp only at hnone ⊢
  rw [Option.isNone_iff_eq_none.1 hnone]
  dsimp only
  split
  · exact ⟨[], by simp; rfl⟩
  · exact ⟨[_], addColumn_run.2 rfl⟩

theorem addFields_withoutRelations (mapping : Mapping) (source : Source) (fields : List SelectedField) (draft : Draft) :
    ∃ columns, (addFields mapping false source
      (fields.filter fun child => (mapping.relation? source.typeName child.name).isNone)).run draft =
        .ok ((), { draft with columns := draft.columns ++ columns }) := by
  induction fields generalizing draft with
  | nil => exact ⟨[], by simp [addFields]; rfl⟩
  | cons field fields ih =>
    by_cases hnone : (mapping.relation? source.typeName field.name).isNone
    · obtain ⟨columns, hfield⟩ := addField_of_isNone hnone draft
      obtain ⟨rest, hfields⟩ := ih { draft with columns := draft.columns ++ columns }
      refine ⟨columns ++ rest, ?_⟩
      rw [List.filter_cons, if_pos hnone, addFields, Arguments.run_bind_eq_ok]
      refine ⟨(), _, hfield, ?_⟩
      rw [hfields, List.append_assoc]
    · rw [List.filter_cons, if_neg hnone]
      exact ih draft

section

variable {mapping : Mapping} {parentType : String} {returnType : Option TypeRef} {field : SelectedField}
  {result : SelectResult} {typeName : String} {draft : Draft} {choice : RowChoice Column}

/-- Without its relations a field still compiles, and asks for the same order and page. -/
theorem CompiledSelect.exists_withoutRelations
    (hcompiled : CompiledSelect mapping parentType returnType field result typeName draft choice) :
    ∃ bare columns choice', CompiledSelect mapping parentType returnType (withoutRelations mapping typeName field) bare
        typeName { rootDraft typeName with columns } choice' ∧
      choice'.order = choice.order ∧ choice'.limit = choice.limit ∧ choice'.offset = choice.offset := by
  obtain ⟨choice', parameters, hread, horder, hlimit, hoffset⟩ := readRowChoice_steady hcompiled.read []
  have hwalked : ∃ columns, ((withoutRelations mapping typeName field).selections.elim (pure ())
      (addSelections mapping false (rootSource typeName))).run (rootDraft typeName) =
        .ok ((), { rootDraft typeName with columns }) := by
    unfold withoutRelations
    cases field.selections with
    | none => exact ⟨[], rfl⟩
    | some set => exact addFields_withoutRelations mapping (rootSource typeName) set.fields (rootDraft typeName)
  obtain ⟨columns, hwalked⟩ := hwalked
  have hpages : canPage mapping choice' := by
    unfold canPage
    rw [hlimit, hoffset]
    exact hcompiled.pages
  let statement := selectStatement mapping typeName { rootDraft typeName with columns } choice'
  let written := statement.map (Fragment.text mapping.dialect)
  exact ⟨⟨statement, written.text, parameters, written.findings⟩, columns, choice',
    ⟨hcompiled.type, hcompiled.isRow, hcompiled.builds, hwalked, hread, hpages, rfl, rfl, rfl⟩, horder, hlimit, hoffset⟩

/-! ### Rows of a compiled statement -/

abbrev rootQualifier (typeName : String) : Sql.Qualifier := .aliased (rootSource typeName).aliasName

def chooses (mapping : Mapping) (typeName : String) (engine : Engine) (arguments : List (String × Json)) (row : Row) :
    Bool :=
  choiceTruth (fun name => engine.outcome (row (mapping.columnName typeName name))) arguments = .true

theorem rootColumn_value (name : String) (scope : Sql.Scope) :
    (rootColumn mapping typeName name).value scope =
      scope.row (rootQualifier typeName) (mapping.columnName typeName name) := rfl

theorem CompiledSelect.satisfies_eq
    (hcompiled : CompiledSelect mapping parentType returnType field result typeName draft choice) (engine : Engine)
    (scope : Sql.Scope) :
    Sql.satisfies engine result.parameters result.statement.conditions scope =
      chooses mapping typeName engine (argumentsWithDefaults mapping parentType field)
        (scope.row (rootQualifier typeName)) := by
  have hholds := (readRowChoice_lowered hcompiled.read).flat.holds (Column.value scope) engine.outcome
    result.parameters List.prefix_rfl
  rw [hcompiled.statement]
  exact Sql.satisfies_conjunctions hholds

theorem CompiledSelect.precedes_iff
    (hcompiled : CompiledSelect mapping parentType returnType field result typeName draft choice) (engine : Engine)
    (left right : Sql.Scope) :
    Sql.precedes engine (orderFragments choice.order) left right ↔
      Sql.precedesAt engine (rootQualifier typeName) (orderFragments choice.order)
        (left.row (rootQualifier typeName)) (right.row (rootQualifier typeName)) := by
  obtain ⟨_, _, _, _, _, -, -, -, -, horder, -⟩ := readRowChoice_run_eq_ok.1 hcompiled.read
  have hcolumns : ∀ item ∈ orderFragments choice.order, ∀ scope : Sql.Scope, item.column.value scope =
      item.column.value [(rootQualifier typeName, scope.row (rootQualifier typeName))] := by
    intro fragment hfragment scope
    obtain ⟨item, hitem, rfl⟩ := List.mem_map.1 hfragment
    obtain ⟨name, hname⟩ := orderArgument_columns horder item hitem
    change item.column.value _ = item.column.value _
    rw [← hname, rootColumn_value, rootColumn_value, Sql.Scope.row_singleton]
  unfold Sql.precedesAt Sql.precedes
  rw [Sql.compareScopes_congr fun item hitem => ⟨hcolumns item hitem left, hcolumns item hitem right⟩]

/-- The rows of the table that the arguments choose, in order, each as often as the joins extend it. -/
theorem CompiledSelect.orderedRoots_eq
    (hcompiled : CompiledSelect mapping parentType returnType field result typeName draft choice)
    (hjoins : KeepRoot (rootQualifier typeName) draft.joins) (engine : Engine) (database : Database) :
    result.statement.orderedRoots engine database result.parameters =
      repeated (result.statement.multiplicity engine database result.parameters)
        (((database (mapping.tableName typeName)).filter
          (chooses mapping typeName engine (argumentsWithDefaults mapping parentType field))).insertionSort
            (Sql.precedesAt engine (rootQualifier typeName) (orderFragments choice.order))) := by
  have hsatisfies := hcompiled.satisfies_eq engine
  rw [hcompiled.statement] at hsatisfies ⊢
  exact Sql.Select.orderedRoots_eq hjoins hsatisfies (hcompiled.precedes_iff engine)

/-- Beside its relations, a field gives the parents that it gives without them, each as often as the joins extend it. -/
theorem CompiledSelect.orderedRoots_repeated {bare : SelectResult} {columns : List Fragment}
    {choice' : RowChoice Column}
    (hcompiled : CompiledSelect mapping parentType returnType field result typeName draft choice)
    (hbare : CompiledSelect mapping parentType returnType (withoutRelations mapping typeName field) bare typeName
      { rootDraft typeName with columns } choice')
    (hjoins : KeepRoot (rootQualifier typeName) draft.joins) (horder : choice'.order = choice.order)
    (engine : Engine) (database : Database) :
    result.statement.orderedRoots engine database result.parameters =
      repeated (result.statement.multiplicity engine database result.parameters)
        (bare.statement.orderedRoots engine database bare.parameters) := by
  have hnone : KeepRoot (rootQualifier typeName) [] := by simp [KeepRoot]
  have hsingle : ∀ row, bare.statement.multiplicity engine database bare.parameters row = 1 := by
    intro row
    rw [hbare.statement]
    rfl
  rw [hcompiled.orderedRoots_eq hjoins, hbare.orderedRoots_eq hnone, horder,
    Sql.repeated_eq_self fun row _ => hsingle row]
  rfl

end

/-- Where relations are left joins, selecting them neither loses a parent nor adds one, but repeats each for its
children, and the page is cut from the repeated rows. So the parents are the same if no page is asked for or none is
repeated, and a page that starts at the first row has no other ones. -/
theorem relations_repeat_parents {mapping : Mapping} {parentType : String} {type : TypeRef} {field : SelectedField}
    {result : SelectResult} (hleft : ∀ entry ∈ mapping.relations, entry.2.joinKind = .left)
    (hcompiled : compileSelect mapping parentType (some type) field = .ok result) :
    ∃ bare, compileSelect mapping parentType (some type) (withoutRelations mapping type.namedType field) = .ok bare ∧
      ∀ (engine : Engine) (database : Database),
        let parents := bare.statement.orderedRoots engine database bare.parameters
        let count := result.statement.multiplicity engine database result.parameters
        let fetched := result.statement.rootRows engine database result.parameters
        let alone := bare.statement.rootRows engine database bare.parameters
        (∀ row, 0 < count row) ∧
        alone = page result.statement.limit result.statement.offset parents ∧
        fetched = page result.statement.limit result.statement.offset (repeated count parents) ∧
        (result.statement.limit = none → result.statement.offset.getD 0 = 0 → ∀ row, row ∈ fetched ↔ row ∈ alone) ∧
        ((∀ row ∈ parents, count row = 1) → fetched = alone) ∧
        (result.statement.offset.getD 0 = 0 → ∀ row ∈ fetched, row ∈ alone) := by
  obtain ⟨typeName, draft, choice, hcompiled⟩ := compileSelect_eq_ok.1 hcompiled
  obtain rfl : type.namedType = typeName := Option.some.inj hcompiled.type
  obtain ⟨bare, columns, choice', hbare, horder, hlimit, hoffset⟩ := hcompiled.exists_withoutRelations
  have hjoins : KeepRoot (rootQualifier type.namedType) draft.joins :=
    hcompiled.steps.keepRoot hleft (by simp [rootDraft]) (by simp [rootDraft, KeepRoot])
  refine ⟨bare, compileSelect_eq_ok.2 ⟨_, _, _, hbare⟩, ?_⟩
  intro engine database parents count fetched alone
  have hlimits : bare.statement.limit = result.statement.limit := by
    rw [hbare.statement, hcompiled.statement]
    exact hlimit
  have hoffsets : bare.statement.offset = result.statement.offset := by
    rw [hbare.statement, hcompiled.statement]
    exact hoffset
  have hcount : ∀ row, 0 < count row := by
    intro row
    apply Sql.Select.multiplicity_pos
    rw [hcompiled.statement]
    exact hjoins
  have halone : alone = page result.statement.limit result.statement.offset parents := by
    rw [← hlimits, ← hoffsets]
    exact Sql.Select.rootRows_eq _
  have hfetched : fetched = page result.statement.limit result.statement.offset (repeated count parents) := by
    rw [← hcompiled.orderedRoots_repeated hbare hjoins horder]
    exact Sql.Select.rootRows_eq _
  refine ⟨hcount, halone, hfetched, ?_, ?_, ?_⟩
  · intro hnone hstart row
    rw [hfetched, halone, hnone, Sql.page_eq_self hstart, Sql.page_eq_self hstart]
    exact Sql.mem_repeated hcount
  · intro hsingle
    rw [hfetched, halone, Sql.repeated_eq_self hsingle]
  · intro hstart row hrow
    rw [hfetched] at hrow
    rw [halone]
    exact Sql.mem_page_of_mem_page_repeated hcount hstart hrow

/-! ### Two users, one of them with two posts -/

/-- An engine that tells integers apart and orders nothing. -/
def plainEngine : Engine where
  outcome _ _ := .unknown
  equal
    | .integer m, .integer n => if m = n then .true else .false
    | _, _ => .unknown
  compare _ _ _ _ := .eq
  compare_self _ _ _ := rfl

def userRow (id : Int) : Row := fun _ => .integer id

def postRow (id userId : Int) : Row := fun column => if column = "user_id" then .integer userId else .integer id

def twoUsers : Database
  | "users" => [userRow 1, userRow 2]
  | "posts" => [postRow 10 1, postRow 11 1]
  | _ => []

/-- The first two users, with their posts. -/
def firstUsers : SelectedField :=
  ⟨"users", none, [("limit", .num (.int 2))], [], none, {},
    some ⟨[leafField "id", ⟨"posts", none, [], [], none, {}, some ⟨[leafField "id"], false⟩⟩], false⟩⟩

theorem relations_repeat_parents_twoUsers :
    (∀ entry ∈ userPosts.relations, entry.2.joinKind = .left) ∧
      ∃ result, compileSelect userPosts "Query" (some (.named "User")) firstUsers = .ok result ∧
        result.statement.multiplicity plainEngine twoUsers result.parameters (userRow 1) = 2 ∧
        ∃ bare, compileSelect userPosts "Query" (some (.named "User")) (withoutRelations userPosts "User" firstUsers) =
            .ok bare ∧
          result.statement.rootRows plainEngine twoUsers result.parameters = page (some 2) none
            (repeated (result.statement.multiplicity plainEngine twoUsers result.parameters)
              (bare.statement.orderedRoots plainEngine twoUsers bare.parameters)) := by
  have hleft : ∀ entry ∈ userPosts.relations, entry.2.joinKind = .left := by decide
  refine ⟨hleft, _, rfl, rfl, ?_⟩
  obtain ⟨bare, hbare, hrows⟩ := relations_repeat_parents hleft
    (show compileSelect userPosts "Query" (some (.named "User")) firstUsers = .ok _ from rfl)
  exact ⟨bare, hbare, (hrows plainEngine twoUsers).2.2.1⟩

/-- A page is cut from the joined rows: the two posts of the first user fill it, and the second user is lost. -/
theorem limited_parents_depend_on_relations :
    ¬ ∀ (mapping : Mapping) (parentType : String) (type : TypeRef) (field : SelectedField) (result bare : SelectResult),
      (∀ entry ∈ mapping.relations, entry.2.joinKind = .left) →
      compileSelect mapping parentType (some type) field = .ok result →
      compileSelect mapping parentType (some type) (withoutRelations mapping type.namedType field) = .ok bare →
      ∀ (engine : Engine) (database : Database) (row : Row),
        row ∈ result.statement.rootRows engine database result.parameters ↔
          row ∈ bare.statement.rootRows engine database bare.parameters := by
  intro hsame
  have hsecond := hsame userPosts "Query" (.named "User") firstUsers _ _ (by decide) rfl rfl plainEngine twoUsers
    (userRow 2)
  have hfetched : userRow 2 ∈ [userRow 1, userRow 1] := hsecond.2 (.tail _ (.head _))
  have heq : userRow 2 = userRow 1 := by simpa using hfetched
  have hid := congrFun heq "id"
  cases hid

end RelationalGraphQL.Mapping
