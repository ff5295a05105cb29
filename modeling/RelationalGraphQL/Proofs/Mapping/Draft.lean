import RelationalGraphQL.Mapping.Select
import RelationalGraphQL.Proofs.Arguments.Meaning
import Mathlib.Logic.Relation

/-!
# The draft of a SELECT

A selection is walked depth first, and each of its fields changes the draft in one of three ways: a leaf adds a column,
a to-one relation a join, a to-many relation the columns and the join of a subquery, whose arguments are bound after the
parameters of the draft. `Draft.Step` says this once; what holds of every draft follows from what one step keeps.
-/

namespace RelationalGraphQL.Mapping

open Arguments (RowChoice except_bind_eq_ok readRowChoice run_bind_eq_ok run_pure_eq_ok)
open Sql (Column Fragment Join Parameters Subquery)

variable {draft draft' : Draft} {mapping : Mapping} {field : SelectedField} {parentType : String}
  {choice : RowChoice Column} {α : Type} {joined : Bool} {source : Source} {returnType : Option TypeRef}
  {result : SelectResult}

/-! ### Runs of a draft -/

theorem addColumn_run {column : Fragment} :
    (addColumn column).run draft = .ok ((), draft') ↔ draft' = { draft with columns := draft.columns ++ [column] } := by
  constructor
  · intro hrun
    cases hrun
    rfl
  · rintro rfl
    rfl

theorem addJoin_run {join : Join Fragment} :
    (addJoin join).run draft = .ok ((), draft') ↔ draft' = { draft with joins := draft.joins ++ [join] } := by
  constructor
  · intro hrun
    cases hrun
    rfl
  · rintro rfl
    rfl

theorem takeAlias_run {name aliasName : String} :
    (takeAlias name).run draft = .ok (aliasName, draft') ↔
      aliasName = freshAlias draft.aliases name ∧ draft' = { draft with aliases := aliasName :: draft.aliases } := by
  constructor
  · intro hrun
    cases hrun
    exact ⟨rfl, rfl⟩
  · rintro ⟨rfl, rfl⟩
    rfl

theorem forM_addColumn_run {output : α → Fragment} {leaves : List α} :
    (leaves.forM fun leaf => addColumn (output leaf)).run draft = .ok ((), draft') ↔
      draft' = { draft with columns := draft.columns ++ leaves.map output } := by
  induction leaves generalizing draft with
  | nil =>
    rw [List.forM_eq_forM, List.forM_nil, run_pure_eq_ok, List.map_nil, List.append_nil]
    simp only [Prod.mk.injEq, true_and]
    exact eq_comm
  | cons leaf leaves ih =>
    rw [List.forM_eq_forM, List.forM_cons, run_bind_eq_ok]
    constructor
    · rintro ⟨_, middle, hleaf, hleaves⟩
      rw [addColumn_run.1 hleaf] at hleaves
      simpa using ih.1 hleaves
    · rintro rfl
      exact ⟨(), _, addColumn_run.2 rfl, ih.2 (by simp)⟩

theorem lowering_run {action : Arguments.Lowering α} {result : α} :
    (lowering action).run draft = .ok (result, draft') ↔
      ∃ parameters, action.run draft.parameters = .ok (result, parameters) ∧ draft' = { draft with parameters } := by
  rw [StateT.run, lowering]
  cases action.run draft.parameters with
  | error error => simp
  | ok pair =>
    obtain ⟨found, parameters⟩ := pair
    constructor
    · intro hrun
      cases hrun
      exact ⟨parameters, rfl, rfl⟩
    · rintro ⟨_, heq, rfl⟩
      cases heq
      rfl

def canPage (mapping : Mapping) (choice : RowChoice Column) : Prop :=
  choice.limit.isSome || choice.offset.isSome → mapping.dialect.supports .limitOffset

theorem rowChoice_run {column : String → Column} :
    (rowChoice mapping parentType field column).run draft = .ok (choice, draft') ↔
      ∃ parameters,
        (readRowChoice (argumentsWithDefaults mapping parentType field) column).run draft.parameters =
          .ok (choice, parameters) ∧
        canPage mapping choice ∧ draft' = { draft with parameters } := by
  unfold rowChoice canPage
  simp only [run_bind_eq_ok, lowering_run]
  constructor
  · rintro ⟨found, middle, ⟨parameters, hread, rfl⟩, hrun⟩
    split at hrun
    · simp only [run_bind_eq_ok] at hrun
      obtain ⟨_, _, hthrow, -⟩ := hrun
      cases hthrow
    · rename_i hpage
      cases hrun
      exact ⟨parameters, hread, by simpa using hpage, rfl⟩
  · rintro ⟨parameters, hread, hpage, rfl⟩
    refine ⟨choice, _, ⟨parameters, hread, rfl⟩, ?_⟩
    rw [if_neg (by simpa using hpage)]
    rfl

/-! ### Steps -/

def lateralOutputs (mapping : Mapping) (target : Source) (children : List SelectedField) : List Fragment :=
  (lateralFields mapping target.typeName children).map fun leaf =>
    .output { qualifier := some (.aliased target.aliasName), name := mapping.columnName target.typeName leaf.name }
      (target.aliasName ++ "_" ++ leaf.responseKey)

def lateralJoined (mapping : Mapping) (parent : Source) (relation : Relation) (target : Source)
    (children : List SelectedField) (choice : RowChoice Column) : Join Fragment :=
  let (qualifier, source, tie) := correlation parent relation
  let columns := (lateralFields mapping target.typeName children).map fun leaf =>
    mapping.column target.typeName qualifier leaf.name
  { kind := if relation.joinKind = .inner then .lateral else .leftLateral
    table := relation.table
    aliasName := target.aliasName
    on := if relation.joinKind = .inner then none else some .always
    subquery := some
      { columns := (distinctColumns columns).map .column
        source
        conditions := tie :: choice.conditions.map .conjunction
        order := orderFragments choice.order
        limit := choice.limit
        offset := choice.offset } }

theorem lateralJoin_run {parent : Source} {relation : Relation} {target : Source} {children : List SelectedField}
    (hrun : (lateralJoin mapping parent field relation target children).run draft = .ok ((), draft')) :
    ∃ choice parameters,
      (readRowChoice (argumentsWithDefaults mapping parent.typeName field)
        (mapping.column target.typeName (correlation parent relation).1)).run draft.parameters =
          .ok (choice, parameters) ∧
      draft' = { draft with
        columns := draft.columns ++ lateralOutputs mapping target children
        joins := draft.joins ++ [lateralJoined mapping parent relation target children choice]
        parameters } := by
  simp only [lateralJoin, run_bind_eq_ok, rowChoice_run, addJoin_run] at hrun
  obtain ⟨⟨⟩, _, hleaves, choice, _, ⟨parameters, hread, -, rfl⟩, rfl⟩ := hrun
  obtain rfl := forM_addColumn_run.1 hleaves
  exact ⟨choice, parameters, hread, by simp [lateralOutputs, lateralJoined]⟩

/-- What one field does to the draft. The alias of its table has been given out. -/
inductive Draft.Step (mapping : Mapping) (draft : Draft) : Draft → Prop where
  | leaf (joined : Bool) (source : Source) (field : SelectedField) (hsource : source.aliasName ∈ draft.aliases) :
      Step mapping draft { draft with
        columns := draft.columns ++ [leafOutput joined source
          (mapping.column source.typeName (some (.aliased source.aliasName)) field.name) field] }
  | single (parent : Source) (field : SelectedField) (relation : Relation) (hparent : parent.aliasName ∈ draft.aliases)
      (hrelation : mapping.relation? parent.typeName field.name = some relation) (hsingle : relation.isLateral = false) :
      Step mapping draft { draft with
        aliases := freshAlias draft.aliases field.responseKey :: draft.aliases
        joins := draft.joins ++ [singleJoin parent relation (freshAlias draft.aliases field.responseKey)] }
  | lateral (parent : Source) (field : SelectedField) (relation : Relation) (target : Source)
      (children : List SelectedField) (choice : RowChoice Column) (parameters : Parameters)
      (hparent : parent.aliasName ∈ draft.aliases)
      (hrelation : mapping.relation? parent.typeName field.name = some relation) (hlateral : relation.isLateral)
      (htarget : target.aliasName = freshAlias draft.aliases field.responseKey)
      (hread : (readRowChoice (argumentsWithDefaults mapping parent.typeName field)
        (mapping.column target.typeName (correlation parent relation).1)).run draft.parameters =
          .ok (choice, parameters)) :
      Step mapping draft
        { columns := draft.columns ++ lateralOutputs mapping target children
          joins := draft.joins ++ [lateralJoined mapping parent relation target children choice]
          aliases := target.aliasName :: draft.aliases
          parameters }

abbrev Draft.Steps (mapping : Mapping) : Draft → Draft → Prop := Relation.ReflTransGen (Draft.Step mapping)

theorem Draft.Step.aliases_subset (hstep : Step mapping draft draft') : draft.aliases ⊆ draft'.aliases := by
  cases hstep with
  | leaf => exact List.Subset.refl _
  | single => exact List.subset_cons_self _ _
  | lateral => exact List.subset_cons_self _ _

theorem Draft.Steps.aliases_subset (hsteps : Steps mapping draft draft') : draft.aliases ⊆ draft'.aliases := by
  induction hsteps with
  | refl => exact List.Subset.refl _
  | tail _ hstep ih => exact List.Subset.trans ih hstep.aliases_subset

/-! ### Compiled statements -/

/-- The table that the rows of a type are selected from. -/
def rootSource (typeName : String) : Source := { typeName, aliasName := initial typeName }

def rootDraft (typeName : String) : Draft := { aliases := [(rootSource typeName).aliasName] }

def rootColumn (mapping : Mapping) (typeName : String) : String → Column :=
  mapping.column typeName (some (.aliased (rootSource typeName).aliasName))

def selectStatement (mapping : Mapping) (typeName : String) (draft : Draft) (choice : RowChoice Column) :
    Sql.Select Fragment where
  table := mapping.tableName typeName
  aliasName := some (rootSource typeName).aliasName
  columns := draft.columns
  joins := draft.joins
  conditions := choice.conditions.map .conjunction
  order := orderFragments choice.order
  limit := choice.limit
  offset := choice.offset

/-- A SELECT is the draft of its selection, closed with the arguments of its field. -/
structure CompiledSelect (mapping : Mapping) (parentType : String) (returnType : Option TypeRef) (field : SelectedField)
    (result : SelectResult) (typeName : String) (draft : Draft) (choice : RowChoice Column) : Prop where
  type : returnType.map TypeRef.namedType = some typeName
  isRow : isRowType mapping typeName
  builds : mapping.dialect.buildsStatements
  walked : (field.selections.elim (pure ()) (addSelections mapping false (rootSource typeName))).run (rootDraft typeName) =
    .ok ((), draft)
  read : (readRowChoice (argumentsWithDefaults mapping parentType field) (rootColumn mapping typeName)).run
    draft.parameters = .ok (choice, result.parameters)
  pages : canPage mapping choice
  statement : result.statement = selectStatement mapping typeName draft choice
  sql : result.sql = (result.statement.map (Fragment.text mapping.dialect)).text
  findings : result.findings = (result.statement.map (Fragment.text mapping.dialect)).findings

theorem requireStatements_eq_ok : mapping.requireStatements = .ok () ↔ mapping.dialect.buildsStatements := by
  unfold requireStatements
  split <;> simp_all

theorem draftSelect_eq (mapping : Mapping) (root : Source) (parentType : String) (field : SelectedField) :
    draftSelect mapping root parentType field =
      field.selections.elim (pure ()) (addSelections mapping false root) >>= fun _ =>
        rowChoice mapping parentType field (mapping.column root.typeName (some (.aliased root.aliasName))) := by
  unfold draftSelect
  cases field.selections <;> rfl

theorem draftSelect_run {root : Source} {start : Draft} :
    (draftSelect mapping root parentType field).run start = .ok (choice, draft') ↔
      ∃ draft parameters,
        (field.selections.elim (pure ()) (addSelections mapping false root)).run start = .ok ((), draft) ∧
        (readRowChoice (argumentsWithDefaults mapping parentType field)
          (mapping.column root.typeName (some (.aliased root.aliasName)))).run draft.parameters =
            .ok (choice, parameters) ∧
        canPage mapping choice ∧ draft' = { draft with parameters } := by
  rw [draftSelect_eq, run_bind_eq_ok]
  constructor
  · rintro ⟨⟨⟩, draft, hwalked, hchoice⟩
    obtain ⟨parameters, hread, hpage, rfl⟩ := rowChoice_run.1 hchoice
    exact ⟨draft, parameters, hwalked, hread, hpage, rfl⟩
  · rintro ⟨draft, parameters, hwalked, hread, hpage, rfl⟩
    exact ⟨(), draft, hwalked, rowChoice_run.2 ⟨parameters, hread, hpage, rfl⟩⟩

theorem compileSelect_eq_ok :
    compileSelect mapping parentType returnType field = .ok result ↔
      ∃ typeName draft choice, CompiledSelect mapping parentType returnType field result typeName draft choice := by
  unfold compileSelect
  dsimp only
  constructor
  · intro hcompiled
    cases returnType with
    | none => cases hcompiled
    | some type =>
      dsimp only at hcompiled
      split at hcompiled
      · cases hcompiled
      · rename_i hrow
        simp only [except_bind_eq_ok, Prod.exists] at hcompiled
        obtain ⟨⟨⟩, hbuilds, choice, _, hdrafted, hresult⟩ := hcompiled
        obtain ⟨draft, parameters, hwalked, hread, hpage, rfl⟩ := draftSelect_run.1 hdrafted
        cases hresult
        exact ⟨type.namedType, draft, choice, rfl, by simpa using hrow, requireStatements_eq_ok.1 hbuilds, hwalked,
          hread, hpage, rfl, rfl, rfl⟩
  · rintro ⟨typeName, draft, choice, htype, hrow, hbuilds, hwalked, hread, hpage, hstatement, hsql, hfindings⟩
    obtain ⟨type, rfl, rfl⟩ := Option.map_eq_some_iff.1 htype
    obtain ⟨statement, sql, parameters, findings⟩ := result
    dsimp only at hread hstatement hsql hfindings
    subst hstatement hsql hfindings
    have hdrafted := draftSelect_run.2 ⟨draft, parameters, hwalked, hread, hpage, rfl⟩
    dsimp only
    rw [if_neg (by simpa using hrow)]
    simp only [except_bind_eq_ok, Prod.exists]
    exact ⟨(), requireStatements_eq_ok.2 hbuilds, choice, _, hdrafted, rfl⟩

/-! ### A small mapping -/

/-- Users with many posts. -/
def userPosts : Mapping where
  schema := { objects := [("User", { name := "User" })] }
  dialect := .postgres
  tables := [("User", "users")]
  columns := [(("User", "id"), "id"), (("User", "name"), "na$9me"), (("", "title"), "title"), (("", "id"), "id")]
  relations := [("User.posts", { kind := .hasMany, table := "posts", sourceColumn := "id", targetColumn := "user_id" })]

def leafField (name : String) : SelectedField := ⟨name, none, [], [], none, {}, none⟩

end RelationalGraphQL.Mapping
