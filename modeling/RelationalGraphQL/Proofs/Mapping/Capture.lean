import RelationalGraphQL.Proofs.Mapping.Qualified
import RelationalGraphQL.Proofs.Mapping.Scope

/-!
# Parents of subqueries

A lateral subquery names the row of its parent by an alias from outside, while the tables it reads have no aliases.
Where one of them is called like the alias of the parent, the condition that should tie the subquery to its parent is
about that table instead. `ties` follows a selection and says which alias the parent of each to-many relation has, and
so when all parents are told apart from the tables (`parents_apart_iff`).
-/

namespace RelationalGraphQL

namespace Sql

/-- The name that a table goes by if it has no alias: the last part of its name as it is written. -/
def calledName? (written : String) : Option String :=
  match (lexemes written).bind List.getLast? with
  | some (.identifier name) => some name
  | _ => none

namespace Subquery

/-- The alias by which the first condition of a subquery refers to the row of its parent. -/
def parentAlias? (query : Subquery Fragment) : Option String :=
  match query.conditions with
  | .equal _ ⟨some (.aliased name), _⟩ :: _ => some name
  | _ => none

/-- What the tables of a subquery are called. -/
def ownNames (table : String) (query : Subquery Fragment) : List String :=
  (sourceTables table query.source).filterMap calledName?

end Subquery

theorem Join.Scoped.parentAlias {scope : List String} {join : Join Fragment} (hjoin : join.Scoped scope)
    {query : Subquery Fragment} (hquery : query ∈ join.subquery) :
    ∃ parent ∈ scope, query.parentAlias? = some parent := by
  obtain ⟨own, ⟨qualifier, name⟩, conditions, hconditions, parent, hparent, hqualifier⟩ := hjoin.correlated query hquery
  obtain rfl : qualifier = some (.aliased parent) := hqualifier
  refine ⟨parent, hparent, ?_⟩
  rw [Subquery.parentAlias?, hconditions]

end Sql

namespace Mapping

variable {draft' : Draft} {query : Sql.Subquery Fragment} {relation : Relation}

open Arguments (RowChoice readRowChoice run_bind_eq_ok)
open Sql (Column Fragment Join Parameters)

/-! ### The aliases of rows -/

/-- The alias that a letter gives if it has given so many before. -/
def numberedAlias (letter : String) : Nat → String
  | 0 => letter
  | given + 1 => letter ++ toString (given + 2)

/-- A lower-case letter, alone or with a number from 2. -/
def RowAlias (name : String) : Prop := ∃ c : Char, c.isLower ∧ ∃ given, name = numberedAlias (String.ofList [c]) given

theorem initial_eq_letter (name : String) : ∃ c : Char, c.isLower ∧ initial name = String.ofList [c] := by
  obtain ⟨c, hchars, hlower⟩ := initial_toList name
  exact ⟨c, hlower, by rw [← hchars, String.ofList_toList]⟩

theorem rowAlias_initial (name : String) : RowAlias (initial name) := by
  obtain ⟨c, hlower, hletter⟩ := initial_eq_letter name
  exact ⟨c, hlower, 0, hletter⟩

theorem rowAlias_freshAlias (taken : List String) (name : String) : RowAlias (freshAlias taken name) := by
  obtain ⟨c, hlower, hletter⟩ := initial_eq_letter name
  rcases freshAlias_eq taken name with heq | ⟨given, heq⟩
  · exact ⟨c, hlower, 0, heq.trans hletter⟩
  · refine ⟨c, hlower, given + 1, ?_⟩
    rw [heq, hletter]
    rfl

theorem Draft.Steps.rowAliases {mapping : Mapping} {draft : Draft} (hsteps : Draft.Steps mapping draft draft')
    (hdraft : ∀ aliasName ∈ draft.aliases, RowAlias aliasName) : ∀ aliasName ∈ draft'.aliases, RowAlias aliasName := by
  induction hsteps with
  | refl => exact hdraft
  | tail _ hstep ih =>
    cases hstep with
    | leaf => exact ih
    | single =>
      rw [List.forall_mem_cons]
      exact ⟨rowAlias_freshAlias _ _, ih⟩
    | lateral _ _ _ _ _ _ _ _ _ _ htarget _ =>
      rw [List.forall_mem_cons]
      exact ⟨htarget ▸ rowAlias_freshAlias _ _, ih⟩

/-- Every subquery of a compiled SELECT refers to its parent by the alias of the root or of another join. -/
theorem CompiledSelect.parentAlias {mapping : Mapping} {parentType : String} {returnType : Option TypeRef}
    {field : SelectedField} {result : SelectResult} {typeName : String} {draft : Draft} {choice : RowChoice Column}
    (hcompiled : CompiledSelect mapping parentType returnType field result typeName draft choice) {join : Join Fragment}
    (hjoin : join ∈ result.statement.joins) (hquery : query ∈ join.subquery) :
    ∃ parent, query.parentAlias? = some parent ∧ RowAlias parent ∧
      parent ∈ initial typeName :: result.statement.joins.map Join.aliasName := by
  have hdraft := (hcompiled.walk.scoped (Draft.Scoped.root_scoped typeName) (Draft.Scoped.root_reads typeName)).1
  have hjoins : result.statement.joins = draft.joins := by
    rw [hcompiled.statement]
    rfl
  rw [hjoins] at hjoin ⊢
  obtain ⟨place, hplace⟩ := List.mem_iff_getElem?.1 hjoin
  obtain ⟨parent, hscope, hparent⟩ := (hdraft.joins place join hplace).parentAlias hquery
  have hmem : parent ∈ initial typeName :: draft.joins.map Join.aliasName :=
    List.cons_subset_cons _ (List.map_subset _ (List.take_subset place draft.joins)) hscope
  refine ⟨parent, hparent, ?_, hmem⟩
  have hroot : ∀ aliasName ∈ (rootDraft typeName).aliases, RowAlias aliasName := by
    intro aliasName haliasName
    rw [List.mem_singleton.1 haliasName]
    exact rowAlias_initial typeName
  exact hcompiled.steps.rowAliases hroot parent (hdraft.mem_aliases.2 hmem)

/-! ### Ties to parents -/

/-- What the tables of a relation are called in a subquery. -/
def Relation.calledNames (relation : Relation) : List String := relation.writtenTables.filterMap Sql.calledName?

/-- A to-many relation, and the alias of the row that it belongs to. -/
structure Tie where
  parent : String
  relation : Relation

mutual

/-- The to-many relations that a selection joins, with the aliases of their parents, and all aliases given out after
it. Below a to-many relation nothing is joined. -/
def tiesBelow (mapping : Mapping) (source : Source) (taken : List String) : SelectionSet → List Tie × List String
  | ⟨fields, _⟩ => ties mapping source taken fields

def ties (mapping : Mapping) (source : Source) (taken : List String) : List SelectedField → List Tie × List String
  | [] => ([], taken)
  | field :: rest =>
    let first := tiesBy mapping source taken field
    let others := ties mapping source first.2 rest
    (first.1 ++ others.1, others.2)

def tiesBy (mapping : Mapping) (source : Source) (taken : List String) : SelectedField → List Tie × List String
  | ⟨_, _, _, _, _, _, none⟩ => ([], taken)
  | ⟨name, aliasName, _, _, _, _, some set⟩ =>
    match mapping.relation? source.typeName name with
    | none => ([], taken)
    | some relation =>
      let given := freshAlias taken (aliasName.getD name)
      if relation.isLateral then ([⟨source.aliasName, relation⟩], given :: taken)
      else tiesBelow mapping ⟨targetType mapping source.typeName name, given⟩ (given :: taken) set

end

/-- The ties of what is selected of the rows of a type. -/
def rootTies (mapping : Mapping) (typeName : String) (fields : List SelectedField) : List Tie :=
  (ties mapping (rootSource typeName) [initial typeName] fields).1

section

variable {mapping : Mapping} {source : Source} {field : SelectedField}

theorem tiesBy_eq_nil (taken : List String)
    (hnone : mapping.relation? source.typeName field.name = none ∨ field.selections = none) :
    tiesBy mapping source taken field = ([], taken) := by
  obtain ⟨name, aliasName, arguments, directives, condition, position, selections⟩ := field
  cases selections with
  | none => rw [tiesBy]
  | some set =>
    have hrelation : mapping.relation? source.typeName name = none := hnone.resolve_right (Option.some_ne_none set)
    rw [tiesBy, hrelation]

theorem tiesBy_of_relation {relation : Relation} {set : SelectionSet} (draft : Draft)
    (hrelation : mapping.relation? source.typeName field.name = some relation) (hset : field.selections = some set) :
    tiesBy mapping source draft.aliases field =
      let target := relationTarget mapping source draft field
      if relation.isLateral then ([⟨source.aliasName, relation⟩], target.aliasName :: draft.aliases)
      else ties mapping target (target.aliasName :: draft.aliases) set.fields := by
  obtain ⟨name, aliasName, arguments, directives, condition, position, _⟩ := field
  obtain rfl : _ = some set := hset
  have hname : mapping.relation? source.typeName name = some relation := hrelation
  obtain ⟨fields, typename⟩ := set
  rw [tiesBy, hname]
  dsimp only
  rw [tiesBelow]
  rfl

end

theorem lateralJoined_parentAlias {mapping : Mapping} {parent target : Source} {children : List SelectedField}
    {choice : RowChoice Column}
    (hquery : query ∈ (lateralJoined mapping parent relation target children choice).subquery) :
    query.parentAlias? = some parent.aliasName ∧ query.source = (correlation parent relation).2.1 := by
  obtain ⟨-, -, own, -, htie⟩ := correlation_columns parent relation
  rw [lateralJoined_subquery, htie] at hquery
  cases hquery
  exact ⟨rfl, rfl⟩

/-- How the subqueries of joins refer to their parents, and what their own tables are called. -/
def references (joins : List (Join Fragment)) : List (Option String × List String) :=
  joins.flatMap fun join => join.subquery.toList.map fun query => (query.parentAlias?, query.ownNames join.table)

theorem mem_references {joins : List (Join Fragment)} {reference : Option String × List String} :
    reference ∈ references joins ↔ ∃ join ∈ joins, ∃ query ∈ join.subquery,
      (query.parentAlias?, query.ownNames join.table) = reference := by
  simp [references]

theorem references_lateralJoined (mapping : Mapping) (parent target : Source) (children : List SelectedField)
    (choice : RowChoice Column) (hlateral : relation.isLateral) :
    references [lateralJoined mapping parent relation target children choice] =
      [(some parent.aliasName, relation.calledNames)] := by
  obtain ⟨query, hquery⟩ :
      ∃ query, (lateralJoined mapping parent relation target children choice).subquery = some query :=
    ⟨_, lateralJoined_subquery mapping parent relation target children choice⟩
  obtain ⟨hparent, hsource⟩ := lateralJoined_parentAlias hquery
  have hown : query.ownNames relation.table = relation.calledNames := by
    rw [Sql.Subquery.ownNames, hsource, sourceTables_correlation parent hlateral, Relation.calledNames]
  rw [references, List.flatMap_singleton, hquery, Option.toList_some, List.map_singleton, hparent, ← hown]
  rfl

/-- A walk adds a subquery for every tie of its fields, in their order. -/
theorem Draft.Walk.references_eq {mapping : Mapping} {joined : Bool} {source : Source} {fields : List SelectedField}
    {draft : Draft} (hwalk : Draft.Walk mapping joined source fields draft draft') :
    draft'.aliases = (ties mapping source draft.aliases fields).2 ∧
      references draft'.joins = references draft.joins ++
        (ties mapping source draft.aliases fields).1.map fun tie => (some tie.parent, tie.relation.calledNames) := by
  induction hwalk with
  | nil =>
    rw [ties, List.map_nil, List.append_nil]
    exact ⟨rfl, rfl⟩
  | skip _ hjoin _ ih =>
    rw [ties, tiesBy_eq_nil _ hjoin]
    exact ih
  | leaf hleaf _ ih =>
    rw [isLeaf, Bool.and_eq_true, Option.isNone_iff_eq_none] at hleaf
    rw [ties, tiesBy_eq_nil _ (.inl hleaf.2)]
    exact ih
  | @single joined source field rest draft middle draft' relation set hrelation hsingle hset _ _ ihbelow ihrest =>
    obtain ⟨hmiddle, hbelow⟩ := ihbelow
    obtain ⟨hlast, hrest⟩ := ihrest
    -- the join itself has no subquery
    have hjoin : references (draft.withSingle mapping source field relation).joins = references draft.joins := by
      rw [references, Draft.withSingle, Draft.withJoin, List.flatMap_append]
      exact List.append_nil _
    rw [hjoin] at hbelow
    rw [hbelow, List.append_assoc, ← List.map_append] at hrest
    rw [ties, tiesBy_of_relation draft hrelation hset, hsingle]
    change middle.aliases = (ties mapping (relationTarget mapping source draft field)
      ((relationTarget mapping source draft field).aliasName :: draft.aliases) set.fields).2 at hmiddle
    rw [hmiddle] at hlast hrest
    exact ⟨hlast, hrest⟩
  | @lateral joined source field rest draft draft' relation set choice parameters hrelation hlateral hset hread _ ih =>
    obtain ⟨hlast, hrest⟩ := ih
    have hjoin : references (draft.withLateral mapping source field relation set.fields choice parameters).joins =
        references draft.joins ++ [(some source.aliasName, relation.calledNames)] := by
      rw [← references_lateralJoined mapping source (relationTarget mapping source draft field) set.fields choice
        hlateral]
      exact List.flatMap_append
    rw [hjoin, List.append_assoc, List.singleton_append] at hrest
    rw [ties, tiesBy_of_relation draft hrelation hset, hlateral]
    exact ⟨hlast, hrest⟩

section

variable {mapping : Mapping} {parentType : String} {type : TypeRef} {field : SelectedField} {result : SelectResult}

variable {typeName : String} {draft : Draft} {choice : RowChoice Column}

theorem CompiledSelect.references_eq
    (hcompiled : CompiledSelect mapping parentType (some type) field result typeName draft choice) :
    references result.statement.joins = (rootTies mapping typeName field.children).map fun tie =>
      (some tie.parent, tie.relation.calledNames) := by
  rw [hcompiled.statement]
  exact hcompiled.walk.references_eq.2

theorem CompiledSelect.query_of_tie
    (hcompiled : CompiledSelect mapping parentType (some type) field result typeName draft choice) {tie : Tie}
    (htie : tie ∈ rootTies mapping typeName field.children) :
    ∃ join ∈ result.statement.joins, ∃ query ∈ join.subquery,
      query.parentAlias? = some tie.parent ∧ query.ownNames join.table = tie.relation.calledNames := by
  have hmem := List.mem_map_of_mem (f := fun tie : Tie => (some tie.parent, tie.relation.calledNames)) htie
  rw [← hcompiled.references_eq, mem_references] at hmem
  obtain ⟨join, hjoin, query, hquery, hsame⟩ := hmem
  rw [Prod.mk.injEq] at hsame
  exact ⟨join, hjoin, query, hquery, hsame⟩

theorem CompiledSelect.tie_of_query
    (hcompiled : CompiledSelect mapping parentType (some type) field result typeName draft choice)
    {join : Join Fragment} (hjoin : join ∈ result.statement.joins) {query : Sql.Subquery Fragment}
    (hquery : query ∈ join.subquery) :
    ∃ tie ∈ rootTies mapping typeName field.children,
      query.parentAlias? = some tie.parent ∧ query.ownNames join.table = tie.relation.calledNames := by
  have hmem := mem_references.2 ⟨join, hjoin, query, hquery, rfl⟩
  rw [hcompiled.references_eq] at hmem
  obtain ⟨tie, htie, hsame⟩ := List.mem_map.1 hmem
  rw [Prod.mk.injEq] at hsame
  exact ⟨tie, htie, hsame.1.symm, hsame.2.symm⟩

/-- The parent of every to-many relation goes by the alias of the root or of a join, which is a letter, alone or with a
number. The subqueries of a compiled SELECT refer to their parents by these aliases, and none is taken for a table of
the subquery exactly if no relation has a table that is called like the alias of its parent. -/
theorem parents_apart_iff (hresult : compileSelect mapping parentType (some type) field = .ok result) :
    let found := rootTies mapping type.namedType field.children
    (∀ tie ∈ found, RowAlias tie.parent ∧
      tie.parent ∈ initial type.namedType :: result.statement.joins.map Join.aliasName) ∧
    ((∀ join ∈ result.statement.joins, ∀ query ∈ join.subquery,
        ∃ parent, query.parentAlias? = some parent ∧ parent ∉ query.ownNames join.table) ↔
      ∀ tie ∈ found, tie.parent ∉ tie.relation.calledNames) := by
  intro found
  obtain ⟨typeName, draft, choice, hcompiled⟩ := compileSelect_eq_ok.1 hresult
  obtain rfl : type.namedType = typeName := Option.some.inj hcompiled.type
  refine ⟨?_, ?_, ?_⟩
  · intro tie htie
    obtain ⟨join, hjoin, query, hquery, hparent, -⟩ := hcompiled.query_of_tie htie
    obtain ⟨parent, hparent', hrow, hscope⟩ := hcompiled.parentAlias hjoin hquery
    obtain rfl : tie.parent = parent := Option.some.inj (hparent.symm.trans hparent')
    exact ⟨hrow, hscope⟩
  · intro hapart tie htie
    obtain ⟨join, hjoin, query, hquery, hparent, hown⟩ := hcompiled.query_of_tie htie
    obtain ⟨parent, hparent', hnew⟩ := hapart join hjoin query hquery
    obtain rfl : tie.parent = parent := Option.some.inj (hparent.symm.trans hparent')
    rwa [hown] at hnew
  · intro hapart join hjoin query hquery
    obtain ⟨tie, htie, hparent, hown⟩ := hcompiled.tie_of_query hjoin hquery
    refine ⟨tie.parent, hparent, ?_⟩
    rw [hown]
    exact hapart tie htie

end

theorem parents_apart_memberPage :
    ∃ result, compileSelect members "Query" (some (.named "User")) memberPage = .ok result ∧
      ∀ join ∈ result.statement.joins, ∀ query ∈ join.subquery,
        ∃ parent, query.parentAlias? = some parent ∧ parent ∉ query.ownNames join.table := by
  have hresult : compileSelect members "Query" (some (.named "User")) memberPage = .ok _ := rfl
  exact ⟨_, hresult, (parents_apart_iff hresult).2.2 (by decide +kernel)⟩

/-- Rows that refer to rows of their own type, whose table is called by the initial that is also the alias of the
parents. -/
theorem parent_captured_by_own_table :
    ¬∀ (mapping : Mapping) (parentType : String) (type : TypeRef) (field : SelectedField) (result : SelectResult),
      compileSelect mapping parentType (some type) field = .ok result →
      ∀ join ∈ result.statement.joins, ∀ query ∈ join.subquery,
        ∃ parent, query.parentAlias? = some parent ∧ parent ∉ query.ownNames join.table := by
  intro hapart
  let us : Schema.Field := { name := "us", type := .named "U", relation := some .hasMany }
  let mapping : Mapping :=
    { schema := { objects := [("U", { name := "U", fields := [("us", us)] })] }
      dialect := .postgres
      derivesRelations := true }
  have hjoins := hapart mapping "Query" (.named "U")
    (relationOf "us" [] [leafField "id", relationOf "us" [] [leafField "id"]]) _ rfl _ List.mem_cons_self _ rfl
  obtain ⟨parent, hparent, hnew⟩ := hjoins
  obtain rfl : "u" = parent := Option.some.inj hparent
  exact hnew (by decide +kernel)

end Mapping

end RelationalGraphQL
