import RelationalGraphQL.Config.Reader
import RelationalGraphQL.Proofs.Mapping.Numbering
import RelationalGraphQL.Proofs.Mapping.Settings
import RelationalGraphQL.Proofs.Sql.TableName

/-!
# Tables of other schemas

A table may be named with its schema before a dot. In FROM and JOIN such a name is quoted part by part, with one
exception: the target and the link table of a relation that goes through a link table are each quoted as a whole, so
that their dots become part of the names (`select_tables`, `linked_table_quoted_whole`).
-/

namespace RelationalGraphQL

namespace Sql

/-! ### Names quoted as a whole -/

theorem length_splitOn (separator : Char) (text : List Char) :
    (text.splitOn separator).length = text.count separator + 1 := by
  induction text with
  | nil => rfl
  | cons c text ih =>
    rw [List.splitOn_cons_eq_if_modifyHead, List.count_cons]
    split <;> simp [ih]

theorem lexemes_quoted (names : List String) :
    lexemes (".".intercalate (names.map quoteIdentifier)) =
      some ((names.map Lexeme.identifier).intersperse (.mark '.')) := by
  induction names with
  | nil => rfl
  | cons name names ih =>
    cases names with
    | nil => simpa using lexemes_quoteIdentifier name
    | cons next names =>
      have hdot : gap? '.' = some [.mark '.'] := by decide
      have hlexemes := lexemes_separated (lexemes_quoteIdentifier name) hdot ih
      rw [List.map_cons, List.map_cons, String.intercalate_cons_cons, String.append_assoc]
      exact hlexemes

theorem quoteIdentifier_eq_quoteQualified_iff {name : String} :
    quoteIdentifier name = quoteQualified name ↔ '.' ∉ name.toList := by
  constructor
  · intro heq
    -- a name quoted as a whole is one lexeme, and one quoted part by part has two more for every dot
    have hlexemes := lexemes_quoted (Text.pieces '.' name)
    rw [← quoteQualified, ← heq, lexemes_quoteIdentifier, Option.some.injEq] at hlexemes
    have hlength := congrArg List.length hlexemes
    rw [List.length_intersperse, List.length_map, Text.pieces, List.length_map, length_splitOn,
      List.length_singleton] at hlength
    rw [← List.count_eq_zero]
    omega
  · intro hnone
    rw [quoteQualified, Text.pieces, List.splitOn_eq_singleton hnone, List.map_singleton, String.ofList_toList,
      List.map_singleton, String.intercalate_singleton]

theorem Dialect.eq_postgres_of_ofName? {name : String} {dialect : Dialect} (hname : ofName? name = some dialect) :
    dialect = postgres := by
  unfold ofName? at hname
  split at hname
  · exact (Option.some.inj hname).symm
  · exact (Option.some.inj hname).symm
  · exact (Option.some.inj hname).symm
  · cases hname

end Sql

namespace Mapping

open Sql (Behind Column Fragment Join Lists Parameters quoteIdentifier quoteQualified)

/-! ### Joined relations -/

mutual

/-- The relations that a selection joins, in the order of the joins. Below a to-many relation nothing is joined. -/
def joinedBelow (mapping : Mapping) (typeName : String) : SelectionSet → List Relation
  | ⟨fields, _⟩ => joinedRelations mapping typeName fields

def joinedRelations (mapping : Mapping) (typeName : String) : List SelectedField → List Relation
  | [] => []
  | field :: rest => joinedBy mapping typeName field ++ joinedRelations mapping typeName rest

def joinedBy (mapping : Mapping) (typeName : String) : SelectedField → List Relation
  | ⟨_, _, _, _, _, _, none⟩ => []
  | ⟨name, _, _, _, _, _, some set⟩ =>
    match mapping.relation? typeName name with
    | none => []
    | some relation =>
      relation :: if relation.isLateral then [] else joinedBelow mapping (targetType mapping typeName name) set

end

namespace Relation

/-- The link table that rows are fetched through. A to-one relation is joined directly. -/
def through? (relation : Relation) : Option LinkTable := if relation.isLateral then relation.link else none

/-- The tables that a relation brings into a statement. -/
def tables (relation : Relation) : List String := relation.table :: relation.through?.toList.map LinkTable.table

/-- The same tables as they are written. -/
def writtenTables (relation : Relation) : List String :=
  match relation.through? with
  | none => [quoteQualified relation.table]
  | some link => [quoteIdentifier relation.table, quoteIdentifier link.table]

/-- A dot makes no difference to names that are quoted part by part. -/
theorem writtenTables_eq_iff (relation : Relation) :
    relation.writtenTables = relation.tables.map quoteQualified ↔
      ∀ link ∈ relation.through?, '.' ∉ relation.table.toList ∧ '.' ∉ link.table.toList := by
  unfold writtenTables tables
  cases relation.through? with
  | none => simp
  | some link => simp [Sql.quoteIdentifier_eq_quoteQualified_iff]

theorem length_writtenTables (relation : Relation) : relation.writtenTables.length = relation.tables.length := by
  unfold writtenTables tables
  cases relation.through? <;> rfl

theorem flatMap_writtenTables_eq_iff (relations : List Relation) :
    relations.flatMap writtenTables = (relations.flatMap tables).map quoteQualified ↔
      ∀ relation ∈ relations, relation.writtenTables = relation.tables.map quoteQualified := by
  induction relations with
  | nil => simp
  | cons relation relations ih =>
    rw [List.flatMap_cons, List.flatMap_cons, List.map_append, List.forall_mem_cons, ← ih]
    have hlength : relation.writtenTables.length = (relation.tables.map quoteQualified).length := by
      rw [List.length_map, length_writtenTables]
    exact ⟨fun happend => List.append_inj happend hlength, fun heqs => congrArg₂ _ heqs.1 heqs.2⟩

end Relation

section

variable {mapping : Mapping} {typeName : String} {field : SelectedField}

theorem joinedBy_eq_nil (hnone : mapping.relation? typeName field.name = none ∨ field.selections = none) :
    joinedBy mapping typeName field = [] := by
  obtain ⟨name, aliasName, arguments, directives, condition, position, selections⟩ := field
  cases selections with
  | none => rw [joinedBy]
  | some set =>
    have hrelation : mapping.relation? typeName name = none := hnone.resolve_right nofun
    rw [joinedBy, hrelation]

theorem joinedBy_of_relation {relation : Relation} {set : SelectionSet}
    (hrelation : mapping.relation? typeName field.name = some relation) (hset : field.selections = some set) :
    joinedBy mapping typeName field =
      relation :: if relation.isLateral then []
        else joinedRelations mapping (targetType mapping typeName field.name) set.fields := by
  obtain ⟨name, aliasName, arguments, directives, condition, position, _⟩ := field
  obtain rfl : _ = some set := hset
  have hname : mapping.relation? typeName name = some relation := hrelation
  rw [joinedBy, hname]
  obtain ⟨fields, typename⟩ := set
  rw [joinedBelow]

end

/-! ### Joins -/

section

variable {mapping : Mapping} {source : Source} {relation : Relation}

theorem singleJoin_behind (hsource : Sql.isAlias source.aliasName) (hsingle : relation.isLateral = false)
    {aliasName : String} (halias : Sql.isAlias aliasName) :
    Behind ((singleJoin source relation aliasName).map (Fragment.text .postgres)).text relation.writtenTables := by
  have hwritten : relation.writtenTables = [quoteQualified relation.table] := by
    rw [Relation.writtenTables, Relation.through?, hsingle]
    rfl
  rw [hwritten]
  refine Join.behind_text halias ?_ nofun nofun
  rintro _ ⟨⟩
  exact Fragment.lists_text ⟨worded_of_alias hsource, worded_of_alias halias⟩ rfl

theorem leafOutput_lists (joined : Bool) (source : Source) (field : SelectedField) {column : Column}
    (hcolumn : column.Worded) : Lists ((leafOutput joined source column field).text .postgres) [] := by
  refine Fragment.lists_text (leafOutput_written joined source field hcolumn).1 ?_
  unfold leafOutput
  split
  · rfl
  · split
    · split <;> rfl
    · rfl

/-- Only the source of a subquery can name tables, and it does if there is a link table. -/
theorem correlation_linked (source : Source) (relation : Relation) :
    (∀ fragment ∈ (correlation source relation).2.1, fragment.isLinked) ∧
      (correlation source relation).2.2.isLinked = false := by
  unfold correlation
  cases relation.link with
  | none => exact ⟨nofun, rfl⟩
  | some link =>
    refine ⟨?_, rfl⟩
    rintro _ ⟨⟩
    rfl

theorem sourceTables_correlation (source : Source) (hlateral : relation.isLateral) :
    Sql.sourceTables relation.table (correlation source relation).2.1 = relation.writtenTables := by
  rw [Relation.writtenTables, Relation.through?, if_pos hlateral, correlation]
  cases relation.link <;> rfl

theorem lateralJoined_behind (target : Source) (children : List SelectedField) {arguments : List (String × Json)}
    {choice : Arguments.RowChoice Column} {bound bound' : Parameters} (hsource : Sql.isAlias source.aliasName)
    (hlateral : relation.isLateral) (halias : Sql.isAlias target.aliasName)
    (hread : (Arguments.readRowChoice arguments
      (mapping.column target.typeName (correlation source relation).1)).run bound = .ok (choice, bound')) :
    Behind ((lateralJoined mapping source relation target children choice).map (Fragment.text .postgres)).text
      relation.writtenTables := by
  have hwritten := (lateralJoined_fragments children hsource hread).1
  obtain ⟨hlinked, htie⟩ := correlation_linked source relation
  rw [← sourceTables_correlation source hlateral]
  refine Join.behind_text halias ?_ ?_ ?_
  · intro condition hcondition
    change condition ∈ (if relation.joinKind = .inner then none else some Fragment.always) at hcondition
    split at hcondition
    · cases hcondition
    · cases hcondition
      exact Fragment.lists_text trivial rfl
  · rintro _ ⟨⟩ fragment hfragment
    have hmem : fragment ∈ (lateralJoined mapping source relation target children choice).fragments := by
      simp only [Sql.Subquery.inner, List.mem_append] at hfragment
      simp only [Join.fragments, lateralJoined, Option.elim_some, Sql.Subquery.fragments, List.mem_append]
      tauto
    refine Fragment.lists_text (hwritten fragment hmem) ?_
    simp only [Sql.Subquery.inner, orderFragments, List.mem_append, List.mem_cons, List.mem_map] at hfragment
    rcases hfragment with ⟨_, -, rfl⟩ | (rfl | ⟨_, -, rfl⟩) | ⟨_, ⟨_, -, rfl⟩, rfl⟩
    · rfl
    · exact htie
    · rfl
    · rfl
  · rintro _ ⟨⟩
    exact hlinked

end

/-! ### Drafts -/

/-- The joins of a draft write these tables, and its columns none. -/
structure Draft.Tabled (draft : Draft) (names : List String) : Prop where
  columns : ∀ column ∈ draft.columns, Lists (column.text .postgres) []
  joins : Behind (String.join ((draft.joins.map (Join.map (Fragment.text .postgres))).map Join.text)) names

namespace Draft

variable {mapping : Mapping} {draft draft' : Draft} {names : List String}

theorem Tabled.withJoin (hdraft : draft.Tabled names) {join : Join Fragment} {tables : List String}
    (hjoin : Behind (join.map (Fragment.text .postgres)).text tables) {columns : List Fragment}
    (hcolumns : ∀ column ∈ columns, Lists (column.text .postgres) []) (parameters : Parameters) :
    (draft.withJoin join columns parameters).Tabled (names ++ tables) where
  columns := List.forall_mem_append.2 ⟨hdraft.columns, hcolumns⟩
  joins := by
    have hjoins := hdraft.joins.append hjoin
    simpa [Draft.withJoin, String.join_append] using hjoins

/-- A walk writes the tables of the relations that it joins, in order. -/
theorem Walk.tabled {joined : Bool} {source : Source} {fields : List SelectedField}
    (hwalk : Walk mapping joined source fields draft draft') (hsource : Sql.isAlias source.aliasName)
    (hdraft : draft.Tabled names) :
    draft'.Tabled (names ++ (joinedRelations mapping source.typeName fields).flatMap Relation.writtenTables) := by
  induction hwalk generalizing names with
  | nil =>
    rw [joinedRelations, List.flatMap_nil, List.append_nil]
    exact hdraft
  | skip _ hjoin _ ih =>
    rw [joinedRelations, joinedBy_eq_nil hjoin, List.nil_append]
    exact ih hsource hdraft
  | @leaf joined source field rest draft draft' hleaf _ ih =>
    rw [isLeaf, Bool.and_eq_true, Option.isNone_iff_eq_none] at hleaf
    rw [joinedRelations, joinedBy_eq_nil (.inl hleaf.2), List.nil_append]
    refine ih hsource ⟨List.forall_mem_append.2 ⟨hdraft.columns, List.forall_mem_singleton.2 ?_⟩, hdraft.joins⟩
    exact leafOutput_lists joined source field (worded_of_alias hsource)
  | @single joined source field rest draft middle draft' relation set hrelation hsingle hset _ _ ihbelow ihrest =>
    have halias := freshAlias_isAlias draft.aliases field.responseKey
    have hjoin : (draft.withSingle mapping source field relation).Tabled (names ++ relation.writtenTables) :=
      hdraft.withJoin (singleJoin_behind hsource hsingle halias) (by simp) _
    -- the joins below come between this one and those of the other fields
    have htabled := ihrest hsource (ihbelow halias hjoin)
    rw [joinedRelations, joinedBy_of_relation hrelation hset, if_neg (by rw [hsingle]; decide)]
    simpa only [relationTarget, List.cons_append, List.flatMap_cons, List.flatMap_append, List.append_assoc]
      using htabled
  | @lateral joined source field rest draft draft' relation set choice parameters hrelation hlateral hset hread _ ih =>
    have halias := freshAlias_isAlias draft.aliases field.responseKey
    have hcolumns : ∀ column ∈ lateralOutputs mapping (relationTarget mapping source draft field) set.fields,
        Lists (column.text .postgres) [] := by
      intro column hcolumn
      obtain ⟨leaf, -, rfl⟩ := List.mem_map.1 hcolumn
      exact Fragment.lists_text (worded_of_alias halias) rfl
    have hjoin := lateralJoined_behind (relationTarget mapping source draft field) set.fields hsource hlateral halias
      hread
    have htabled := ih hsource (hdraft.withJoin hjoin hcolumns parameters)
    rw [joinedRelations, joinedBy_of_relation hrelation hset, if_pos hlateral]
    simpa only [List.cons_append, List.nil_append, List.flatMap_cons, List.append_assoc] using htabled

end Draft

/-! ### Compiled statements -/

section

variable {mapping : Mapping} {parentType : String} {returnType : Option TypeRef} {field : SelectedField}
  {result : SelectResult}

theorem compileSelect_tables (hdialect : mapping.dialect = .postgres)
    (hcompiled : compileSelect mapping parentType returnType field = .ok result) :
    ∃ typeName, returnType.map TypeRef.namedType = some typeName ∧
      Sql.tables result.sql = some (quoteQualified (mapping.tableName typeName) ::
        (joinedRelations mapping typeName field.children).flatMap Relation.writtenTables) := by
  obtain ⟨typeName, draft, choice, hcompiled⟩ := compileSelect_eq_ok.1 hcompiled
  have hroot : Sql.isAlias (initial typeName) := initial_isAlias typeName
  have hcolumn : ∀ fieldName, (rootColumn mapping typeName fieldName).Worded := fun _ => worded_of_alias hroot
  have hstart : (rootDraft typeName).Tabled [] := ⟨by simp [rootDraft], .nil⟩
  have hdraft := hcompiled.walk.tabled hroot hstart
  have hinner : ∀ fragment ∈ (selectStatement mapping typeName draft choice).inner,
      Lists (fragment.text .postgres) [] := by
    simp only [Sql.Select.inner, selectStatement, List.forall_mem_append, List.nil_append, List.append_nil]
    refine ⟨hdraft.columns, fun fragment hfragment => ?_, fun fragment hfragment => ?_⟩
    · refine Fragment.lists_text (written_conditions hcolumn hcompiled.read fragment hfragment) ?_
      obtain ⟨_, -, rfl⟩ := List.mem_map.1 hfragment
      rfl
    · refine Fragment.lists_text (written_order hcolumn hcompiled.read fragment hfragment).1 ?_
      simp only [orderFragments, List.map_map, List.mem_map] at hfragment
      obtain ⟨_, -, rfl⟩ := hfragment
      rfl
  have halias : ∀ name ∈ (selectStatement mapping typeName draft choice).aliasName, Sql.isAlias name := by
    rintro _ ⟨⟩
    exact hroot
  refine ⟨typeName, hcompiled.type, ?_⟩
  rw [hcompiled.sql, hcompiled.statement, hdialect]
  exact (Sql.Select.lists_text halias hinner hdraft.joins).tables_eq

/-- There is one dialect that a configuration can name. -/
theorem Builder.dialect_of_ofConfig {schema : Schema} {config : Config} {builder : Builder}
    (hbuilder : Builder.ofConfig schema config = .ok builder) : builder.mapping.dialect = .postgres := by
  obtain ⟨-, dialect, hdialect, rfl⟩ := Builder.ofConfig_eq_ok.1 hbuilder
  rw [← settled, settled_dialect]
  unfold Config.sqlDialect at hdialect
  split at hdialect
  · rename_i hname
    rw [← Except.ok.inj hdialect]
    exact Sql.Dialect.eq_postgres_of_ofName? hname
  · cases hdialect

/-- Where a configured mapping compiles a selection, its tables are written part by part, each name of a schema and each
name of a table in quotes of its own. A relation that goes through a link table is the exception: the names of its
target and of its link table are quoted as a whole, which makes a difference exactly if one of them has a dot. -/
theorem select_tables {schema : Schema} {config : Config} {builder : Builder}
    (hbuilder : Builder.ofConfig schema config = .ok builder)
    (hcompiled : compileSelect builder.mapping parentType returnType field = .ok result) :
    ∃ typeName, returnType.map TypeRef.namedType = some typeName ∧
      let table := builder.mapping.tableName typeName
      let relations := joinedRelations builder.mapping typeName field.children
      Sql.tables result.sql = some (quoteQualified table :: relations.flatMap Relation.writtenTables) ∧
      (Sql.tables result.sql = some ((table :: relations.flatMap Relation.tables).map quoteQualified) ↔
        ∀ relation ∈ relations, ∀ link ∈ relation.through?,
          '.' ∉ relation.table.toList ∧ '.' ∉ link.table.toList) := by
  obtain ⟨typeName, htype, htables⟩ := compileSelect_tables (Builder.dialect_of_ofConfig hbuilder) hcompiled
  refine ⟨typeName, htype, htables, ?_⟩
  rw [htables, Option.some.injEq, List.map_cons, List.cons_eq_cons, and_iff_right rfl,
    Relation.flatMap_writtenTables_eq_iff]
  simp only [Relation.writtenTables_eq_iff]

end

/-! ### Users with tags -/

def tagsText : String :=
  "relations:\n  User.tags:\n    type: manyToMany\n    table: app.tags\n    foreignKey: id\n" ++
    "    through:\n      table: app.user_tags\n      sourceKey: user_id\n      targetKey: tag_id\n"

def tagsConfig : Config where
  relations :=
    [("User.tags",
        { kind := .manyToMany, table := "app.tags", foreignKey := "id",
          link := some { table := "app.user_tags", sourceKey := "user_id", targetKey := "tag_id" } })]

/-- Users with posts as well, all of them in one schema. -/
def appConfig : Config :=
  { tagsConfig with
    models := [("User", "app.users")]
    relations := ("User.posts", { kind := .hasMany, table := "app.posts", foreignKey := "user_id" }) ::
      tagsConfig.relations }

/-- Users with the identifiers of what these fields relate them to. -/
def usersWith (names : List String) : SelectedField :=
  let related := names.map fun name => ⟨name, none, [], [], none, {}, some ⟨[leafField "id"], false⟩⟩
  ⟨"users", none, [], [], none, {}, some ⟨leafField "id" :: related, false⟩⟩

def usersOf (config : Config) : Mapping := settled userPosts.schema .postgres config.plainSettings

theorem exists_usersOf (config : Config) (names : List String)
    (hdots : (∀ entry ∈ config.fields, '.' ∈ entry.1.toList) ∧ ∀ entry ∈ config.relations, '.' ∈ entry.1.toList)
    (hdialect : config.sqlDialect = .ok .postgres)
    (hok : (compileSelect (usersOf config) "Query" (some (.named "User")) (usersWith names)).isOk) :
    ∃ builder result, Builder.ofConfig userPosts.schema config = .ok builder ∧ builder.mapping = usersOf config ∧
      compileSelect builder.mapping "Query" (some (.named "User")) (usersWith names) = .ok result := by
  cases hcompiled : compileSelect (usersOf config) "Query" (some (.named "User")) (usersWith names) with
  | error error => rw [hcompiled] at hok; cases hok
  | ok result =>
    exact ⟨_, result, Builder.ofConfig_eq_ok.2 ⟨hdots, .postgres, hdialect, rfl⟩, rfl, hcompiled⟩

theorem select_tables_app :
    ∃ builder result, Builder.ofConfig userPosts.schema appConfig = .ok builder ∧
      compileSelect builder.mapping "Query" (some (.named "User")) (usersWith ["posts", "tags"]) = .ok result ∧
      Sql.tables result.sql =
        some ["\"app\".\"users\"", "\"app\".\"posts\"", "\"app.tags\"", "\"app.user_tags\""] := by
  obtain ⟨builder, result, hbuilder, hmapping, hcompiled⟩ :=
    exists_usersOf appConfig ["posts", "tags"] (by decide) rfl (by decide +kernel)
  obtain ⟨typeName, htype, htables, -⟩ := select_tables hbuilder hcompiled
  obtain rfl : "User" = typeName := by simpa [TypeRef.namedType] using htype
  refine ⟨builder, result, hbuilder, hcompiled, ?_⟩
  rw [htables, hmapping]
  decide +kernel

theorem parse_tagsText : Config.parse tagsText = .ok tagsConfig := by
  have hparse : (Config.parse tagsText).toOption = some tagsConfig := by decide +kernel
  cases hconfig : Config.parse tagsText with
  | error error => rw [hconfig] at hparse; cases hparse
  | ok config => rw [hconfig] at hparse; rw [Option.some.inj hparse]

/-- Users have tags in another schema: the tags and their link table are quoted as if there were none. -/
theorem linked_table_quoted_whole :
    ¬ ∀ (text : String) (config : Config) (schema : Schema) (builder : Builder) (parentType typeName : String)
        (field : SelectedField) (result : SelectResult),
      Config.parse text = .ok config → Builder.ofConfig schema config = .ok builder →
      compileSelect builder.mapping parentType (some (.named typeName)) field = .ok result →
      let relations := joinedRelations builder.mapping typeName field.children
      Sql.tables result.sql =
        some ((builder.mapping.tableName typeName :: relations.flatMap Relation.tables).map quoteQualified) := by
  intro hparts
  obtain ⟨builder, result, hbuilder, hmapping, hcompiled⟩ :=
    exists_usersOf tagsConfig ["tags"] (by decide) rfl (by decide +kernel)
  obtain ⟨typeName, htype, htables⟩ := compileSelect_tables (Builder.dialect_of_ofConfig hbuilder) hcompiled
  obtain rfl : "User" = typeName := by simpa [TypeRef.namedType] using htype
  have hsame := hparts tagsText tagsConfig userPosts.schema builder "Query" "User" _ result parse_tagsText hbuilder
    hcompiled
  rw [htables, hmapping] at hsame
  exact absurd hsame (by decide +kernel)

end Mapping

end RelationalGraphQL
