import RelationalGraphQL.Proofs.Mapping.Numbering
import RelationalGraphQL.Proofs.Sql.Clause

/-!
# What a mutation writes

A statement that changes rows is read from its text, clause by clause, and its placeholders are looked up in its
parameters. Read that way, a mutation writes each value of its input to the column of its field, and changes or deletes
the rows that its filter picks (`mutation_writes_input`). Nulls are written out and take up no parameter, so the place
of a value in the input is not that of its parameter; what holds instead is that the operand of an entry stands for its
value in every longer list of parameters (`bindInput_mapM`).
-/

namespace RelationalGraphQL.Mapping

variable {bound bound' parameters : Parameters} {input : List (String × Json)} {values : List (String × Operand)}

open Arguments (LoweredGroups ColumnResolver except_bind_eq_ok filterTruth joinedText? lowerFilter_lowered writtenTruth)
open Sql (Clauses Column Continues Fragment Inner IsInner Operand Parameters Says Test Token Truth Value pickedTruth
  quoteIdentifier quoteQualified)

/-! ### The values of an input -/

theorem marshal_value? {value : Json} {operand : Operand}
    (hmarshal : Parameters.marshal value bound = (operand, bound')) (hparameters : bound' <+: parameters) :
    operand.value? parameters = some (Value.ofJson value) := by
  unfold Parameters.marshal at hmarshal
  split at hmarshal <;> cases hmarshal
  · rfl
  · obtain ⟨rest, rfl⟩ := hparameters
    simp [Operand.value?, Parameters.value?]

/-- The operands of an input stand for its values, also when more parameters are bound later. -/
theorem bindInput_mapM {α : Type} (read : String → Value → α) (hbind : bindInput input bound = (values, bound'))
    (hparameters : bound' <+: parameters) :
    values.mapM (fun entry => (entry.2.value? parameters).map (read entry.1)) =
      some (input.map fun entry => read entry.1 (Value.ofJson entry.2)) := by
  induction input generalizing bound values with
  | nil =>
    cases hbind
    rfl
  | cons entry rest ih =>
    obtain ⟨operand, middle, operands, hmarshal, hrest, rfl⟩ := bindInput_cons hbind
    have hkeeps := (bindInput_added hrest).1.trans hparameters
    rw [List.mapM_cons, ih hrest, marshal_value? hmarshal hkeeps]
    rfl

theorem bindInput_fields (hbind : bindInput input bound = (values, bound')) :
    values.map Prod.fst = input.map Prod.fst := by
  induction input generalizing bound values with
  | nil =>
    cases hbind
    rfl
  | cons entry rest ih =>
    obtain ⟨operand, middle, operands, -, hrest, rfl⟩ := bindInput_cons hbind
    rw [List.map_cons, List.map_cons, ih hrest]

/-- The column of a field as it is written. -/
def writtenColumn (mapping : Mapping) (typeName fieldName : String) : String :=
  quoteIdentifier (mapping.columnName typeName fieldName)

/-- The columns of an input with their values. -/
def writtenEntries (mapping : Mapping) (typeName : String) (input : List (String × Json)) : List (String × Value) :=
  input.map fun entry => (mapping.writtenColumn typeName entry.1, Value.ofJson entry.2)

section

variable {mapping : Mapping} (hdialect : mapping.dialect = .postgres) {typeName : String} {filter : Json}
  {input : List (String × Json)} {parameters : Parameters} {returning : List String} {result : MutationResult}

include hdialect

/-! ### Insertions -/

theorem returningColumns_postgres (typeName : String) (fields : List String) :
    returningColumns mapping typeName fields = .ok (fields.map (bareColumn mapping typeName)) := by
  rw [returningColumns, hdialect]
  cases fields <;> rfl

theorem requireStatements_postgres : mapping.requireStatements = .ok () := by
  rw [requireStatements, hdialect]
  rfl

theorem insertWith_eq (hinput : input ≠ []) {values : List (String × Operand)}
    (hbind : bindInput input [] = (values, parameters)) (conflict : Option (Sql.Conflict Fragment))
    (returning : List String) :
    insertWith mapping typeName input conflict returning = .ok
      { kind := .insert
        parameters
        sql := Sql.Insert.text
          { table := mapping.tableName typeName
            columns := (values.map fun entry => mapping.columnName typeName entry.1).map quoteIdentifier
            rows := [(values.map Prod.snd).map (Operand.text Sql.Dialect.postgres.placeholder)]
            conflict := conflict.map (Sql.Conflict.map (Fragment.text .postgres))
            returning := (returning.map (mapping.columnName typeName)).map quoteIdentifier } } := by
  have hempty : input.isEmpty = false := by simpa using hinput
  simp only [insertWith, hempty, hbind, requireStatements_postgres hdialect, returningColumns_postgres hdialect, hdialect,
    List.map_map]
  simp only [bind, Except.bind, pure, Except.pure, Sql.Insert.map, List.map_map, List.map_cons, List.map_nil]
  rfl

theorem says_insertWith (hinput : input ≠ []) (conflict : Option (Sql.Conflict Fragment)) {onConflict : Clauses}
    (hconflict :
      Continues ((conflict.map (Sql.Conflict.map (Fragment.text .postgres))).elim "" Sql.Conflict.text) onConflict)
    (returning : List String) :
    ∃ result columns operands, insertWith mapping typeName input conflict returning = .ok result ∧
      let clauses := Sql.insertionClauses (mapping.tableName typeName) columns operands
        (onConflict ++ Sql.returnedClause (returning.map (mapping.columnName typeName)))
      Sql.clauses result.sql = some clauses ∧
      clauses.insertion? result.parameters =
        some (quoteQualified (mapping.tableName typeName), mapping.writtenEntries typeName input) := by
  rcases hbind : bindInput input [] with ⟨values, parameters⟩
  have hfields := bindInput_fields hbind
  have hvalues : values ≠ [] := by
    rintro rfl
    exact hinput (List.map_eq_nil_iff.1 hfields.symm)
  have hwritten : (values.map Prod.snd).mapM (Operand.value? parameters) =
      some (input.map fun entry => Value.ofJson entry.2) := by
    simpa [List.mapM_map, Function.comp_def] using bindInput_mapM (fun _ value => value) hbind List.prefix_rfl
  have hcolumns : (values.map fun entry => mapping.columnName typeName entry.1) =
      input.map fun entry => mapping.columnName typeName entry.1 := by
    simpa [Function.comp_def] using congrArg (List.map (mapping.columnName typeName)) hfields
  refine ⟨_, _, _, insertWith_eq hdialect hinput hbind conflict returning,
    (Sql.Insert.says_text _ _ _ hconflict _).clauses_eq, ?_⟩
  rw [Clauses.insertion?_eq (by simpa using hvalues) (by simpa using hvalues) (by simp [hcolumns]) hwritten, hcolumns,
    List.map_map, List.zip_map']
  rfl

/-! ### Conflicts -/

/-- The columns of an input that are not in conflict, as they are written. -/
def remainingColumns (mapping : Mapping) (typeName : String) (input : List (String × Json)) (conflict : List String) :
    List String :=
  (input.map fun entry => mapping.writtenColumn typeName entry.1).filter fun column =>
    column ∉ conflict.map (mapping.writtenColumn typeName)

omit hdialect in
/-- Names differ exactly if they are written differently. -/
theorem remainingColumns_eq (mapping : Mapping) (typeName : String) (input : List (String × Json))
    (conflict : List String) :
    mapping.remainingColumns typeName input conflict =
      (((Table.keys input).map (mapping.columnName typeName)).filter fun column =>
        !(conflict.map (mapping.columnName typeName)).contains column).map quoteIdentifier := by
  have hmem : ∀ name, quoteIdentifier name ∈ conflict.map (mapping.writtenColumn typeName) ↔
      name ∈ conflict.map (mapping.columnName typeName) := by
    intro name
    simp only [List.mem_map, writtenColumn]
    constructor
    · rintro ⟨field, hfield, heq⟩
      exact ⟨field, hfield, Sql.quoteIdentifier_injective heq⟩
    · rintro ⟨field, hfield, rfl⟩
      exact ⟨field, hfield, rfl⟩
  have hcolumns : (input.map fun entry => mapping.writtenColumn typeName entry.1) =
      ((Table.keys input).map (mapping.columnName typeName)).map quoteIdentifier := by
    simp only [Table.keys, List.map_map]
    rfl
  rw [remainingColumns, hcolumns, List.filter_map]
  refine congrArg (List.map quoteIdentifier) (List.filter_congr fun name _ => ?_)
  simp only [Function.comp_apply, hmem, List.contains_eq_mem, decide_not]

omit hdialect in
/-- The action on a conflict, as it is written. -/
theorem conflictAction_continues (mapping : Mapping) (typeName : String) (input : List (String × Json))
    (conflict : List String) (update : Bool) :
    let remaining := mapping.remainingColumns typeName input conflict
    ∃ after,
      Continues ((conflictAction mapping typeName input conflict update).map (Fragment.text .postgres)).text after ∧
      if update = true ∧ remaining ≠ [] then
        ∃ found, after = [("DO", []), ("UPDATE", []), ("SET", found)] ∧
          (Sql.listed found).mapM (Sql.assignment? Sql.onlyName?) =
            some (remaining.map fun column => (column, "EXCLUDED." ++ column))
      else after = [("DO", [.name "NOTHING"])] := by
  intro remaining
  have hremaining : remaining = _ := mapping.remainingColumns_eq typeName input conflict
  generalize hothers : (((Table.keys input).map (mapping.columnName typeName)).filter fun column =>
    !(conflict.map (mapping.columnName typeName)).contains column) = others at hremaining
  have haction : conflictAction mapping typeName input conflict update =
      if !update || others.isEmpty then .nothing
      else .update (others.map fun column => (.column { name := column }, .excluded column)) [] := by
    rw [conflictAction, hothers]
  rw [haction]
  by_cases hupdates : update = true ∧ remaining ≠ []
  · have hne : others ≠ [] := by
      rintro rfl
      exact hupdates.2 hremaining
    rw [if_neg (by simp [hupdates.1, hne]), Sql.ConflictAction.map, List.map_map]
    refine ⟨_, Sql.ConflictAction.continues_update others, ?_⟩
    rw [if_pos hupdates]
    refine ⟨_, rfl, ?_⟩
    rw [Sql.mapM_assignmentTokens (by simpa using hne) (by simp), List.mapM_map, hremaining, List.map_map]
    exact List.mapM_pure
  · have hnothing : (!update || others.isEmpty) = true := by
      cases update with
      | false => rfl
      | true =>
        have hnil : remaining = [] := by simpa using hupdates
        simpa [hnil] using hremaining
    rw [if_pos hnothing]
    exact ⟨_, Sql.ConflictAction.continues_nothing, by rw [if_neg hupdates]⟩

/-! ### Conditions -/

omit hdialect in
theorem inner_initial (typeName : String) : Inner (initial typeName) [.name (initial typeName)] := by
  obtain ⟨c, hchars, hlower⟩ := initial_toList typeName
  have hparameter : Sql.parameterOf? [c] = none := by
    unfold Sql.parameterOf?
    split
    · rename_i hdollar
      cases hdollar
      rfl
    · rfl
  -- no keyword is a single letter
  have hkeyword : Sql.Keyword.ofWord? (initial typeName) = none := by
    refine List.find?_eq_none.2 fun word _ heq => ?_
    have hlength : word.text.toList.length = 1 := by
      rw [of_decide_eq_true heq]
      simp [Sql.upperAscii, hchars]
    cases word <;> exact absurd hlength (by decide)
  have hword : Sql.continuesWord false (initial typeName).toList :=
    Sql.continuesWord_of_isAlphanum (Sql.isAlphanum_of_isAlias (initial_isAlias typeName))
  refine ⟨?_, List.forall_mem_singleton.2 (if_neg ?_)⟩
  · rw [Sql.tokens_word (by simp [hchars]) hword, Sql.Token.ofWord, String.ofList_toList, hkeyword, hchars, hparameter]
  · rw [List.contains_iff_mem]
    have hlengths : ∀ word ∈ Sql.clauseWords, word.toList.length ≠ 1 := by decide
    exact fun hmem => hlengths _ hmem (by simp [hchars])

/-- A column under the alias of its table, as it is written. -/
def aliasedColumn (mapping : Mapping) (typeName fieldName : String) : String :=
  initial typeName ++ "." ++ mapping.writtenColumn typeName fieldName

omit hdialect in
theorem says_mutationConditions {bound bound' : Parameters} {conditions : List Fragment}
    (hconditions : mutationConditions mapping typeName (initial typeName) filter bound = .ok (conditions, bound')) :
    ∃ found, Continues (Sql.clause "\nWHERE " " AND " (conditions.map (Fragment.text .postgres)))
        (Sql.pickingClause found) ∧
      ∀ outcome, pickedTruth outcome bound' found =
        some (filterTruth (fun field => outcome (mapping.aliasedColumn typeName field)) filter) := by
  simp only [mutationConditions, except_bind_eq_ok, Prod.exists] at hconditions
  obtain ⟨lowered, final, hlowered, hresult⟩ := hconditions
  cases hresult
  have halias := initial_isAlias typeName
  have hword : (Sql.Qualifier.aliased (initial typeName)).IsWord :=
    Sql.continuesWord_of_isAlphanum (Sql.isAlphanum_of_isAlias halias)
  let resolver :=
    ColumnResolver.ofMapping mapping typeName (some (.aliased (initial typeName))) (by rintro _ ⟨⟩; exact hword)
  have hlowered : Arguments.Lowered resolver.column bound lowered bound' _ := lowerFilter_lowered hlowered
  have htruth : ∀ outcome, writtenTruth outcome bound' (joinedText? " AND " _) =
      some (filterTruth (fun field => outcome (resolver.text (resolver.column field))) filter) :=
    fun outcome => hlowered.group.writtenTruth_eq Sql.joins_and outcome
  by_cases hnil : lowered = []
  · subst hnil
    exact ⟨none, Sql.continues_picking (.inl ⟨rfl, rfl⟩), htruth⟩
  · have hempty : lowered.isEmpty = false := by simpa using hnil
    have hnames : ∀ c, (∃ field, resolver.column field = c) → IsInner (resolver.text c) := by
      rintro _ ⟨field, rfl⟩
      refine ⟨_, .name (resolver.isName field) ?_⟩
      simp only [resolver, ColumnResolver.ofMapping, column, Column.text, String.toList_append, List.mem_append]
      exact .inr (Sql.mem_quoteIdentifier _)
    obtain ⟨found, hfound⟩ := Sql.IsInner.composes.conjunction hnames hlowered.readable
    rw [hempty, if_neg Bool.false_ne_true]
    refine ⟨some found, Sql.continues_picking (.inr ⟨_, found, rfl, rfl, hfound⟩), fun outcome => ?_⟩
    have hread := htruth outcome
    simp only [hempty, Bool.false_eq_true, if_false, List.map_cons, List.map_nil, joinedText?, List.isEmpty_cons,
      String.intercalate_singleton, writtenTruth, Sql.readFormula_eq] at hread
    rw [hfound.tokens] at hread
    exact hread

/-- Whether clauses pick the rows of a filter: their condition means the filter, and if they have none, the filter
constrains nothing. -/
def Picks (mapping : Mapping) (typeName : String) (filter : Json) (clauses : Clauses) (parameters : Parameters) : Prop :=
  (∀ outcome, clauses.conditionTruth outcome parameters =
    some (filterTruth (fun field => outcome (mapping.aliasedColumn typeName field)) filter)) ∧
  (clauses.lookup "WHERE" = none →
    ∀ outcome : String → Test Value → Truth,
      filterTruth (fun field => outcome (mapping.aliasedColumn typeName field)) filter = .true)

omit hdialect in
theorem picks_of_lookup {clauses : Clauses} {found : Option (List Token)} (hlookup : clauses.lookup "WHERE" = found)
    (hfound : ∀ outcome, pickedTruth outcome parameters found =
      some (filterTruth (fun field => outcome (mapping.aliasedColumn typeName field)) filter)) :
    mapping.Picks typeName filter clauses parameters := by
  subst hlookup
  refine ⟨hfound, fun hnone outcome => ?_⟩
  have htruth := hfound outcome
  rw [hnone] at htruth
  exact (Option.some.inj htruth).symm

theorem says_compileUpdate {set : List (String × Json)}
    (hcompiled : compileUpdate mapping typeName set filter returning = .ok result) :
    ∃ clauses, Sql.clauses result.sql = some clauses ∧
      clauses.lookup "UPDATE" = some [.name (quoteQualified (mapping.tableName typeName)), .name (initial typeName)] ∧
      clauses.assignments? (Sql.expression? result.parameters) = some (mapping.writtenEntries typeName set) ∧
      mapping.Picks typeName filter clauses result.parameters := by
  rcases hbind : bindInput set [] with ⟨values, bound⟩
  simp only [compileUpdate, hbind] at hcompiled
  split at hcompiled
  · cases hcompiled
  · rename_i hempty
    simp only [returningColumns_postgres hdialect, except_bind_eq_ok, Prod.exists] at hcompiled
    obtain ⟨⟨⟩, -, columns, hcolumns, conditions, parameters, hconditions, hresult⟩ := hcompiled
    cases hcolumns
    obtain ⟨found, hpicking, hfound⟩ := says_mutationConditions hconditions
    have hsaid := Sql.Update.says_text (mapping.tableName typeName) (inner_initial typeName)
      (values.map fun entry => (mapping.columnName typeName entry.1, entry.2)) hpicking
      (returning.map (mapping.columnName typeName))
    simp only [List.map_map] at hsaid
    cases hresult
    simp only [hdialect, Sql.Update.map, List.map_map]
    refine ⟨_, hsaid.clauses_eq, rfl, ?_, picks_of_lookup (Sql.lookup_picking found _) hfound⟩
    have hvalues : values ≠ [] := by
      rintro rfl
      exact hempty (by simpa using (bindInput_fields hbind).symm)
    have hread := bindInput_mapM (fun field value => (mapping.writtenColumn typeName field, value)) hbind
      (mutationConditions_added hconditions).1
    change (Sql.listed (Sql.assignmentTokens _)).mapM (Sql.assignment? (Sql.expression? parameters)) = _
    rw [Sql.mapM_assignmentTokens (by simpa using hvalues) (List.forall_mem_map.2 fun entry _ => entry.2.token_ne_comma),
      List.mapM_map]
    simp only [Function.comp_def, Operand.expression?_token]
    exact hread

theorem says_compileDelete (hcompiled : compileDelete mapping typeName filter returning = .ok result) :
    ∃ clauses, Sql.clauses result.sql = some clauses ∧
      clauses.lookup "FROM" = some [.name (quoteQualified (mapping.tableName typeName)), .name (initial typeName)] ∧
      mapping.Picks typeName filter clauses result.parameters := by
  simp only [compileDelete, returningColumns_postgres hdialect, except_bind_eq_ok, Prod.exists] at hcompiled
  obtain ⟨⟨⟩, -, columns, hcolumns, conditions, parameters, hconditions, hresult⟩ := hcompiled
  cases hcolumns
  obtain ⟨found, hpicking, hfound⟩ := says_mutationConditions hconditions
  have hsaid := Sql.Delete.says_text (mapping.tableName typeName) (inner_initial typeName) hpicking
    (returning.map (mapping.columnName typeName))
  simp only [List.map_map] at hsaid
  cases hresult
  simp only [hdialect, Sql.Delete.map, List.map_map]
  exact ⟨_, hsaid.clauses_eq, rfl, picks_of_lookup (Sql.lookup_picking found _) hfound⟩

theorem says_compileUpsert {conflict : List String} (hinput : input ≠ []) (hconflict : conflict ≠ []) (update : Bool)
    (returning : List String) :
    ∃ result clauses, compileUpsert mapping typeName input conflict update returning = .ok result ∧
      Sql.clauses result.sql = some clauses ∧
      clauses.insertion? result.parameters =
        some (quoteQualified (mapping.tableName typeName), mapping.writtenEntries typeName input) ∧
      clauses.conflictColumns? = some (conflict.map (mapping.writtenColumn typeName)) ∧
      let remaining := mapping.remainingColumns typeName input conflict
      if update = true ∧ remaining ≠ [] then
        clauses.lookup "DO" = some [] ∧
          clauses.assignments? Sql.onlyName? = some (remaining.map fun column => (column, "EXCLUDED." ++ column))
      else clauses.lookup "DO" = some [.name "NOTHING"] ∧ clauses.lookup "SET" = none := by
  obtain ⟨after, hafter, haction⟩ := conflictAction_continues mapping typeName input conflict update
  have hcolumns : conflict.map (mapping.columnName typeName) ≠ [] := by simpa using hconflict
  let onConflict : Sql.Conflict Fragment :=
    { columns := conflict.map (bareColumn mapping typeName)
      action := conflictAction mapping typeName input conflict update }
  let named := Sql.parenthesized (Sql.commaTokens (Sql.quotedNames (conflict.map (mapping.columnName typeName))))
  have honConflict : Continues (onConflict.map (Fragment.text .postgres)).text
      (("ON", []) :: ("CONFLICT", named) :: after) := by
    have hcontinues := Sql.Conflict.continues hcolumns hafter
    rw [List.map_map] at hcontinues
    rw [Sql.Conflict.map, List.map_map]
    exact hcontinues
  have hcompiled : compileUpsert mapping typeName input conflict update returning =
      insertWith mapping typeName input (some onConflict) returning := by
    have hempty : conflict.isEmpty = false := by simpa using hconflict
    simp only [compileUpsert, hdialect, hempty]
    rfl
  obtain ⟨result, columns, operands, hresult, hclauses, hinsertion⟩ :=
    says_insertWith hdialect hinput (some onConflict) honConflict returning
  refine ⟨result, _, hcompiled.trans hresult, hclauses, hinsertion, ?_, ?_⟩
  · change ((Sql.enclosed? (Sql.parenthesized _)).bind fun found => (Sql.listed found).mapM Sql.onlyName?) = _
    rw [Sql.parenthesized, Sql.enclosed?_enclosed, Option.bind_some, Sql.mapM_quotedNames hcolumns, List.map_map]
    rfl
  · intro remaining
    split
    · rename_i hupdates
      rw [if_pos hupdates] at haction
      obtain ⟨found, rfl, hfound⟩ := haction
      exact ⟨rfl, hfound⟩
    · rename_i hupdates
      rw [if_neg hupdates] at haction
      subst haction
      refine ⟨rfl, ?_⟩
      cases returning <;> rfl

end

/-- Mutations write each value to its own column and touch the rows that their filter picks. The text of an insertion
lists the columns of the input in its order, and as many expressions, each of which stands for the value of its entry:
the word for null, or the parameter that it names. An update sets the columns likewise, and the condition of an update
or a deletion, read against the same parameters, means the filter; without a condition the filter constrains nothing.
On a conflict, the columns that are not in conflict are overwritten, each with the value proposed for it, and nothing is
done if there are none or no update is asked for. -/
theorem mutation_writes_input (mapping : Mapping) (hdialect : mapping.dialect = .postgres) (typeName : String)
    (returning : List String) :
    let table := quoteQualified (mapping.tableName typeName)
    (∀ input, input ≠ [] → ∃ result clauses, compileInsert mapping typeName input returning = .ok result ∧
      Sql.clauses result.sql = some clauses ∧
      clauses.insertion? result.parameters = some (table, mapping.writtenEntries typeName input) ∧
      clauses.lookup "CONFLICT" = none) ∧
    (∀ input conflict update, input ≠ [] → conflict ≠ [] →
      ∃ result clauses, compileUpsert mapping typeName input conflict update returning = .ok result ∧
        Sql.clauses result.sql = some clauses ∧
        clauses.insertion? result.parameters = some (table, mapping.writtenEntries typeName input) ∧
        clauses.conflictColumns? = some (conflict.map (mapping.writtenColumn typeName)) ∧
        let remaining := mapping.remainingColumns typeName input conflict
        if update = true ∧ remaining ≠ [] then
          clauses.lookup "DO" = some [] ∧
            clauses.assignments? Sql.onlyName? = some (remaining.map fun column => (column, "EXCLUDED." ++ column))
        else clauses.lookup "DO" = some [.name "NOTHING"] ∧ clauses.lookup "SET" = none) ∧
    (∀ set filter result, compileUpdate mapping typeName set filter returning = .ok result →
      ∃ clauses, Sql.clauses result.sql = some clauses ∧
        clauses.lookup "UPDATE" = some [.name table, .name (initial typeName)] ∧
        clauses.assignments? (Sql.expression? result.parameters) = some (mapping.writtenEntries typeName set) ∧
        mapping.Picks typeName filter clauses result.parameters) ∧
    (∀ filter result, compileDelete mapping typeName filter returning = .ok result →
      ∃ clauses, Sql.clauses result.sql = some clauses ∧
        clauses.lookup "FROM" = some [.name table, .name (initial typeName)] ∧
        mapping.Picks typeName filter clauses result.parameters) := by
  refine ⟨fun input hinput => ?_, ?_, ?_, ?_⟩
  · obtain ⟨result, columns, operands, hresult, hclauses, hinsertion⟩ :=
      says_insertWith hdialect hinput none Continues.nil returning
    refine ⟨result, _, hresult, hclauses, hinsertion, ?_⟩
    cases returning <;> rfl
  · intro input conflict update hinput hconflict
    exact says_compileUpsert hdialect hinput hconflict update returning
  · intro set filter result hcompiled
    exact says_compileUpdate hdialect hcompiled
  · intro filter result hcompiled
    exact says_compileDelete hdialect hcompiled

/-- The null in front binds nothing, so the first parameter is that of the second column. The key of the update is also
one of the values it sets, and the filter's operand is the third parameter. -/
theorem mutation_writes_input_null :
    let users : Mapping := { schema := {}, dialect := .postgres }
    let input : List (String × Json) := [("bio", .null), ("id", .num (.int 7)), ("name", .str "a")]
    let written : List (String × Value) := [("\"bio\"", .null), ("\"id\"", .integer 7), ("\"name\"", .text "a")]
    users.dialect = .postgres ∧ input ≠ [] ∧
    (∃ result clauses, compileUpsert users "User" input ["id"] true ["id"] = .ok result ∧
      Sql.clauses result.sql = some clauses ∧ clauses.insertion? result.parameters = some ("\"user\"", written) ∧
      clauses.assignments? Sql.onlyName? =
        some [("\"bio\"", "EXCLUDED.\"bio\""), ("\"name\"", "EXCLUDED.\"name\"")]) ∧
    ∃ result clauses,
      compileUpdate users "User" input (.obj [("id", .num (.int 8))]) ["id"] = .ok result ∧
      result.parameters = [.integer 7, .text "a", .integer 8] ∧ Sql.clauses result.sql = some clauses ∧
      clauses.assignments? (Sql.expression? result.parameters) = some written ∧
      ∀ outcome, clauses.conditionTruth outcome result.parameters =
        some ((outcome "u.\"id\"" (.compare .eq (.integer 8))).and .true) := by
  intro users input written
  have htable : quoteQualified (users.tableName "User") = "\"user\"" := by decide +kernel
  have hcolumns : ["bio", "id", "name"].map (users.writtenColumn "User") = ["\"bio\"", "\"id\"", "\"name\""] := by
    decide +kernel
  have hwritten : users.writtenEntries "User" input = written :=
    congrArg (fun columns : List String => columns.zip [Value.null, .integer 7, .text "a"]) hcolumns
  have hremaining : users.remainingColumns "User" input ["id"] = ["\"bio\"", "\"name\""] := by decide +kernel
  have hid : users.aliasedColumn "User" "id" = "u.\"id\"" := by decide +kernel
  obtain ⟨-, hupsert, hupdate, -⟩ := mutation_writes_input users rfl "User" ["id"]
  obtain ⟨result, clauses, hresult, hclauses, hinsertion, -, haction⟩ :=
    hupsert input ["id"] true (by simp [input]) (by simp)
  obtain ⟨clauses', hclauses', -, hset, hpicks, -⟩ := hupdate input (.obj [("id", .num (.int 8))]) _ rfl
  rw [htable, hwritten] at hinsertion
  rw [hremaining, if_pos (by decide)] at haction
  refine ⟨rfl, by simp [input], ⟨result, clauses, hresult, hclauses, hinsertion, haction.2⟩, _, clauses', rfl, rfl,
    hclauses', hwritten ▸ hset, fun outcome => ?_⟩
  rw [← hid]
  exact hpicks outcome

end RelationalGraphQL.Mapping
