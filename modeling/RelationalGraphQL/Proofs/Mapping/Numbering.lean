import RelationalGraphQL.Mapping.Mutation
import RelationalGraphQL.Proofs.Mapping.Alias
import RelationalGraphQL.Proofs.Mapping.Walk

/-!
# The numbering of parameters

Parameters are bound while a selection is walked, subqueries first and the arguments of the root last, and printed
clause after clause. The two orders agree: the joins of every draft name exactly the parameters bound so far, in order
(`Draft.Numbered`), and each statement names the parameters it is handed one after the other.
-/

namespace RelationalGraphQL.Mapping

variable {typeName : String} {returning : List String} {result : MutationResult} {input : List (String × Json)}
  {filter : Json} {parent : Source} {columns : List Column}

open Arguments (RowChoice added added_append added_self except_bind_eq_ok lowerFilter_lowered orderArgument_columns
  readRowChoice readRowChoice_lowered readRowChoice_run_eq_ok)
open Sql (Column Condition Fragment Join Parameters Places Qualifier Subquery)

/-! ### Fragments of a row choice -/

theorem worded_of_alias {name columnName : String} (hname : Sql.isAlias name) :
    Column.Worded { qualifier := some (.aliased name), name := columnName } := by
  rintro _ ⟨⟩
  exact hname

theorem column_worded {mapping : Mapping} {qualifier : Option Qualifier} (hqualifier : ∀ q ∈ qualifier, q.Worded)
    (fieldName : String) : (mapping.column typeName qualifier fieldName).Worded :=
  hqualifier

section

variable {column : String → Column} {arguments : List (String × Json)} {choice : RowChoice Column}
  {bound bound' : Parameters}

/-- The conditions of a row choice name the parameters that were bound for it. -/
theorem positions_conditions (hread : (readRowChoice arguments column).run bound = .ok (choice, bound')) :
    (choice.conditions.map Fragment.conjunction).flatMap Fragment.positions = added bound bound' := by
  rw [← (readRowChoice_lowered hread).flat.positions, Condition.positions_flatten, List.flatMap_map]
  rfl

theorem written_conditions (hcolumn : ∀ field, (column field).Worded)
    (hread : (readRowChoice arguments column).run bound = .ok (choice, bound')) :
    ∀ fragment ∈ choice.conditions.map Fragment.conjunction, fragment.Written := by
  intro fragment hfragment
  obtain ⟨group, hgroup, rfl⟩ := List.mem_map.1 hfragment
  intro condition hcondition
  have hreadable := (readRowChoice_lowered hread).flat.readable condition (List.mem_flatten.2 ⟨group, hgroup, hcondition⟩)
  refine hreadable.mono ?_
  rintro _ ⟨field, rfl⟩
  exact hcolumn field

theorem written_order (hcolumn : ∀ field, (column field).Worded)
    (hread : (readRowChoice arguments column).run bound = .ok (choice, bound')) :
    ∀ fragment ∈ (orderFragments choice.order).map Sql.OrderItem.column,
      fragment.Written ∧ fragment.positions = [] := by
  intro fragment hfragment
  simp only [orderFragments, List.map_map, List.mem_map] at hfragment
  obtain ⟨item, hitem, rfl⟩ := hfragment
  obtain ⟨_, _, _, _, _, -, -, -, -, horder, -⟩ := readRowChoice_run_eq_ok.1 hread
  obtain ⟨field, hfield⟩ := orderArgument_columns horder item hitem
  refine ⟨?_, rfl⟩
  change item.column.Worded
  rw [← hfield]
  exact hcolumn field

end

/-! ### Drafts -/

/-- Every alias looks like one, every fragment can be written, and the joins name the parameters bound so far in order. -/
structure Draft.Numbered (draft : Draft) : Prop where
  aliases : ∀ name ∈ draft.aliases, Sql.isAlias name
  columns : ∀ column ∈ draft.columns, column.Written ∧ column.positions = []
  names : ∀ join ∈ draft.joins, Places join.aliasName []
  written : ∀ fragment ∈ draft.joins.flatMap Join.fragments, fragment.Written
  positions : (draft.joins.flatMap Join.fragments).flatMap Fragment.positions = added [] draft.parameters

theorem leafOutput_written (joined : Bool) (source : Source) (field : SelectedField) {column : Column}
    (hcolumn : column.Worded) :
    (leafOutput joined source column field).Written ∧ (leafOutput joined source column field).positions = [] := by
  unfold leafOutput
  split
  · exact ⟨hcolumn, rfl⟩
  · split
    · split
      · exact ⟨hcolumn, rfl⟩
      · exact ⟨hcolumn, rfl⟩
    · exact ⟨hcolumn, rfl⟩

theorem correlation_written (relation : Relation) (hparent : Sql.isAlias parent.aliasName) :
    (∀ qualifier ∈ (correlation parent relation).1, qualifier.Worded) ∧
      (∀ source ∈ (correlation parent relation).2.1, source.Written ∧ source.positions = []) ∧
        (correlation parent relation).2.2.Written ∧ (correlation parent relation).2.2.positions = [] := by
  have hcolumn : Column.Worded { qualifier := some (.aliased parent.aliasName), name := relation.sourceColumn } :=
    worded_of_alias hparent
  unfold correlation
  cases relation.link with
  | none => exact ⟨by simp, by simp, ⟨by rintro _ ⟨⟩, hcolumn⟩, rfl⟩
  | some link =>
    refine ⟨?_, ?_, ⟨?_, hcolumn⟩, rfl⟩
    · rintro _ ⟨⟩
      trivial
    · rintro _ ⟨⟩
      exact ⟨trivial, rfl⟩
    · rintro _ ⟨⟩
      trivial

theorem mem_foldl_distinct {seen : List Column} {column : Column}
    (hcolumn : column ∈ columns.foldl (fun seen column => if column ∈ seen then seen else seen ++ [column]) seen) :
    column ∈ seen ∨ column ∈ columns := by
  induction columns generalizing seen with
  | nil => exact .inl hcolumn
  | cons first rest ih =>
    rw [List.foldl_cons] at hcolumn
    rcases ih hcolumn with hseen | hrest
    · split at hseen
      · exact .inl hseen
      · rw [List.mem_append, List.mem_singleton] at hseen
        rcases hseen with hseen | rfl
        · exact .inl hseen
        · exact .inr List.mem_cons_self
    · exact .inr (List.mem_cons_of_mem _ hrest)

theorem mem_of_mem_distinctColumns {column : Column} (hcolumn : column ∈ distinctColumns columns) :
    column ∈ columns := by
  rcases mem_foldl_distinct hcolumn with hseen | hmem
  · cases hseen
  · exact hmem

theorem flatMap_positions_eq_nil {fragments : List Fragment} (hfragments : ∀ f ∈ fragments, f.positions = []) :
    fragments.flatMap Fragment.positions = [] := List.flatMap_eq_nil_iff.2 hfragments

/-- The subquery of a to-many relation names the parameters that were bound for the arguments of its field. -/
theorem lateralJoined_fragments {mapping : Mapping} {target : Source} {relation : Relation}
    (children : List SelectedField) {arguments : List (String × Json)} {choice : RowChoice Column}
    {bound bound' : Parameters} (hparent : Sql.isAlias parent.aliasName)
    (hread : (readRowChoice arguments (mapping.column target.typeName (correlation parent relation).1)).run bound =
      .ok (choice, bound')) :
    (∀ fragment ∈ (lateralJoined mapping parent relation target children choice).fragments, fragment.Written) ∧
      (lateralJoined mapping parent relation target children choice).fragments.flatMap Fragment.positions =
        added bound bound' := by
  obtain ⟨hqualifier, hsource, htie⟩ := correlation_written relation hparent
  have hcolumn : ∀ field, (mapping.column target.typeName (correlation parent relation).1 field).Worded :=
    column_worded hqualifier
  have hcolumns : ∀ fragment ∈ (distinctColumns ((lateralFields mapping target.typeName children).map fun leaf =>
      mapping.column target.typeName (correlation parent relation).1 leaf.name)).map Fragment.column,
      fragment.Written ∧ fragment.positions = [] := by
    intro fragment hfragment
    obtain ⟨column, hmem, rfl⟩ := List.mem_map.1 hfragment
    obtain ⟨leaf, -, rfl⟩ := List.mem_map.1 (mem_of_mem_distinctColumns hmem)
    exact ⟨hcolumn leaf.name, rfl⟩
  have horder := written_order hcolumn hread
  have hconditions := written_conditions hcolumn hread
  have hon : ∀ fragment ∈ (if relation.joinKind = .inner then none else some Fragment.always).toList,
      fragment.Written ∧ fragment.positions = [] := by
    split
    · simp
    · simpa using ⟨trivial, rfl⟩
  unfold lateralJoined Join.fragments Subquery.fragments
  constructor
  · intro fragment hfragment
    simp only [Option.elim_some, List.mem_append, List.mem_cons, Option.mem_toList] at hfragment
    rcases hfragment with (hmem | hmem | (rfl | hmem) | hmem) | hmem
    · exact (hcolumns fragment hmem).1
    · exact (hsource fragment hmem).1
    · exact htie.1
    · exact hconditions fragment hmem
    · exact (horder fragment hmem).1
    · exact (hon fragment (Option.mem_toList.2 hmem)).1
  · simp only [Option.elim_some, List.flatMap_append, List.flatMap_cons]
    rw [flatMap_positions_eq_nil fun fragment hmem => (hcolumns fragment hmem).2,
      flatMap_positions_eq_nil fun fragment hmem => (hsource fragment (Option.mem_toList.1 hmem)).2, htie.2,
      positions_conditions hread, flatMap_positions_eq_nil fun fragment hmem => (horder fragment hmem).2,
      flatMap_positions_eq_nil fun fragment hmem => (hon fragment hmem).2]
    simp

namespace Draft.Numbered

variable {mapping : Mapping} {draft draft' : Draft}

theorem joined (hdraft : draft.Numbered) {join : Join Fragment} {aliasName : String} {columns : List Fragment}
    {parameters : Parameters} (halias : Sql.isAlias aliasName) (hname : join.aliasName = aliasName)
    (hcolumns : ∀ column ∈ columns, column.Written ∧ column.positions = []) (hkeeps : draft.parameters <+: parameters)
    (hwritten : ∀ fragment ∈ join.fragments, fragment.Written)
    (hpositions : join.fragments.flatMap Fragment.positions = added draft.parameters parameters) :
    Draft.Numbered
      { columns := draft.columns ++ columns, joins := draft.joins ++ [join], aliases := aliasName :: draft.aliases
        parameters } where
  aliases := List.forall_mem_cons.2 ⟨halias, hdraft.aliases⟩
  columns := List.forall_mem_append.2 ⟨hdraft.columns, hcolumns⟩
  names := by
    refine List.forall_mem_append.2 ⟨hdraft.names, List.forall_mem_singleton.2 ?_⟩
    rw [hname]
    exact Sql.places_part (.inl halias)
  written := by
    rw [List.flatMap_append, List.flatMap_singleton]
    exact List.forall_mem_append.2 ⟨hdraft.written, hwritten⟩
  positions := by
    rw [List.flatMap_append, List.flatMap_singleton, List.flatMap_append, hdraft.positions, hpositions]
    exact added_append (List.nil_prefix) hkeeps

theorem step (hdraft : draft.Numbered) (hstep : draft.Step mapping draft') : draft'.Numbered := by
  cases hstep with
  | leaf joined source field hsource =>
    have hworded : (mapping.column source.typeName (some (.aliased source.aliasName)) field.name).Worded :=
      worded_of_alias (hdraft.aliases _ hsource)
    have hcolumn := leafOutput_written joined source field hworded
    exact { hdraft with columns := List.forall_mem_append.2 ⟨hdraft.columns, List.forall_mem_singleton.2 hcolumn⟩ }
  | single parent field relation hparent hrelation hsingle =>
    have halias := freshAlias_isAlias draft.aliases field.responseKey
    have hwritten : ∀ fragment ∈ (singleJoin parent relation (freshAlias draft.aliases field.responseKey)).fragments,
        fragment.Written ∧ fragment.positions = [] := by
      simp only [singleJoin, Join.fragments, Option.elim_none, List.nil_append, Option.toList_some, List.forall_mem_singleton]
      exact ⟨⟨worded_of_alias (hdraft.aliases _ hparent), worded_of_alias halias⟩, rfl⟩
    have hpositions := flatMap_positions_eq_nil fun fragment hmem => (hwritten fragment hmem).2
    have hnone : ∀ column ∈ ([] : List Fragment), column.Written ∧ column.positions = [] := by simp
    simpa using hdraft.joined halias rfl hnone List.prefix_rfl (fun fragment hmem => (hwritten fragment hmem).1)
      (by rw [hpositions, added_self])
  | lateral parent field relation target children choice parameters hparent hrelation hlateral htarget hread =>
    have halias : Sql.isAlias target.aliasName := by
      rw [htarget]
      exact freshAlias_isAlias draft.aliases field.responseKey
    have hcolumns : ∀ column ∈ lateralOutputs mapping target children, column.Written ∧ column.positions = [] := by
      intro column hcolumn
      obtain ⟨leaf, -, rfl⟩ := List.mem_map.1 hcolumn
      exact ⟨worded_of_alias halias, rfl⟩
    obtain ⟨hwritten, hpositions⟩ := lateralJoined_fragments children (hdraft.aliases _ hparent) hread
    exact hdraft.joined halias rfl hcolumns (readRowChoice_lowered hread).flat.keeps hwritten hpositions

theorem steps (hdraft : draft.Numbered) (hsteps : draft.Steps mapping draft') : draft'.Numbered := by
  induction hsteps with
  | refl => exact hdraft
  | tail _ hstep ih => exact ih.step hstep

theorem root (typeName : String) : (rootDraft typeName).Numbered where
  aliases := by simpa [rootDraft, rootSource] using initial_isAlias typeName
  columns := by simp [rootDraft]
  names := by simp [rootDraft]
  written := by simp [rootDraft]
  positions := (added_self []).symm

end Draft.Numbered

/-! ### Statements -/

theorem places_initial (typeName : String) : ∀ name ∈ some (initial typeName), Places name [] := by
  rintro _ ⟨⟩
  exact Sql.places_part (.inl (initial_isAlias typeName))

theorem compileSelect_places {mapping : Mapping} (hdialect : mapping.dialect = .postgres) {parentType : String}
    {returnType : Option TypeRef} {field : SelectedField} {result : SelectResult}
    (hcompiled : compileSelect mapping parentType returnType field = .ok result) :
    Places result.sql (added [] result.parameters) := by
  obtain ⟨typeName, draft, choice, hcompiled⟩ := compileSelect_eq_ok.1 hcompiled
  have hdraft := (Draft.Numbered.root typeName).steps hcompiled.steps
  have hcolumn : ∀ fieldName, (rootColumn mapping typeName fieldName).Worded := fun _ =>
    worded_of_alias (initial_isAlias typeName)
  have hconditions := written_conditions hcolumn hcompiled.read
  have horder := written_order hcolumn hcompiled.read
  have hwritten : ∀ fragment ∈ (selectStatement mapping typeName draft choice).fragments, fragment.Written := by
    intro fragment hfragment
    simp only [selectStatement, Sql.Select.fragments, List.mem_append, List.not_mem_nil, false_or, or_false,
      Bool.false_eq_true, if_false] at hfragment
    rcases hfragment with hmem | hmem | hmem | hmem
    · exact (hdraft.columns fragment hmem).1
    · exact hdraft.written fragment hmem
    · exact hconditions fragment hmem
    · exact (horder fragment hmem).1
  have hpositions : (selectStatement mapping typeName draft choice).fragments.flatMap Fragment.positions =
      added [] result.parameters := by
    simp only [selectStatement, Sql.Select.fragments, List.flatMap_append, List.nil_append, Bool.false_eq_true,
      if_false, List.append_nil]
    rw [flatMap_positions_eq_nil fun fragment hmem => (hdraft.columns fragment hmem).2, hdraft.positions,
      positions_conditions hcompiled.read, flatMap_positions_eq_nil fun fragment hmem => (horder fragment hmem).2,
      List.nil_append, List.append_nil]
    exact added_append List.nil_prefix (readRowChoice_lowered hcompiled.read).flat.keeps
  rw [hcompiled.sql, hcompiled.statement, hdialect]
  exact Sql.Select.places_text (places_initial typeName) hdraft.names hwritten hpositions

theorem bindInput_cons {entry : String × Json} {bound bound' : Parameters} {values : List (String × Sql.Operand)}
    (hbind : bindInput (entry :: input) bound = (values, bound')) :
    ∃ operand middle operands, Parameters.marshal entry.2 bound = (operand, middle) ∧
      bindInput input middle = (operands, bound') ∧ values = (entry.1, operand) :: operands := by
  cases hbind
  exact ⟨_, _, _, rfl, rfl, rfl⟩

theorem bindInput_added {bound bound' : Parameters} {values : List (String × Sql.Operand)}
    (hbind : bindInput input bound = (values, bound')) :
    bound <+: bound' ∧ values.flatMap (fun value => (Fragment.operand value.2).positions) = added bound bound' := by
  induction input generalizing bound values with
  | nil =>
    cases hbind
    exact ⟨List.prefix_rfl, (added_self _).symm⟩
  | cons entry rest ih =>
    obtain ⟨operand, middle, operands, hmarshal, hrest, rfl⟩ := bindInput_cons hbind
    obtain ⟨hkeeps, hpositions⟩ := ih hrest
    have hhead : bound <+: middle ∧ (Fragment.operand operand).positions = added bound middle := by
      unfold Parameters.marshal at hmarshal
      split at hmarshal <;> cases hmarshal
      · exact ⟨List.prefix_rfl, (added_self bound).symm⟩
      · exact ⟨List.prefix_append _ _, by simp [Fragment.positions, added]⟩
    refine ⟨hhead.1.trans hkeeps, ?_⟩
    rw [List.flatMap_cons, hhead.2, hpositions, added_append hhead.1 hkeeps]

theorem bareColumn_written (mapping : Mapping) (typeName fieldName : String) :
    (bareColumn mapping typeName fieldName).Written ∧ (bareColumn mapping typeName fieldName).positions = [] :=
  ⟨by rintro _ ⟨⟩, rfl⟩

theorem returningColumns_written {mapping : Mapping} {fields : List String} {columns : List Fragment}
    (hreturning : returningColumns mapping typeName fields = .ok columns) :
    ∀ column ∈ columns, column.Written ∧ column.positions = [] := by
  unfold returningColumns at hreturning
  split at hreturning
  · cases hreturning
    simp
  · split at hreturning
    · cases hreturning
    · cases hreturning
      exact List.forall_mem_map.2 fun field _ => bareColumn_written mapping typeName field

theorem insertWith_places {mapping : Mapping} (hdialect : mapping.dialect = .postgres)
    {conflict : Option (Sql.Conflict Fragment)}
    (hconflict : ∀ fragment ∈ conflict.elim [] Sql.Conflict.fragments, fragment.Written ∧ fragment.positions = [])
    (hcompiled : insertWith mapping typeName input conflict returning = .ok result) :
    Places result.sql (added [] result.parameters) := by
  rcases hbind : bindInput input [] with ⟨values, parameters⟩
  simp only [insertWith, hbind] at hcompiled
  split at hcompiled
  · cases hcompiled
  · simp only [except_bind_eq_ok] at hcompiled
    obtain ⟨⟨⟩, -, columns, hcolumns, hresult⟩ := hcompiled
    have hreturning := returningColumns_written hcolumns
    cases hresult
    have hvalues := (bindInput_added hbind).2
    have hfields : ∀ fragment ∈ values.map (fun value => bareColumn mapping typeName value.1),
        fragment.Written ∧ fragment.positions = [] :=
      List.forall_mem_map.2 fun value _ => bareColumn_written mapping typeName value.1
    rw [hdialect]
    refine Sql.Insert.places_text ?_ ?_
    · intro fragment hfragment
      simp only [Sql.Insert.fragments, List.mem_append, List.flatten_singleton] at hfragment
      rcases hfragment with hmem | hmem | hmem | hmem
      · exact (hfields fragment hmem).1
      · obtain ⟨value, -, rfl⟩ := List.mem_map.1 hmem
        trivial
      · exact (hconflict fragment hmem).1
      · exact (hreturning fragment hmem).1
    · simp only [Sql.Insert.fragments, List.flatMap_append, List.flatten_singleton]
      rw [flatMap_positions_eq_nil fun fragment hmem => (hfields fragment hmem).2, List.flatMap_map, hvalues,
        flatMap_positions_eq_nil fun fragment hmem => (hconflict fragment hmem).2,
        flatMap_positions_eq_nil fun fragment hmem => (hreturning fragment hmem).2]
      simp

theorem compileUpsert_places {mapping : Mapping} (hdialect : mapping.dialect = .postgres) {conflict : List String}
    {update : Bool} (hcompiled : compileUpsert mapping typeName input conflict update returning = .ok result) :
    Places result.sql (added [] result.parameters) := by
  simp only [compileUpsert] at hcompiled
  split at hcompiled
  · cases hcompiled
  · split at hcompiled
    · cases hcompiled
    · refine insertWith_places hdialect ?_ hcompiled
      simp only [Option.elim_some, Sql.Conflict.fragments]
      refine List.forall_mem_append.2 ⟨List.forall_mem_map.2 fun field _ => bareColumn_written mapping typeName field, ?_⟩
      simp only [conflictAction]
      split
      · simp [Sql.ConflictAction.fragments]
      · intro fragment hfragment
        simp only [Sql.ConflictAction.fragments, Sql.assignmentFragments, List.append_nil, List.mem_flatMap,
          List.mem_map] at hfragment
        obtain ⟨_, ⟨column, -, rfl⟩, hmem⟩ := hfragment
        simp only [List.mem_cons, List.not_mem_nil, or_false] at hmem
        rcases hmem with rfl | rfl
        · exact ⟨by rintro _ ⟨⟩, rfl⟩
        · exact ⟨trivial, rfl⟩

/-- The conditions of a mutation name the parameters bound for its filter, after those bound before. -/
theorem mutationConditions_added {mapping : Mapping} {bound bound' : Parameters} {conditions : List Fragment}
    (hconditions : mutationConditions mapping typeName (initial typeName) filter bound = .ok (conditions, bound')) :
    bound <+: bound' ∧ (∀ fragment ∈ conditions, fragment.Written) ∧
      conditions.flatMap Fragment.positions = added bound bound' := by
  simp only [mutationConditions, except_bind_eq_ok, Prod.exists] at hconditions
  obtain ⟨lowered, final, hlowered, hresult⟩ := hconditions
  cases hresult
  have hlowered := lowerFilter_lowered hlowered
  have hcolumn : ∀ c, (∃ field, mapping.column typeName (some (.aliased (initial typeName))) field = c) → c.Worded := by
    rintro _ ⟨field, rfl⟩
    exact worded_of_alias (initial_isAlias typeName)
  refine ⟨hlowered.keeps, ?_, ?_⟩
  · intro fragment hfragment
    split at hfragment
    · cases hfragment
    · rw [List.mem_singleton.1 hfragment]
      exact fun condition hcondition => (hlowered.readable condition hcondition).mono hcolumn
  · rw [← hlowered.positions]
    cases lowered with
    | nil => rfl
    | cons condition conditions => simp [Fragment.positions]

theorem compileUpdate_places {mapping : Mapping} (hdialect : mapping.dialect = .postgres) {set : List (String × Json)}
    (hcompiled : compileUpdate mapping typeName set filter returning = .ok result) :
    Places result.sql (added [] result.parameters) := by
  rcases hbind : bindInput set [] with ⟨values, bound⟩
  simp only [compileUpdate, hbind] at hcompiled
  split at hcompiled
  · cases hcompiled
  · simp only [except_bind_eq_ok, Prod.exists] at hcompiled
    obtain ⟨⟨⟩, -, columns, hcolumns, conditions, parameters, hconditions, hresult⟩ := hcompiled
    have hreturning := returningColumns_written hcolumns
    obtain ⟨hkeeps, hwritten, hpositions⟩ := mutationConditions_added hconditions
    obtain ⟨-, hvalues⟩ := bindInput_added hbind
    cases hresult
    rw [hdialect]
    refine Sql.Update.places_text (places_initial typeName) ?_ ?_
    · intro fragment hfragment
      simp only [Sql.Update.fragments, Sql.assignmentFragments, List.mem_append, List.nil_append, List.mem_flatMap,
        List.mem_map] at hfragment
      rcases hfragment with ⟨_, ⟨value, -, rfl⟩, hmem⟩ | hmem | hmem
      · simp only [List.mem_cons, List.not_mem_nil, or_false] at hmem
        rcases hmem with rfl | rfl
        · exact (bareColumn_written mapping typeName value.1).1
        · trivial
      · exact hwritten fragment hmem
      · exact (hreturning fragment hmem).1
    · simp only [Sql.Update.fragments, List.flatMap_append, List.nil_append]
      have hassigned : (Sql.assignmentFragments (values.map fun value =>
          (bareColumn mapping typeName value.1, Fragment.operand value.2))).flatMap Fragment.positions = added [] bound := by
        rw [← hvalues]
        simp [Sql.assignmentFragments, List.flatMap_map, List.flatMap_assoc, (bareColumn_written mapping typeName _).2]
      rw [hassigned, hpositions, flatMap_positions_eq_nil fun fragment hmem => (hreturning fragment hmem).2,
        List.append_nil, added_append List.nil_prefix hkeeps]

theorem compileDelete_places {mapping : Mapping} (hdialect : mapping.dialect = .postgres)
    (hcompiled : compileDelete mapping typeName filter returning = .ok result) :
    Places result.sql (added [] result.parameters) := by
  simp only [compileDelete, except_bind_eq_ok, Prod.exists] at hcompiled
  obtain ⟨⟨⟩, -, columns, hcolumns, conditions, parameters, hconditions, hresult⟩ := hcompiled
  have hreturning := returningColumns_written hcolumns
  obtain ⟨-, hwritten, hpositions⟩ := mutationConditions_added hconditions
  cases hresult
  rw [hdialect]
  refine Sql.Delete.places_text (places_initial typeName) ?_ ?_
  · intro fragment hfragment
    simp only [Sql.Delete.fragments, List.nil_append, List.mem_append] at hfragment
    rcases hfragment with hmem | hmem
    · exact hwritten fragment hmem
    · exact (hreturning fragment hmem).1
  · simp only [Sql.Delete.fragments, List.nil_append, List.flatMap_append]
    rw [hpositions, flatMap_positions_eq_nil fun fragment hmem => (hreturning fragment hmem).2, List.append_nil]

theorem numbered_of_places {text : String} {parameters : Parameters} (hplaces : Places text (added [] parameters)) :
    Sql.placeholders text = some (List.range' 1 parameters.length) := by
  simpa [added] using hplaces.eq_some

/-- Placeholders and parameters line up. Whatever a mapping and an input are, the placeholders of a compiled statement,
read from left to right outside quoted identifiers, are one for each of its parameters, from the first to the last. -/
theorem placeholders_number_parameters (mapping : Mapping) (hdialect : mapping.dialect = .postgres) :
    (∀ parentType returnType field result, compileSelect mapping parentType returnType field = .ok result →
      Sql.placeholders result.sql = some (List.range' 1 result.parameters.length)) ∧
    (∀ typeName input returning result, compileInsert mapping typeName input returning = .ok result →
      Sql.placeholders result.sql = some (List.range' 1 result.parameters.length)) ∧
    (∀ typeName input conflict update returning result,
      compileUpsert mapping typeName input conflict update returning = .ok result →
        Sql.placeholders result.sql = some (List.range' 1 result.parameters.length)) ∧
    (∀ typeName set filter returning result, compileUpdate mapping typeName set filter returning = .ok result →
      Sql.placeholders result.sql = some (List.range' 1 result.parameters.length)) ∧
    (∀ typeName filter returning result, compileDelete mapping typeName filter returning = .ok result →
      Sql.placeholders result.sql = some (List.range' 1 result.parameters.length)) := by
  refine ⟨?_, ?_, ?_, ?_, ?_⟩
  · intro parentType returnType field result hcompiled
    exact numbered_of_places (compileSelect_places hdialect hcompiled)
  · intro typeName input returning result hcompiled
    exact numbered_of_places (insertWith_places hdialect (by simp) hcompiled)
  · intro typeName input conflict update returning result hcompiled
    exact numbered_of_places (compileUpsert_places hdialect hcompiled)
  · intro typeName set filter returning result hcompiled
    exact numbered_of_places (compileUpdate_places hdialect hcompiled)
  · intro typeName filter returning result hcompiled
    exact numbered_of_places (compileDelete_places hdialect hcompiled)

/-- The filter of the subquery binds the first parameter and that of the root the second, in a column whose name looks
like it holds a placeholder. -/
theorem placeholders_number_parameters_userPosts :
    let posts : SelectedField :=
      ⟨"posts", none, [("where", .obj [("title", .str "a")])], [], none, {}, some ⟨[leafField "id"], false⟩⟩
    let users : SelectedField :=
      ⟨"users", none, [("where", .obj [("name", .str "b")])], [], none, {}, some ⟨[leafField "id", posts], false⟩⟩
    ∃ result, compileSelect userPosts "Query" (some (.named "User")) users = .ok result ∧
      result.parameters = [.text "a", .text "b"] ∧ Sql.placeholders result.sql = some [1, 2] := by
  intro posts users
  refine ⟨_, rfl, rfl, ?_⟩
  exact (placeholders_number_parameters userPosts rfl).1 "Query" (some (.named "User")) users _ rfl

end RelationalGraphQL.Mapping
