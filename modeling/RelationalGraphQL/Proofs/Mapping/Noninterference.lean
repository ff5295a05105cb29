import RelationalGraphQL.Mapping.Mutation
import RelationalGraphQL.Proofs.Arguments.Noninterference
import RelationalGraphQL.Proofs.Mapping.Draft

/-!
# Statements that do not show their operands

Two inputs of a conversion are compared that differ only in their operands: in the values that filters compare with, in
identifiers, and in the values that are inserted or set. Either both are refused for the same reason, or both give the
same text with as many parameters. For a SELECT this goes through the whole selection, since arguments stand at every
relation in it; what may differ in the draft on the way are the values of its parameters.
-/

namespace RelationalGraphQL.Mapping

open Arguments (Agrees ArgumentAlike EntriesAlike FilterValueAlike eq_null_of_isNull lowerFilter_agrees
  readRowChoice_agrees)
open Sql (Column Fragment Join Operand Parameters)

/-! ### Selections -/

mutual

/-- Fields that differ only in the operands of arguments, their own and those of fields below. -/
inductive SelectedAlike : SelectedField → SelectedField → Prop where
  | leaf {name : String} {aliasName : Option String} {arguments arguments' : List (String × Json)}
      {directives : List AppliedDirective} {typeCondition : Option String} {position : Document.Position}
      (harguments : EntriesAlike ArgumentAlike arguments arguments') :
      SelectedAlike ⟨name, aliasName, arguments, directives, typeCondition, position, none⟩
        ⟨name, aliasName, arguments', directives, typeCondition, position, none⟩
  | nested {name : String} {aliasName : Option String} {arguments arguments' : List (String × Json)}
      {directives : List AppliedDirective} {typeCondition : Option String} {position : Document.Position}
      {fields fields' : List SelectedField} {typename : Bool} (harguments : EntriesAlike ArgumentAlike arguments arguments')
      (hfields : SelectionAlike fields fields') :
      SelectedAlike ⟨name, aliasName, arguments, directives, typeCondition, position, some ⟨fields, typename⟩⟩
        ⟨name, aliasName, arguments', directives, typeCondition, position, some ⟨fields', typename⟩⟩

inductive SelectionAlike : List SelectedField → List SelectedField → Prop where
  | nil : SelectionAlike [] []
  | cons {field field' : SelectedField} {rest rest' : List SelectedField} (hfield : SelectedAlike field field')
      (hrest : SelectionAlike rest rest') : SelectionAlike (field :: rest) (field' :: rest')

end

section

variable {field field' : SelectedField} {fields fields' : List SelectedField}

theorem SelectionAlike.isEmpty_eq (halike : SelectionAlike fields fields') : fields.isEmpty = fields'.isEmpty := by
  cases halike <;> rfl

theorem SelectedAlike.name_eq (halike : SelectedAlike field field') : field.name = field'.name := by
  cases halike <;> rfl

theorem SelectedAlike.responseKey_eq (halike : SelectedAlike field field') :
    field.responseKey = field'.responseKey := by
  cases halike <;> rfl

theorem SelectedAlike.arguments_alike (halike : SelectedAlike field field') :
    EntriesAlike ArgumentAlike field.arguments field'.arguments := by
  cases halike with
  | leaf harguments => exact harguments
  | nested harguments _ => exact harguments

theorem SelectedAlike.hasSelections_eq (halike : SelectedAlike field field') :
    field.hasSelections = field'.hasSelections := by
  cases halike with
  | leaf => rfl
  | nested _ hfields => simp [SelectedField.hasSelections, hfields.isEmpty_eq]

theorem SelectedAlike.leafOutput_eq (halike : SelectedAlike field field') (joined : Bool) (source : Source)
    (column : Column) : leafOutput joined source column field = leafOutput joined source column field' := by
  cases halike <;> rfl

/-- Defaults are added where they are missing, so to both or to neither. -/
theorem SelectedAlike.argumentsWithDefaults_alike (halike : SelectedAlike field field') (mapping : Mapping)
    (parentType : String) :
    EntriesAlike ArgumentAlike (argumentsWithDefaults mapping parentType field)
      (argumentsWithDefaults mapping parentType field') := by
  unfold argumentsWithDefaults
  rw [halike.name_eq]
  split
  · exact halike.arguments_alike
  · rename_i definition _
    have harguments := halike.arguments_alike
    generalize field.arguments = arguments at harguments ⊢
    generalize field'.arguments = arguments' at harguments ⊢
    induction definition.arguments generalizing arguments arguments' with
    | nil => exact harguments
    | cons argument rest ih =>
      rw [List.foldl_cons, List.foldl_cons]
      apply ih
      split
      · rename_i value _
        unfold Table.insertNew
        rcases harguments.lookup argument.name with ⟨hnone, hnone'⟩ | ⟨_, _, hsome, hsome', _⟩
        · rw [hnone, hnone']
          exact List.rel_append harguments (.cons ⟨rfl, .refl _ value⟩ .nil)
        · rw [hsome, hsome']
          exact harguments
      · exact harguments

end

/-! ### Drafts -/

/-- What is seen of a draft: all but the values of its parameters. -/
def Draft.seen (draft : Draft) : Draft × Nat := ({ draft with parameters := [] }, draft.parameters.length)

section

variable {mapping : Mapping}

theorem modify_agrees {σ τ ε : Type} {view : σ → τ} {change : σ → σ}
    (hchange : ∀ s s', view s = view s' → view (change s) = view (change s')) :
    Agrees view (modify change : StateT σ (Except ε) Unit) (modify change) := by
  intro s s' hview
  exact congrArg (fun seen => Except.ok ((), seen)) (hchange s s' hview)

theorem Draft.seen_eq {draft draft' : Draft} :
    draft.seen = draft'.seen ↔ draft.columns = draft'.columns ∧ draft.joins = draft'.joins ∧
      draft.aliases = draft'.aliases ∧ draft.parameters.length = draft'.parameters.length := by
  simp [seen, and_assoc]

theorem addColumn_agrees (column : Fragment) : Agrees Draft.seen (addColumn column) (addColumn column) := by
  apply modify_agrees
  intro draft draft' hseen
  rw [Draft.seen_eq] at hseen ⊢
  obtain ⟨hcolumns, hjoins, haliases, hparameters⟩ := hseen
  exact ⟨by rw [hcolumns], hjoins, haliases, hparameters⟩

theorem addJoin_agrees (join : Join Fragment) : Agrees Draft.seen (addJoin join) (addJoin join) := by
  apply modify_agrees
  intro draft draft' hseen
  rw [Draft.seen_eq] at hseen ⊢
  obtain ⟨hcolumns, hjoins, haliases, hparameters⟩ := hseen
  exact ⟨hcolumns, by rw [hjoins], haliases, hparameters⟩

theorem takeAlias_agrees (name : String) : Agrees Draft.seen (takeAlias name) (takeAlias name) := by
  intro draft draft' hseen
  obtain ⟨hcolumns, hjoins, haliases, hparameters⟩ := Draft.seen_eq.1 hseen
  have hafter (draft : Draft) : (takeAlias name).run draft =
      .ok (freshAlias draft.aliases name, { draft with aliases := freshAlias draft.aliases name :: draft.aliases }) := rfl
  rw [hafter, hafter]
  simp [Except.map, Draft.seen, hcolumns, hjoins, haliases, hparameters]

theorem lowering_agrees {α : Type} {action action' : Arguments.Lowering α}
    (haction : Agrees List.length action action') : Agrees Draft.seen (lowering action) (lowering action') := by
  intro draft draft' hseen
  obtain ⟨hcolumns, hjoins, haliases, hparameters⟩ := Draft.seen_eq.1 hseen
  rw [StateT.run, StateT.run, lowering, lowering]
  rcases haction.run_cases hparameters with ⟨error, hrun, hrun'⟩ | ⟨result, after, after', hrun, hrun', hafter⟩
  · rw [hrun, hrun']
  · rw [hrun, hrun']
    simp [Except.map, Draft.seen, hcolumns, hjoins, haliases, hafter]

end

/-! ### Selections in a draft -/

section

variable {mapping : Mapping} {field field' : SelectedField} {fields fields' : List SelectedField}

theorem SelectedAlike.rowChoice_agrees (halike : SelectedAlike field field') (mapping : Mapping) (parentType : String)
    (column : String → Column) :
    Agrees Draft.seen (rowChoice mapping parentType field column) (rowChoice mapping parentType field' column) := by
  unfold rowChoice
  refine (lowering_agrees (readRowChoice_agrees (halike.argumentsWithDefaults_alike mapping parentType))).bind ?_
  intro choice
  split
  · exact (Agrees.throw _).bind fun _ => .pure _
  · exact .pure _

theorem SelectionAlike.lateralFields_alike (typeName : String) : ∀ {fields fields' : List SelectedField},
    SelectionAlike fields fields' →
      List.Forall₂ SelectedAlike (lateralFields mapping typeName fields) (lateralFields mapping typeName fields')
  | _, _, .nil => .nil
  | _, _, .cons hfield hrest => by
    have hleaves := hrest.lateralFields_alike typeName
    unfold lateralFields at hleaves ⊢
    rw [List.filter_cons, List.filter_cons, hfield.hasSelections_eq, hfield.name_eq]
    split
    · exact .cons hfield hleaves
    · exact hleaves

theorem forM_agrees {step step' : SelectedField → DraftM Unit} {leaves leaves' : List SelectedField}
    (hleaves : List.Forall₂ SelectedAlike leaves leaves')
    (hstep : ∀ leaf leaf', SelectedAlike leaf leaf' → Agrees Draft.seen (step leaf) (step' leaf')) :
    Agrees Draft.seen (leaves.forM step) (leaves'.forM step') := by
  induction hleaves with
  | nil => exact .pure _
  | cons hleaf _ ih =>
    rw [List.forM_eq_forM, List.forM_cons, List.forM_cons]
    exact (hstep _ _ hleaf).bind fun _ => ih

theorem map_name_eq {leaves leaves' : List SelectedField} (hleaves : List.Forall₂ SelectedAlike leaves leaves')
    (column : String → Column) :
    leaves.map (fun leaf => column leaf.name) = leaves'.map fun leaf => column leaf.name := by
  induction hleaves with
  | nil => rfl
  | cons hleaf _ ih => rw [List.map_cons, List.map_cons, hleaf.name_eq, ih]

theorem SelectedAlike.lateralJoin_agrees (hfield : SelectedAlike field field') (hfields : SelectionAlike fields fields')
    (parent : Source) (relation : Relation) (target : Source) :
    Agrees Draft.seen (lateralJoin mapping parent field relation target fields)
      (lateralJoin mapping parent field' relation target fields') := by
  have hleaves : List.Forall₂ SelectedAlike (lateralFields mapping target.typeName fields) _ :=
    hfields.lateralFields_alike target.typeName
  unfold lateralJoin
  dsimp only
  refine (forM_agrees hleaves ?_).bind fun _ => ?_
  · intro leaf leaf' hleaf
    rw [hleaf.name_eq, hleaf.responseKey_eq]
    exact addColumn_agrees _
  · rw [map_name_eq hleaves]
    exact (hfield.rowChoice_agrees _ _ _).bind fun choice => addJoin_agrees _

mutual

theorem SelectedAlike.addField_agrees : ∀ {field field' : SelectedField}, SelectedAlike field field' →
    ∀ (joined : Bool) (source : Source),
      Agrees Draft.seen (addField mapping joined source field) (addField mapping joined source field')
  | ⟨name, _, _, _, _, _, _⟩, _, .leaf harguments, joined, source => by
    unfold addField
    cases mapping.relation? source.typeName name with
    | some relation => exact .pure _
    | none => exact addColumn_agrees _
  | ⟨name, aliasName, arguments, directives, typeCondition, position, some ⟨fields, typename⟩⟩,
      ⟨_, _, arguments', _, _, _, some ⟨fields', _⟩⟩, .nested harguments hfields, joined, source => by
    have hfield : SelectedAlike
        ⟨name, aliasName, arguments, directives, typeCondition, position, some ⟨fields, typename⟩⟩
        ⟨name, aliasName, arguments', directives, typeCondition, position, some ⟨fields', typename⟩⟩ :=
      .nested harguments hfields
    unfold addField
    cases mapping.relation? source.typeName name with
    | some relation =>
      refine (takeAlias_agrees _).bind fun aliasName => ?_
      dsimp only
      split
      · exact hfield.lateralJoin_agrees hfields _ _ _
      · exact (addJoin_agrees _).bind fun _ => hfields.addFields_agrees true _
    | none =>
      dsimp only
      rw [hfield.hasSelections_eq, hfield.leafOutput_eq]
      split
      · exact .pure _
      · exact addColumn_agrees _

theorem SelectionAlike.addFields_agrees : ∀ {fields fields' : List SelectedField}, SelectionAlike fields fields' →
    ∀ (joined : Bool) (source : Source),
      Agrees Draft.seen (addFields mapping joined source fields) (addFields mapping joined source fields')
  | _, _, .nil, joined, source => .pure _
  | _, _, .cons hfield hrest, joined, source => by
    rw [addFields, addFields]
    exact (hfield.addField_agrees joined source).bind fun _ => hrest.addFields_agrees joined source

end

theorem SelectedAlike.draftSelect_agrees (halike : SelectedAlike field field') (mapping : Mapping) (root : Source)
    (parentType : String) :
    Agrees Draft.seen (draftSelect mapping root parentType field) (draftSelect mapping root parentType field') := by
  have hchoice (column : String → Column) := halike.rowChoice_agrees mapping parentType column
  unfold draftSelect
  cases halike with
  | leaf harguments => exact (Agrees.pure _).bind fun _ => hchoice _
  | nested harguments hfields => exact (hfields.addFields_agrees false root).bind fun _ => hchoice _

end

/-! ### Statements -/

/-- The text of a statement and the number of its parameters. -/
def SelectResult.written (result : SelectResult) : String × Nat := (result.sql, result.parameters.length)

def MutationResult.written (result : MutationResult) : String × Nat := (result.sql, result.parameters.length)

theorem compileSelect_written_eq {field field' : SelectedField} (halike : SelectedAlike field field')
    (mapping : Mapping) (parentType : String) (returnType : Option TypeRef) :
    (compileSelect mapping parentType returnType field).map SelectResult.written =
      (compileSelect mapping parentType returnType field').map SelectResult.written := by
  unfold compileSelect
  cases returnType with
  | none =>
    dsimp only
    rw [halike.name_eq]
  | some type =>
    dsimp only
    split
    · rfl
    · cases mapping.requireStatements with
      | error e => rfl
      | ok _ =>
        have hagrees := halike.draftSelect_agrees mapping (rootSource type.namedType) parentType
        rcases hagrees.run_cases (show (rootDraft type.namedType).seen = _ from rfl) with
          ⟨error, hrun, hrun'⟩ | ⟨choice, draft, draft', hrun, hrun', hseen⟩
        · simp only [rootSource, rootDraft] at hrun hrun'
          rw [hrun, hrun']
        · obtain ⟨hcolumns, hjoins, -, hparameters⟩ := Draft.seen_eq.1 hseen
          simp only [rootSource, rootDraft] at hrun hrun'
          rw [hrun, hrun']
          show Except.ok (SelectResult.written _) = Except.ok (SelectResult.written _)
          simp only [SelectResult.written, hcolumns, hjoins, hparameters]

/-- Values that are written out alike: both null, or neither. -/
def ValueAlike (_ : String) (value value' : Json) : Prop := value.isNull = value'.isNull

section

variable {input input' : List (String × Json)} {bound bound' : Parameters} {filter filter' : Json}

theorem keys_eq (halike : EntriesAlike ValueAlike input input') : Table.keys input = Table.keys input' := by
  unfold Table.keys
  induction halike with
  | nil => rfl
  | cons hentry _ ih => rw [List.map_cons, List.map_cons, hentry.1, ih]

theorem marshal_alike {value value' : Json} (hvalue : value.isNull = value'.isNull)
    (hlength : bound.length = bound'.length) :
    ∃ operand after after', Parameters.marshal value bound = (operand, after) ∧
      Parameters.marshal value' bound' = (operand, after') ∧ after.length = after'.length := by
  cases hnull : value.isNull with
  | true =>
    obtain rfl := eq_null_of_isNull hnull
    obtain rfl := eq_null_of_isNull (hvalue ▸ hnull)
    exact ⟨.null, bound, bound', rfl, rfl, hlength⟩
  | false =>
    have hbind {value : Json} (hvalue : value.isNull = false) (bound : Parameters) :
        Parameters.marshal value bound = (.parameter (bound.length + 1), bound ++ [Sql.Value.ofJson value]) := by
      cases value with
      | null => cases hvalue
      | bool | num | str | arr | obj => rfl
    refine ⟨.parameter (bound.length + 1), bound ++ [Sql.Value.ofJson value], bound' ++ [Sql.Value.ofJson value'],
      hbind hnull bound, ?_, ?_⟩
    · rw [hbind (hvalue ▸ hnull) bound', hlength]
    · simp [hlength]

theorem bindInput_alike (halike : EntriesAlike ValueAlike input input') (hlength : bound.length = bound'.length) :
    ∃ operands after after', bindInput input bound = (operands, after) ∧ bindInput input' bound' = (operands, after') ∧
      after.length = after'.length := by
  induction halike generalizing bound bound' with
  | nil => exact ⟨[], bound, bound', rfl, rfl, hlength⟩
  | @cons entry entry' rest rest' hentry _ ih =>
    obtain ⟨field, value⟩ := entry
    obtain ⟨field', value'⟩ := entry'
    obtain ⟨rfl, hvalue⟩ := hentry
    obtain ⟨operand, middle, middle', hmarshal, hmarshal', hmiddle⟩ := marshal_alike hvalue hlength
    obtain ⟨operands, after, after', hrest, hrest', hafter⟩ := ih hmiddle
    refine ⟨(field, operand) :: operands, after, after', ?_, ?_, hafter⟩
    · simp only [bindInput, hmarshal, hrest]
    · simp only [bindInput, hmarshal', hrest']

theorem isEmpty_eq (halike : EntriesAlike ValueAlike input input') : input.isEmpty = input'.isEmpty := by
  cases halike <;> rfl

theorem written_ok {kind : MutationKind} {sql : String} (hlength : bound.length = bound'.length) :
    (pure { kind, sql, parameters := bound } : Except ConversionError MutationResult).map MutationResult.written =
      (pure { kind, sql, parameters := bound' } : Except ConversionError MutationResult).map MutationResult.written :=
  congrArg (fun length => Except.ok (sql, length)) hlength

theorem insertWith_written_eq (halike : EntriesAlike ValueAlike input input') (mapping : Mapping) (typeName : String)
    (conflict : Option (Sql.Conflict Fragment)) (returning : List String) :
    (insertWith mapping typeName input conflict returning).map MutationResult.written =
      (insertWith mapping typeName input' conflict returning).map MutationResult.written := by
  obtain ⟨operands, parameters, parameters', hbind, hbind', hlength⟩ :=
    bindInput_alike halike (show ([] : Parameters).length = ([] : Parameters).length from rfl)
  unfold insertWith
  rw [isEmpty_eq halike, hbind, hbind']
  cases input'.isEmpty with
  | true => rfl
  | false =>
    cases mapping.requireStatements with
    | error e => rfl
    | ok _ =>
      cases returningColumns mapping typeName returning with
      | error e => rfl
      | ok columns => exact written_ok hlength

theorem compileUpsert_written_eq (halike : EntriesAlike ValueAlike input input') (mapping : Mapping) (typeName : String)
    (conflict : List String) (update : Bool) (returning : List String) :
    (compileUpsert mapping typeName input conflict update returning).map MutationResult.written =
      (compileUpsert mapping typeName input' conflict update returning).map MutationResult.written := by
  have haction : conflictAction mapping typeName input conflict update =
      conflictAction mapping typeName input' conflict update := by
    rw [conflictAction, conflictAction, keys_eq halike]
  unfold compileUpsert
  rw [haction]
  split
  · rfl
  · split
    · rfl
    · exact insertWith_written_eq halike mapping typeName _ returning

theorem mutationConditions_alike (hfilter : FilterValueAlike filter filter') (hlength : bound.length = bound'.length)
    (mapping : Mapping) (typeName aliasName : String) :
    (∃ e, mutationConditions mapping typeName aliasName filter bound = .error e ∧
        mutationConditions mapping typeName aliasName filter' bound' = .error e) ∨
      ∃ fragments after after', mutationConditions mapping typeName aliasName filter bound = .ok (fragments, after) ∧
        mutationConditions mapping typeName aliasName filter' bound' = .ok (fragments, after') ∧
        after.length = after'.length := by
  unfold mutationConditions
  have hagrees := lowerFilter_agrees hfilter "where" (mapping.column typeName (some (.aliased aliasName)))
  rcases hagrees.run_cases hlength with ⟨e, hrun, hrun'⟩ | ⟨conditions, after, after', hrun, hrun', hafter⟩
  · rw [hrun, hrun']
    exact .inl ⟨e, rfl, rfl⟩
  · rw [hrun, hrun']
    exact .inr ⟨_, after, after', rfl, rfl, hafter⟩

theorem compileUpdate_written_eq (halike : EntriesAlike ValueAlike input input')
    (hfilter : FilterValueAlike filter filter') (mapping : Mapping) (typeName : String) (returning : List String) :
    (compileUpdate mapping typeName input filter returning).map MutationResult.written =
      (compileUpdate mapping typeName input' filter' returning).map MutationResult.written := by
  obtain ⟨operands, middle, middle', hbind, hbind', hlength⟩ :=
    bindInput_alike halike (show ([] : Parameters).length = ([] : Parameters).length from rfl)
  unfold compileUpdate
  rw [isEmpty_eq halike, hbind, hbind']
  cases input'.isEmpty with
  | true => rfl
  | false =>
    cases mapping.requireStatements with
    | error e => rfl
    | ok _ =>
      cases returningColumns mapping typeName returning with
      | error e => rfl
      | ok columns =>
        dsimp only
        rcases mutationConditions_alike hfilter hlength mapping typeName (initial typeName) with
          ⟨e, hrun, hrun'⟩ | ⟨fragments, after, after', hrun, hrun', hafter⟩
        · rw [hrun, hrun']
        · rw [hrun, hrun']
          exact written_ok hafter

theorem compileDelete_written_eq (hfilter : FilterValueAlike filter filter') (mapping : Mapping) (typeName : String)
    (returning : List String) :
    (compileDelete mapping typeName filter returning).map MutationResult.written =
      (compileDelete mapping typeName filter' returning).map MutationResult.written := by
  unfold compileDelete
  cases mapping.requireStatements with
  | error e => rfl
  | ok _ =>
    cases returningColumns mapping typeName returning with
    | error e => rfl
    | ok columns =>
      dsimp only
      rcases mutationConditions_alike hfilter (show ([] : Parameters).length = ([] : Parameters).length from rfl) mapping
        typeName (initial typeName) with ⟨e, hrun, hrun'⟩ | ⟨fragments, after, after', hrun, hrun', hafter⟩
      · rw [hrun, hrun']
      · rw [hrun, hrun']
        exact written_ok hafter

end

/-- Users by name or identifier, with the posts that have a title. -/
def chosenUsers (name ids id title : Json) : SelectedField :=
  let posts : SelectedField :=
    ⟨"posts", none, [("where", .obj [("title", title)])], [], none, {}, some ⟨[leafField "id"], false⟩⟩
  let choice : Json := .obj [("_or", .arr [.obj [("name", .obj [("_eq", name)])], .obj [("id", .obj [("_in", ids)])]])]
  ⟨"users", none, [("where", choice), ("id", id)], [], none, {}, some ⟨[leafField "id", posts], false⟩⟩

/-- Whatever the operands are, a conversion gives the same text with as many parameters, or the same error. -/
theorem operands_stay_out_of_sql (mapping : Mapping) :
    (∀ parentType returnType field field', SelectedAlike field field' →
      (compileSelect mapping parentType returnType field).map SelectResult.written =
        (compileSelect mapping parentType returnType field').map SelectResult.written) ∧
    (∀ typeName input input' returning, EntriesAlike ValueAlike input input' →
      (compileInsert mapping typeName input returning).map MutationResult.written =
        (compileInsert mapping typeName input' returning).map MutationResult.written) ∧
    (∀ typeName input input' conflict update returning, EntriesAlike ValueAlike input input' →
      (compileUpsert mapping typeName input conflict update returning).map MutationResult.written =
        (compileUpsert mapping typeName input' conflict update returning).map MutationResult.written) ∧
    (∀ typeName set set' filter filter' returning, EntriesAlike ValueAlike set set' → FilterValueAlike filter filter' →
      (compileUpdate mapping typeName set filter returning).map MutationResult.written =
        (compileUpdate mapping typeName set' filter' returning).map MutationResult.written) ∧
    (∀ typeName filter filter' returning, FilterValueAlike filter filter' →
      (compileDelete mapping typeName filter returning).map MutationResult.written =
        (compileDelete mapping typeName filter' returning).map MutationResult.written) := by
  refine ⟨?_, ?_, ?_, ?_, ?_⟩
  · intro parentType returnType field field' halike
    exact compileSelect_written_eq halike mapping parentType returnType
  · intro typeName input input' returning halike
    exact insertWith_written_eq halike mapping typeName none returning
  · intro typeName input input' conflict update returning halike
    exact compileUpsert_written_eq halike mapping typeName conflict update returning
  · intro typeName set set' filter filter' returning hset hfilter
    exact compileUpdate_written_eq hset hfilter mapping typeName returning
  · intro typeName filter filter' returning hfilter
    exact compileDelete_written_eq hfilter mapping typeName returning

theorem operands_stay_out_of_sql_chosenUsers :
    ∃ result result',
      compileSelect userPosts "Query" (some (.named "User"))
          (chosenUsers (.str "b") (.arr [.bool true]) (.str "7") (.str "a")) = .ok result ∧
        compileSelect userPosts "Query" (some (.named "User"))
          (chosenUsers (.obj []) (.arr []) (.str "'; --") (.arr [.null])) = .ok result' ∧
        result'.sql = result.sql ∧ result'.parameters.length = result.parameters.length := by
  have hposts : FilterValueAlike (.obj [("title", .str "a")]) (.obj [("title", .arr [.null])]) :=
    .inr ⟨_, _, rfl, rfl, .cons (.field rfl (.bare rfl rfl rfl)) .nil⟩
  have hname : Arguments.FilterAlike [("name", .obj [("_eq", .str "b")])] [("name", .obj [("_eq", .obj [])])] :=
    .cons (.field rfl (.operators (.cons ⟨rfl, rfl⟩ .nil))) .nil
  have hids : Arguments.FilterAlike [("id", .obj [("_in", .arr [.bool true])])] [("id", .obj [("_in", .arr [])])] :=
    .cons (.field rfl (.operators (.cons ⟨rfl, .inr ⟨_, _, rfl, rfl⟩⟩ .nil))) .nil
  have hchoice := Arguments.EntryAlike.list (show Arguments.FilterKey.ofName "_or" ≠ .field by decide)
    (.object hname (.object hids .nil))
  have halike : SelectedAlike (chosenUsers (.str "b") (.arr [.bool true]) (.str "7") (.str "a"))
      (chosenUsers (.obj []) (.arr []) (.str "'; --") (.arr [.null])) :=
    .nested (.cons ⟨rfl, .inr ⟨_, _, rfl, rfl, .cons hchoice .nil⟩⟩ (.cons ⟨rfl, rfl⟩ .nil))
      (.cons (.leaf .nil) (.cons (.nested (.cons ⟨rfl, hposts⟩ .nil) (.cons (.leaf .nil) .nil)) .nil))
  have hsame := (operands_stay_out_of_sql userPosts).1 "Query" (some (.named "User")) _ _ halike
  refine ⟨_, _, rfl, rfl, ?_⟩
  exact Prod.mk.inj (Except.ok.inj hsame.symm)

end RelationalGraphQL.Mapping
