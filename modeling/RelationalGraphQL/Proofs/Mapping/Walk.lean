import RelationalGraphQL.Proofs.Mapping.Draft

/-!
# The walk of a selection

`Draft.Step` says what one field can do to a draft, and forgets which fields stand in one set and which below a
relation. `Draft.Walk` keeps that: it goes through the fields of a set in order, and through those below a to-one relation
when it comes to it. A walk is a sequence of steps (`Draft.Walk.steps`), and what holds of the fields of a set together
follows by induction on it.
-/

namespace RelationalGraphQL.Mapping

open Arguments (RowChoice readRowChoice run_bind_eq_ok)
open Sql (Column Fragment Join Parameters)

/-- Whether a field is read from a column of its own type: it is no relation, and nothing is selected below it. -/
def isLeaf (mapping : Mapping) (typeName : String) (field : SelectedField) : Bool :=
  !field.hasSelections && (mapping.relation? typeName field.name).isNone

def leafFragment (mapping : Mapping) (joined : Bool) (source : Source) (field : SelectedField) : Fragment :=
  leafOutput joined source (mapping.column source.typeName (some (.aliased source.aliasName)) field.name) field

def relationTarget (mapping : Mapping) (source : Source) (draft : Draft) (field : SelectedField) : Source :=
  { typeName := targetType mapping source.typeName field.name
    aliasName := freshAlias draft.aliases field.responseKey }

namespace Draft

def withLeaf (mapping : Mapping) (joined : Bool) (source : Source) (field : SelectedField) (draft : Draft) : Draft :=
  { draft with columns := draft.columns ++ [leafFragment mapping joined source field] }

/-- A draft with one more join, and with columns that are read from it. -/
def withJoin (join : Join Fragment) (columns : List Fragment) (parameters : Parameters) (draft : Draft) : Draft :=
  { columns := draft.columns ++ columns
    joins := draft.joins ++ [join]
    aliases := join.aliasName :: draft.aliases
    parameters }

def withSingle (mapping : Mapping) (source : Source) (field : SelectedField) (relation : Relation) (draft : Draft) :
    Draft :=
  draft.withJoin (singleJoin source relation (relationTarget mapping source draft field).aliasName) [] draft.parameters

/-- A draft with the columns and the join of a to-many relation, whose arguments ask for a choice of rows. -/
def withLateral (mapping : Mapping) (source : Source) (field : SelectedField) (relation : Relation)
    (children : List SelectedField) (choice : RowChoice Column) (parameters : Parameters) (draft : Draft) : Draft :=
  let target := relationTarget mapping source draft field
  draft.withJoin (lateralJoined mapping source relation target children choice)
    (lateralOutputs mapping target children) parameters

/-- What the fields of a set do to a draft, one after the other. -/
inductive Walk (mapping : Mapping) : Bool → Source → List SelectedField → Draft → Draft → Prop where
  | nil {joined : Bool} {source : Source} {draft : Draft} : Walk mapping joined source [] draft draft
  /-- A field that is left to its resolver, or a relation of which nothing is selected. -/
  | skip {joined : Bool} {source : Source} {field : SelectedField} {rest : List SelectedField} {draft draft' : Draft}
      (hleaf : isLeaf mapping source.typeName field = false)
      (hjoin : mapping.relation? source.typeName field.name = none ∨ field.selections = none)
      (hrest : Walk mapping joined source rest draft draft') : Walk mapping joined source (field :: rest) draft draft'
  | leaf {joined : Bool} {source : Source} {field : SelectedField} {rest : List SelectedField} {draft draft' : Draft}
      (hleaf : isLeaf mapping source.typeName field)
      (hrest : Walk mapping joined source rest (draft.withLeaf mapping joined source field) draft') :
      Walk mapping joined source (field :: rest) draft draft'
  | single {joined : Bool} {source : Source} {field : SelectedField} {rest : List SelectedField}
      {draft middle draft' : Draft} {relation : Relation} {set : SelectionSet}
      (hrelation : mapping.relation? source.typeName field.name = some relation) (hsingle : relation.isLateral = false)
      (hset : field.selections = some set)
      (hbelow : Walk mapping true (relationTarget mapping source draft field) set.fields
        (draft.withSingle mapping source field relation) middle)
      (hrest : Walk mapping joined source rest middle draft') : Walk mapping joined source (field :: rest) draft draft'
  | lateral {joined : Bool} {source : Source} {field : SelectedField} {rest : List SelectedField}
      {draft draft' : Draft} {relation : Relation} {set : SelectionSet} {choice : RowChoice Column}
      {parameters : Parameters} (hrelation : mapping.relation? source.typeName field.name = some relation)
      (hlateral : relation.isLateral) (hset : field.selections = some set)
      (hread : (readRowChoice (argumentsWithDefaults mapping source.typeName field)
        (mapping.column (targetType mapping source.typeName field.name) (correlation source relation).1)).run
          draft.parameters = .ok (choice, parameters))
      (hrest : Walk mapping joined source rest
        (draft.withLateral mapping source field relation set.fields choice parameters) draft') :
      Walk mapping joined source (field :: rest) draft draft'

end Draft

section

variable {mapping : Mapping} {joined : Bool} {source : Source}

theorem isLeaf_of_isSome {field : SelectedField} {relation : Relation}
    (hrelation : mapping.relation? source.typeName field.name = some relation) :
    isLeaf mapping source.typeName field = false := by
  rw [isLeaf, hrelation, Option.isNone_some, Bool.and_false]

/-- The ways in which a field can be added; of a to-one relation, what is below it is still to come. -/
theorem addField_cases {field : SelectedField} {draft middle : Draft}
    (hrun : (addField mapping joined source field).run draft = .ok ((), middle)) :
    (middle = draft ∧ isLeaf mapping source.typeName field = false ∧
        (mapping.relation? source.typeName field.name = none ∨ field.selections = none)) ∨
      (middle = draft.withLeaf mapping joined source field ∧ isLeaf mapping source.typeName field) ∨
      ∃ relation set, mapping.relation? source.typeName field.name = some relation ∧ field.selections = some set ∧
        ((relation.isLateral = false ∧
            (addSelections mapping true (relationTarget mapping source draft field) set).run
              (draft.withSingle mapping source field relation) = .ok ((), middle)) ∨
          (relation.isLateral ∧ ∃ choice parameters,
            (readRowChoice (argumentsWithDefaults mapping source.typeName field)
              (mapping.column (targetType mapping source.typeName field.name) (correlation source relation).1)).run
                draft.parameters = .ok (choice, parameters) ∧
            middle = draft.withLateral mapping source field relation set.fields choice parameters)) := by
  obtain ⟨name, aliasName, arguments, directives, typeCondition, position, selections⟩ := field
  unfold addField at hrun
  dsimp only at hrun
  split at hrun
  · rename_i relation hrelation
    cases hrun
    exact .inl ⟨rfl, isLeaf_of_isSome hrelation, .inr rfl⟩
  · rename_i relation set hrelation
    simp only [run_bind_eq_ok, takeAlias_run] at hrun
    obtain ⟨_, _, ⟨rfl, rfl⟩, hrun⟩ := hrun
    refine .inr (.inr ⟨relation, set, hrelation, rfl, ?_⟩)
    split at hrun
    · rename_i hlateral
      obtain ⟨choice, parameters, hread, rfl⟩ := lateralJoin_run hrun
      exact .inr ⟨hlateral, choice, parameters, hread, rfl⟩
    · rename_i hsingle
      simp only [run_bind_eq_ok] at hrun
      obtain ⟨⟨⟩, _, hjoin, hset⟩ := hrun
      obtain rfl := addJoin_run.1 hjoin
      refine .inl ⟨by simpa using hsingle, ?_⟩
      rw [Draft.withSingle, Draft.withJoin, List.append_nil]
      exact hset
  · rename_i hrelation
    split at hrun
    · rename_i hselections
      cases hrun
      exact .inl ⟨rfl, by rw [isLeaf, hselections, Bool.not_true, Bool.false_and], .inl hrelation⟩
    · rename_i hselections
      refine .inr (.inl ⟨addColumn_run.1 hrun, ?_⟩)
      rw [isLeaf, hrelation, Option.isNone_none, Bool.and_true]
      simpa using hselections

end

mutual

theorem addSelections_walk {mapping : Mapping} {joined : Bool} {source : Source} : ∀ (set : SelectionSet)
    {draft draft' : Draft}, (addSelections mapping joined source set).run draft = .ok ((), draft') →
      Draft.Walk mapping joined source set.fields draft draft'
  | ⟨fields, _⟩, _, _, hrun => addFields_walk fields hrun

theorem addFields_walk {mapping : Mapping} {joined : Bool} {source : Source} : ∀ (fields : List SelectedField)
    {draft draft' : Draft}, (addFields mapping joined source fields).run draft = .ok ((), draft') →
      Draft.Walk mapping joined source fields draft draft'
  | [], _, _, hrun => by
    cases hrun
    exact .nil
  | field :: rest, _, _, hrun => by
    simp only [addFields, run_bind_eq_ok] at hrun
    obtain ⟨⟨⟩, middle, hfield, hrest⟩ := hrun
    exact addField_walk field hfield (addFields_walk rest hrest)

theorem addField_walk {mapping : Mapping} {joined : Bool} {source : Source} : ∀ (field : SelectedField)
    {rest : List SelectedField} {draft middle draft' : Draft},
      (addField mapping joined source field).run draft = .ok ((), middle) →
        Draft.Walk mapping joined source rest middle draft' → Draft.Walk mapping joined source (field :: rest) draft draft'
  | ⟨_, _, _, _, _, _, none⟩, _, _, _, _, hrun, hrest => by
    rcases addField_cases hrun with ⟨rfl, hleaf, hjoin⟩ | ⟨rfl, hleaf⟩ | ⟨_, _, _, hset, -⟩
    · exact .skip hleaf hjoin hrest
    · exact .leaf hleaf hrest
    · cases hset
  | ⟨_, _, _, _, _, _, some inner⟩, _, _, _, _, hrun, hrest => by
    rcases addField_cases hrun with ⟨rfl, hleaf, hjoin⟩ | ⟨rfl, hleaf⟩ | ⟨relation, set, hrelation, hset, hjoined⟩
    · exact .skip hleaf hjoin hrest
    · exact .leaf hleaf hrest
    · cases hset
      rcases hjoined with ⟨hsingle, hbelow⟩ | ⟨hlateral, choice, parameters, hread, rfl⟩
      · exact .single hrelation hsingle rfl (addSelections_walk inner hbelow) hrest
      · exact .lateral hrelation hlateral rfl hread hrest

end

theorem CompiledSelect.walk {mapping : Mapping} {parentType : String} {returnType : Option TypeRef}
    {field : SelectedField} {result : SelectResult} {typeName : String} {draft : Draft} {choice : RowChoice Column}
    (hcompiled : CompiledSelect mapping parentType returnType field result typeName draft choice) :
    Draft.Walk mapping false (rootSource typeName) field.children (rootDraft typeName) draft := by
  have hwalked := hcompiled.walked
  rw [SelectedField.children]
  cases hselections : field.selections with
  | none =>
    rw [hselections] at hwalked
    cases hwalked
    exact .nil
  | some set =>
    rw [hselections] at hwalked
    exact addSelections_walk set hwalked

theorem Draft.Walk.steps {mapping : Mapping} {joined : Bool} {source : Source} {fields : List SelectedField}
    {draft draft' : Draft} (hwalk : Walk mapping joined source fields draft draft')
    (hsource : source.aliasName ∈ draft.aliases) : Steps mapping draft draft' := by
  induction hwalk with
  | nil => exact .refl
  | skip _ _ _ ih => exact ih hsource
  | leaf _ _ ih => exact .head (.leaf _ _ _ hsource) (ih hsource)
  | @single _ source field _ draft _ _ relation _ hrelation hsingle _ _ _ ihbelow ihrest =>
    have hstep : Step mapping draft (draft.withSingle mapping source field relation) := by
      rw [withSingle, withJoin, List.append_nil]
      exact .single source field relation hsource hrelation hsingle
    have hbelow := Relation.ReflTransGen.head hstep (ihbelow List.mem_cons_self)
    exact hbelow.trans (ihrest (Steps.aliases_subset hbelow hsource))
  | @lateral _ source field _ draft _ relation set choice parameters hrelation hlateral _ hread _ ih =>
    have hstep : Step mapping draft (draft.withLateral mapping source field relation set.fields choice parameters) :=
      .lateral source field relation (relationTarget mapping source draft field) set.fields choice parameters hsource
        hrelation hlateral rfl hread
    exact .head hstep (ih (hstep.aliases_subset hsource))

theorem CompiledSelect.steps {mapping : Mapping} {parentType : String} {returnType : Option TypeRef}
    {field : SelectedField} {result : SelectResult} {typeName : String} {draft : Draft} {choice : RowChoice Column}
    (hcompiled : CompiledSelect mapping parentType returnType field result typeName draft choice) :
    Draft.Steps mapping (rootDraft typeName) draft := hcompiled.walk.steps (by simp [rootDraft])

end RelationalGraphQL.Mapping
