import RelationalGraphQL.Proofs.Mapping.Scope
import RelationalGraphQL.Proofs.Selection.Merge

/-!
# The output names of a SELECT

A column below a relation is named for the alias of its join and its response key. Aliases have no underscore and are
given out once, so these names never meet. At the root a column keeps its own name, or takes the alias of its field,
and nothing keeps that name from being taken already: by another column of the root, or by a column below a relation
(`joined_name_taken_at_root`). Where this does not happen, all names are distinct (`output_names_distinct_iff`).
-/

namespace RelationalGraphQL

namespace Sql

/-- The output names of a list of selected columns. -/
def outputNames (columns : List Fragment) : List String := columns.filterMap Fragment.outputName

/-- Whether a fragment is read from the table under an alias. -/
def Fragment.isOf (aliasName : String) (fragment : Fragment) : Bool :=
  fragment.columns.any fun column => column.qualifier = some (.aliased aliasName)

theorem notMem_underscore_of_isAlias {text : String} (halias : isAlias text) : '_' ∉ text.toList := by
  intro hmem
  exact absurd (isAlphanum_of_isAlias halias '_' hmem) (by decide)

theorem eq_of_append_cons_eq {α : Type} {a : α} {front front' back back' : List α} (hfront : a ∉ front)
    (hfront' : a ∉ front') (heq : front ++ a :: back = front' ++ a :: back') : front = front' ∧ back = back' := by
  rcases List.append_eq_append_iff.1 heq with ⟨between, rfl, hrest⟩ | ⟨between, rfl, hrest⟩
  · cases between with
    | nil => exact ⟨(List.append_nil front).symm, (List.cons.inj hrest).2⟩
    | cons first between => simp_all
  · cases between with
    | nil => exact ⟨List.append_nil front', (List.cons.inj hrest).2.symm⟩
    | cons first between => simp_all

/-- Behind an alias, the first underscore tells where the alias ends. -/
theorem joinedName_injective {first second key key' : String} (hfirst : isAlias first) (hsecond : isAlias second)
    (heq : first ++ "_" ++ key = second ++ "_" ++ key') : first = second ∧ key = key' := by
  have hlist : first.toList ++ '_' :: key.toList = second.toList ++ '_' :: key'.toList := by
    simpa using congrArg String.toList heq
  obtain ⟨hnames, hkeys⟩ :=
    eq_of_append_cons_eq (notMem_underscore_of_isAlias hfirst) (notMem_underscore_of_isAlias hsecond) hlist
  exact ⟨String.toList_injective hnames, String.toList_injective hkeys⟩

end Sql

namespace Mapping

variable {fields : List SelectedField} {joined : Bool} {source : Source}

open Sql (Column Fragment Join Parameters outputNames)

/-! ### Columns below relations -/

/-- A column that is read from a join and named for its alias. -/
def NamedFor (aliasName : String) (fragment : Fragment) : Prop :=
  ∃ column key, fragment = .output column (aliasName ++ "_" ++ key) ∧ column.qualifier = some (.aliased aliasName)

/-- Columns under distinct names, each named for an alias that was given out between two moments. -/
structure FreshOutputs (taken taken' : List String) (columns : List Fragment) : Prop where
  subset : taken ⊆ taken'
  nodup : (outputNames columns).Nodup
  fresh : ∀ fragment ∈ columns, ∃ aliasName, NamedFor aliasName fragment ∧ Sql.isAlias aliasName ∧
    aliasName ∉ taken ∧ aliasName ∈ taken'

namespace FreshOutputs

variable {taken taken' taken'' : List String} {front back : List Fragment}

theorem nil (taken : List String) : FreshOutputs taken taken [] where
  subset := List.Subset.refl taken
  nodup := List.nodup_nil
  fresh := by simp

/-- What was named later is named for other aliases. -/
theorem append (hfront : FreshOutputs taken taken' front) (hback : FreshOutputs taken' taken'' back) :
    FreshOutputs taken taken'' (front ++ back) where
  subset := List.Subset.trans hfront.subset hback.subset
  nodup := by
    rw [outputNames, List.filterMap_append, List.nodup_append]
    refine ⟨hfront.nodup, hback.nodup, ?_⟩
    rintro name hname other hother rfl
    obtain ⟨fragment, hfragment, hname⟩ := List.mem_filterMap.1 hname
    obtain ⟨fragment', hfragment', hother⟩ := List.mem_filterMap.1 hother
    obtain ⟨first, ⟨column, key, rfl, -⟩, hfirst, -, hbefore⟩ := hfront.fresh fragment hfragment
    obtain ⟨second, ⟨column', key', rfl, -⟩, hsecond, hafter, -⟩ := hback.fresh fragment' hfragment'
    have heq : first ++ "_" ++ key = second ++ "_" ++ key' := Option.some.inj (hname.trans hother.symm)
    exact hafter ((Sql.joinedName_injective hfirst hsecond heq).1 ▸ hbefore)
  fresh := by
    intro fragment hfragment
    rcases List.mem_append.1 hfragment with hmem | hmem
    · obtain ⟨aliasName, hnamed, halias, hnew, hgiven⟩ := hfront.fresh fragment hmem
      exact ⟨aliasName, hnamed, halias, hnew, hback.subset hgiven⟩
    · obtain ⟨aliasName, hnamed, halias, hnew, hgiven⟩ := hback.fresh fragment hmem
      exact ⟨aliasName, hnamed, halias, fun htaken => hnew (hfront.subset htaken), hgiven⟩

end FreshOutputs

def leafFragments (mapping : Mapping) (joined : Bool) (source : Source) (fields : List SelectedField) : List Fragment :=
  (fields.filter (isLeaf mapping source.typeName)).map (leafFragment mapping joined source)

theorem outputNames_map {α : Type} {fragment : α → Fragment} {name : α → String}
    (hname : ∀ a, (fragment a).outputName = some (name a)) (items : List α) :
    outputNames (items.map fragment) = items.map name := by
  rw [outputNames, List.filterMap_map, ← List.filterMap_eq_map]
  exact List.filterMap_congr fun a _ => hname a

/-- The leaves below a relation are named for the alias that its join was given. -/
theorem leafFragments_fresh {taken : List String} (mapping : Mapping) (target : Source) {name : String}
    (htarget : target.aliasName = freshAlias taken name) (hkeys : (fields.map SelectedField.responseKey).Nodup) :
    FreshOutputs taken (target.aliasName :: taken) (leafFragments mapping true target fields) where
  subset := List.subset_cons_self _ _
  nodup := by
    have hleaves : ((fields.filter (isLeaf mapping target.typeName)).map SelectedField.responseKey).Nodup :=
      hkeys.sublist (List.filter_sublist.map _)
    have hnamed := hleaves.map (f := fun key => target.aliasName ++ "_" ++ key) fun key key' heq => by simpa using heq
    rw [List.map_map] at hnamed
    rwa [leafFragments, outputNames_map fun leaf => rfl]
  fresh := by
    intro fragment hfragment
    obtain ⟨leaf, -, rfl⟩ := List.mem_map.1 hfragment
    refine ⟨target.aliasName, ⟨_, leaf.responseKey, rfl, rfl⟩, ?_, ?_, List.mem_cons_self⟩
    · rw [htarget]
      exact freshAlias_isAlias taken name
    · rw [htarget]
      exact freshAlias_notMem taken name

/-- A relation among the fields adds nothing to their leaves; its own columns come before those of the other fields. -/
theorem relation_outputs {mapping : Mapping} {field : SelectedField} {rest : List SelectedField} {relation : Relation}
    (hrelation : mapping.relation? source.typeName field.name = some relation) {added added' own below : List Fragment}
    (hown : added.Perm own) (hrest : added'.Perm (leafFragments mapping joined source rest ++ below)) :
    (added ++ added').Perm (leafFragments mapping joined source (field :: rest) ++ (own ++ below)) := by
  have hleaves : leafFragments mapping joined source (field :: rest) = leafFragments mapping joined source rest := by
    rw [leafFragments, List.filter_cons_of_neg (by rw [isLeaf_of_isSome hrelation]; decide), leafFragments]
  rw [hleaves]
  exact (hown.append hrest).trans (List.perm_append_comm_assoc _ _ _)

/-- A walk adds the leaves of its own fields, and below their relations columns under new names. -/
theorem Draft.Walk.outputs {mapping : Mapping} {draft draft' : Draft}
    (hwalk : Draft.Walk mapping joined source fields draft draft')
    (hdistinct : ∀ field ∈ fields, ∀ set, field.selections = some set → Selection.Distinct set) :
    ∃ added below, draft'.columns = draft.columns ++ added ∧
      added.Perm (leafFragments mapping joined source fields ++ below) ∧
      FreshOutputs draft.aliases draft'.aliases below := by
  induction hwalk with
  | nil => exact ⟨[], [], by simp, .nil, .nil _⟩
  | @skip joined source field rest draft draft' hleaf _ _ ih =>
    obtain ⟨added, below, hcolumns, hadded, hbelow⟩ := ih fun field hmem => hdistinct field (List.mem_cons_of_mem _ hmem)
    refine ⟨added, below, hcolumns, ?_, hbelow⟩
    rwa [leafFragments, List.filter_cons_of_neg (by rw [hleaf]; decide)]
  | @leaf joined source field rest draft draft' hleaf _ ih =>
    obtain ⟨added, below, hcolumns, hadded, hbelow⟩ := ih fun field hmem => hdistinct field (List.mem_cons_of_mem _ hmem)
    refine ⟨leafFragment mapping joined source field :: added, below, ?_, ?_, hbelow⟩
    · rw [hcolumns, Draft.withLeaf, List.append_assoc, List.singleton_append]
    · rw [leafFragments, List.filter_cons_of_pos hleaf]
      exact hadded.cons _
  | @single joined source field rest draft middle draft' relation set hrelation _ hset _ _ ihbelow ihrest =>
    obtain ⟨added', below', hcolumns', hadded', hbelow'⟩ :=
      ihrest fun field hmem => hdistinct field (List.mem_cons_of_mem _ hmem)
    cases hdistinct field List.mem_cons_self set hset with
    | intro hkeys hsets =>
      obtain ⟨added, below, hcolumns, hadded, hbelow⟩ := ihbelow hsets
      have hleaves := leafFragments_fresh mapping (relationTarget mapping source draft field) rfl hkeys
      refine ⟨added ++ added', _, ?_, relation_outputs hrelation hadded hadded', (hleaves.append hbelow).append hbelow'⟩
      rw [hcolumns', hcolumns, Draft.withSingle, Draft.withJoin, List.append_nil, List.append_assoc]
  | @lateral joined source field rest draft draft' relation set choice parameters hrelation _ hset _ _ ihrest =>
    obtain ⟨added', below', hcolumns', hadded', hbelow'⟩ :=
      ihrest fun field hmem => hdistinct field (List.mem_cons_of_mem _ hmem)
    cases hdistinct field List.mem_cons_self set hset with
    | @intro inner typename hkeys hsets =>
      let target := relationTarget mapping source draft field
      have hleaves := leafFragments_fresh mapping target rfl hkeys
      refine ⟨leafFragments mapping true target inner ++ added', _, ?_, relation_outputs hrelation .rfl hadded',
        hleaves.append hbelow'⟩
      rw [hcolumns', ← List.append_assoc]
      rfl

/-! ### Names at the root -/

/-- The name of a leaf at the root: its alias, or the column it is read from. -/
def rootName (mapping : Mapping) (typeName : String) (field : SelectedField) : String :=
  if field.responseKey = field.name then mapping.columnName typeName field.name else field.responseKey

theorem leafFragment_root (mapping : Mapping) (source : Source) (field : SelectedField) :
    (leafFragment mapping false source field).outputName = some (rootName mapping source.typeName field) := by
  unfold leafFragment leafOutput rootName SelectedField.responseKey
  cases field.aliasName with
  | none => simp [Fragment.outputName, Mapping.column]
  | some aliasName =>
    by_cases hname : aliasName = field.name
    · simp [hname, Fragment.outputName, Mapping.column]
    · simp [hname, Fragment.outputName]

/-- A leaf is read from the table of its source, and a column named for another alias is not. -/
theorem isOf_leafFragment (mapping : Mapping) (joined : Bool) (source : Source) (field : SelectedField) :
    (leafFragment mapping joined source field).isOf source.aliasName := by
  rw [Fragment.isOf, leafFragment_columns]
  simp [Mapping.column]

theorem isOf_of_namedFor {aliasName other : String} {fragment : Fragment} (hnamed : NamedFor aliasName fragment) :
    fragment.isOf other = decide (aliasName = other) := by
  obtain ⟨column, key, rfl, hqualifier⟩ := hnamed
  simp [Fragment.isOf, Fragment.columns, hqualifier]

section

variable {mapping : Mapping} {parentType : String} {returnType : Option TypeRef} {field : SelectedField}
  {result : SelectResult} {typeName : String} {draft : Draft} {choice : Arguments.RowChoice Column}

/-- The columns of a compiled SELECT are the leaves of the root and columns named for the aliases of joins. -/
theorem CompiledSelect.outputs
    (hcompiled : CompiledSelect mapping parentType returnType field result typeName draft choice)
    (hdistinct : ∀ set ∈ field.selections, Selection.Distinct set) :
    ∃ below, result.statement.columns.Perm (leafFragments mapping false (rootSource typeName) field.children ++ below) ∧
      FreshOutputs [initial typeName] draft.aliases below := by
  have hbelow : ∀ child ∈ field.children, ∀ set, child.selections = some set → Selection.Distinct set := by
    intro child hchild set hset
    rw [SelectedField.children] at hchild
    cases hselections : field.selections with
    | none => simp [hselections] at hchild
    | some inner =>
      rw [hselections] at hchild
      cases hdistinct inner hselections with
      | intro _ hsets => exact hsets child hchild set hset
  obtain ⟨added, below, hcolumns, hadded, hfresh⟩ := hcompiled.walk.outputs hbelow
  have hstatement : result.statement.columns = added := by
    rw [hcompiled.statement]
    exact hcolumns
  exact ⟨below, hstatement ▸ hadded, hfresh⟩

/-- Among the columns of a compiled SELECT, those that are not of the root are those below its relations. -/
theorem filter_isOf_perm {columns below : List Fragment} {taken : List String} {source : Source}
    {fields : List SelectedField} (hcolumns : columns.Perm (leafFragments mapping false source fields ++ below))
    (hfresh : FreshOutputs [source.aliasName] taken below) :
    (columns.filter fun column => !column.isOf source.aliasName).Perm below := by
  have hleaves :
      (leafFragments mapping false source fields).filter (fun column => !column.isOf source.aliasName) = [] := by
    rw [List.filter_eq_nil_iff]
    intro fragment hfragment
    obtain ⟨leaf, -, rfl⟩ := List.mem_map.1 hfragment
    simp [isOf_leafFragment]
  have hbelow : below.filter (fun column => !column.isOf source.aliasName) = below := by
    rw [List.filter_eq_self]
    intro fragment hfragment
    obtain ⟨aliasName, hnamed, -, hnew, -⟩ := hfresh.fresh fragment hfragment
    simpa [isOf_of_namedFor hnamed] using hnew
  have hfiltered := hcolumns.filter fun column => !column.isOf source.aliasName
  rwa [List.filter_append, hleaves, hbelow, List.nil_append] at hfiltered

end

/-- The output names of a compiled SELECT are those of the root's leaves and those of the columns below its relations.
The latter are always distinct, each being a join's alias with an underscore and a response key behind it. So two
columns have the same name only if two leaves of the root have, or a leaf of the root is called like a column below
a relation. -/
theorem output_names_distinct_iff {mapping : Mapping} {parentType : String} {type : TypeRef} {field : SelectedField}
    {result : SelectResult} (hcompiled : compileSelect mapping parentType (some type) field = .ok result)
    (hdistinct : ∀ set ∈ field.selections, Selection.Distinct set) :
    let names := outputNames result.statement.columns
    let atRoot := (field.children.filter (isLeaf mapping type.namedType)).map (rootName mapping type.namedType)
    let joined := outputNames (result.statement.columns.filter fun column => !column.isOf (initial type.namedType))
    names.Perm (atRoot ++ joined) ∧ joined.Nodup ∧
      (∀ name ∈ joined, ∃ join ∈ result.statement.joins, ∃ key, name = join.aliasName ++ "_" ++ key) ∧
      (names.Nodup ↔ atRoot.Nodup ∧ ∀ name ∈ atRoot, name ∉ joined) := by
  intro names atRoot joined
  obtain ⟨typeName, draft, choice, hcompiled⟩ := compileSelect_eq_ok.1 hcompiled
  obtain rfl : type.namedType = typeName := Option.some.inj hcompiled.type
  obtain ⟨below, hcolumns, hfresh⟩ := hcompiled.outputs hdistinct
  -- the alias of its table tells whether a column is of the root, so what is left out by it is `below`
  have hjoined : joined.Perm (outputNames below) :=
    (filter_isOf_perm hcolumns hfresh).filterMap _
  have hnames : names.Perm (atRoot ++ joined) := by
    have hleaves : outputNames (leafFragments mapping false (rootSource type.namedType) field.children) = atRoot :=
      outputNames_map (leafFragment_root mapping (rootSource type.namedType)) _
    have hsplit := hcolumns.filterMap Fragment.outputName
    rw [List.filterMap_append] at hsplit
    rw [← hleaves]
    exact hsplit.trans (hjoined.symm.append_left _)
  have hnodup : joined.Nodup := hjoined.nodup_iff.2 hfresh.nodup
  refine ⟨hnames, hnodup, ?_, ?_⟩
  · intro name hname
    obtain ⟨fragment, hfragment, hname⟩ := List.mem_filterMap.1 (hjoined.mem_iff.1 hname)
    obtain ⟨aliasName, ⟨column, key, rfl, -⟩, -, hnew, hgiven⟩ := hfresh.fresh fragment hfragment
    have hdraft := (hcompiled.walk.scoped (Draft.Scoped.root_scoped _) (Draft.Scoped.root_reads _)).1
    rcases List.mem_cons.1 (hdraft.mem_aliases.1 hgiven) with hroot | hmem
    · exact absurd (List.mem_singleton.2 hroot) hnew
    · obtain ⟨join, hjoin, rfl⟩ := List.mem_map.1 hmem
      rw [hcompiled.statement]
      exact ⟨join, hjoin, key, (Option.some.inj hname).symm⟩
  · rw [hnames.nodup_iff, List.nodup_append]
    constructor
    · rintro ⟨hroot, -, hapart⟩
      exact ⟨hroot, fun name hname hother => hapart name hname name hother rfl⟩
    · rintro ⟨hroot, hapart⟩
      refine ⟨hroot, hnodup, ?_⟩
      rintro name hname other hother rfl
      exact hapart name hname hother

theorem distinct_leaf (name : String) : Selection.Distinct ⟨[leafField name], false⟩ :=
  .intro (List.nodup_singleton _) (by simp [leafField])

theorem memberPage_distinct : ∀ set ∈ memberPage.selections, Selection.Distinct set := by
  rintro _ ⟨⟩
  refine .intro (by decide) ?_
  simp only [List.forall_mem_cons, relationOf, leafField, Option.some.injEq, forall_eq', reduceCtorEq, false_implies,
    implies_true, true_and]
  refine ⟨.intro (by decide) ?_, distinct_leaf "id", by simp⟩
  simpa [leafField] using distinct_leaf "url"

theorem output_names_distinct_memberPage :
    ∃ result, compileSelect members "Query" (some (.named "User")) memberPage = .ok result ∧
      outputNames result.statement.columns = ["id", "p_bio", "p2_url", "p3_id"] ∧
      (outputNames result.statement.columns).Nodup :=
  have hcompiled : compileSelect members "Query" (some (.named "User")) memberPage = .ok _ := rfl
  ⟨_, hcompiled, rfl, (output_names_distinct_iff hcompiled memberPage_distinct).2.2.2.2 (by decide)⟩

/-- The id of a member under the name that the join of their posts gives to the id of a post. -/
theorem joined_name_taken_at_root :
    ¬∀ (mapping : Mapping) (parentType : String) (type : TypeRef) (field : SelectedField) (result : SelectResult),
      (∀ set ∈ field.selections, Selection.Distinct set) →
      compileSelect mapping parentType (some type) field = .ok result →
      (outputNames result.statement.columns).Nodup := by
  intro hnames
  let field :=
    relationOf "users" [] [{ leafField "id" with aliasName := some "p_id" }, relationOf "posts" [] [leafField "id"]]
  have hdistinct : ∀ set ∈ field.selections, Selection.Distinct set := by
    rintro _ ⟨⟩
    refine .intro (by decide) ?_
    simpa [relationOf, leafField] using distinct_leaf "id"
  have htwice := hnames userPosts "Query" (.named "User") field _ hdistinct rfl
  exact absurd htwice (by decide)

end Mapping

end RelationalGraphQL
