import RelationalGraphQL.Proofs.Mapping.Numbering
import RelationalGraphQL.Proofs.Sql.Evaluation

/-!
# Aliases in scope

The joins of a SELECT see the table of the root and the joins before them, and its other clauses see all of these. A
compiled statement names nothing else: its aliases are distinct, since each is fresh when it is given out, and a join is
added before anything below it is read. A column that is read from a subquery is one that the subquery selects.
-/

namespace RelationalGraphQL

namespace Sql

namespace Condition

variable {κ : Type}

mutual

/-- The columns that a condition is on. -/
def columns : Condition κ → List κ
  | .isNull c | .isNotNull c | .compare c _ _ | .anyOf c _ | .noneOf c _ => [c]
  | .disjunction branches => branchColumns branches
  | .negation conditions => allColumns conditions

def allColumns : List (Condition κ) → List κ
  | [] => []
  | condition :: conditions => columns condition ++ allColumns conditions

def branchColumns : List (List (Condition κ)) → List κ
  | [] => []
  | branch :: branches => allColumns branch ++ branchColumns branches

end

theorem allColumns_eq (conditions : List (Condition κ)) : allColumns conditions = conditions.flatMap columns := by
  induction conditions with
  | nil => rfl
  | cons condition conditions ih => rw [allColumns, ih, List.flatMap_cons]

theorem branchColumns_eq (branches : List (List (Condition κ))) :
    branchColumns branches = branches.flatMap fun branch => branch.flatMap columns := by
  induction branches with
  | nil => rfl
  | cons branch branches ih => rw [branchColumns, ih, allColumns_eq, List.flatMap_cons]

theorem Readable.known_of_mem {known : κ → Prop} {condition : Condition κ} (hreadable : Readable known condition) :
    ∀ c ∈ condition.columns, known c := by
  induction hreadable with
  | @asking c asked hknown _ =>
    intro other hother
    have heq : other = c := by cases asked <;> simpa [Condition.asking, columns] using hother
    rwa [heq]
  | disjunction _ _ _ ih =>
    intro c hc
    rw [columns, branchColumns_eq] at hc
    obtain ⟨branch, hbranch, hc⟩ := List.mem_flatMap.1 hc
    obtain ⟨condition, hcondition, hc⟩ := List.mem_flatMap.1 hc
    exact ih branch hbranch condition hcondition c hc
  | negation _ ih =>
    intro c hc
    rw [columns, allColumns_eq] at hc
    obtain ⟨condition, hcondition, hc⟩ := List.mem_flatMap.1 hc
    exact ih condition hcondition c hc

end Condition

/-- The columns that a fragment names. -/
def Fragment.columns : Fragment → List Column
  | .column c | .output c _ => [c]
  | .equal left right => [left, right]
  | .conjunction conditions => Condition.allColumns conditions
  | .linked target link targetKey targetColumn =>
    [{ qualifier := some (.table link), name := targetKey }, { qualifier := some (.table target), name := targetColumn }]
  | .always | .operand _ | .excluded _ => []

/-- A column is read by an alias that is in scope. -/
def Column.OfAlias (scope : List String) (column : Column) : Prop :=
  ∃ aliasName ∈ scope, column.qualifier = some (.aliased aliasName)

theorem Column.OfAlias.mono {scope scope' : List String} {column : Column} (hcolumn : column.OfAlias scope)
    (hscope : scope ⊆ scope') : column.OfAlias scope' := by
  obtain ⟨aliasName, hmem, hqualifier⟩ := hcolumn
  exact ⟨aliasName, hscope hmem, hqualifier⟩

/-- A join that names what it sees: its condition its own alias and those in scope, its subquery those in scope only. The
first condition of the subquery ties it to a row in scope. -/
structure Join.Scoped (scope : List String) (join : Join Fragment) : Prop where
  on : ∀ fragment ∈ join.on, ∀ column ∈ fragment.columns, column.OfAlias (join.aliasName :: scope)
  subquery : ∀ query ∈ join.subquery, ∀ fragment ∈ query.fragments, ∀ column ∈ fragment.columns,
    ∀ aliasName, column.qualifier = some (.aliased aliasName) → aliasName ∈ scope
  correlated : ∀ query ∈ join.subquery, ∃ own parent conditions, query.conditions = .equal own parent :: conditions ∧
    parent.OfAlias scope

/-- What is read from a join is among the columns that it offers, if it is a subquery. -/
def Join.Offers (join : Join Fragment) (column : Column) : Prop :=
  column.qualifier = some (.aliased join.aliasName) →
    ∀ query ∈ join.subquery, ∃ inner ∈ query.columns, inner.outputName = some column.name

/-- A SELECT whose aliases are distinct and in scope wherever they are used. -/
structure Select.Scoped (root : String) (select : Select Fragment) : Prop where
  aliasName : select.aliasName = some root
  distinct : (root :: select.joins.map Join.aliasName).Nodup
  clauses : ∀ fragment ∈ select.columns ++ select.conditions ++ select.order.map OrderItem.column,
    ∀ column ∈ fragment.columns, column.OfAlias (root :: select.joins.map Join.aliasName)
  joins : ∀ place (join : Join Fragment), select.joins[place]? = some join →
    join.Scoped (root :: (select.joins.take place).map Join.aliasName)
  offered : ∀ fragment ∈ select.columns, ∀ column ∈ fragment.columns, ∀ join ∈ select.joins, join.Offers column

end Sql

namespace Mapping

open Arguments (RowChoice orderArgument_columns readRowChoice readRowChoice_lowered readRowChoice_run_eq_ok)
open Sql (Column Fragment Join Parameters)

variable {source : Source} {arguments : List (String × Json)} {choice : RowChoice Column} {bound bound' : Parameters}
  {scope : List String} {join : Join Fragment}

/-! ### Columns of fragments -/

theorem choice_columns {column : String → Column}
    (hread : (readRowChoice arguments column).run bound = .ok (choice, bound')) :
    ∀ fragment ∈ choice.conditions.map Fragment.conjunction ++ (orderFragments choice.order).map Sql.OrderItem.column,
      ∀ c ∈ fragment.columns, ∃ field, column field = c := by
  intro fragment hfragment c hc
  rcases List.mem_append.1 hfragment with hfragment | hfragment
  · obtain ⟨group, hgroup, rfl⟩ := List.mem_map.1 hfragment
    rw [Fragment.columns, Sql.Condition.allColumns_eq] at hc
    obtain ⟨condition, hcondition, hc⟩ := List.mem_flatMap.1 hc
    have hflat := List.mem_flatten.2 ⟨group, hgroup, hcondition⟩
    exact ((readRowChoice_lowered hread).flat.readable condition hflat).known_of_mem c hc
  · simp only [orderFragments, List.map_map, List.mem_map] at hfragment
    obtain ⟨item, hitem, rfl⟩ := hfragment
    obtain ⟨_, _, _, _, _, -, -, -, -, horder, -⟩ := readRowChoice_run_eq_ok.1 hread
    obtain ⟨field, hfield⟩ := orderArgument_columns horder item hitem
    exact ⟨field, hfield.trans (List.mem_singleton.1 hc).symm⟩

theorem leafFragment_columns (mapping : Mapping) (joined : Bool) (source : Source) (field : SelectedField) :
    (leafFragment mapping joined source field).columns =
      [mapping.column source.typeName (some (.aliased source.aliasName)) field.name] := by
  unfold leafFragment leafOutput
  split
  · rfl
  · split
    · split <;> rfl
    · rfl

/-- Inside a subquery, columns are qualified by tables, if at all; only the tie to the parent's row names an alias. -/
theorem correlation_columns (parent : Source) (relation : Relation) :
    (∀ aliasName, (correlation parent relation).1 ≠ some (.aliased aliasName)) ∧
      (∀ source ∈ (correlation parent relation).2.1, ∀ column ∈ source.columns,
        ∀ aliasName, column.qualifier ≠ some (.aliased aliasName)) ∧
      ∃ own : Column, (∀ aliasName, own.qualifier ≠ some (.aliased aliasName)) ∧
        (correlation parent relation).2.2 =
          .equal own { qualifier := some (.aliased parent.aliasName), name := relation.sourceColumn } := by
  unfold correlation
  cases relation.link with
  | none => exact ⟨by simp, nofun, { name := relation.targetColumn }, by simp, rfl⟩
  | some link =>
    refine ⟨by simp, ?_, { qualifier := some (.table link.table), name := link.sourceKey }, by simp, rfl⟩
    rintro _ ⟨⟩ column hcolumn aliasName
    rcases List.mem_pair.1 hcolumn with rfl | rfl <;> simp

theorem mem_distinctColumns {columns : List Column} {column : Column} (hcolumn : column ∈ columns) :
    column ∈ distinctColumns columns := by
  have hkeeps : ∀ (rest seen : List Column), (column ∈ seen ∨ column ∈ rest) →
      column ∈ rest.foldl (fun seen column => if column ∈ seen then seen else seen ++ [column]) seen := by
    intro rest
    induction rest with
    | nil =>
      rintro seen (hseen | hnil)
      · exact hseen
      · cases hnil
    | cons first rest ih =>
      intro seen hmem
      rw [List.foldl_cons]
      apply ih
      grind
  exact hkeeps columns [] (.inr hcolumn)

/-! ### Joins -/

theorem singleJoin_scoped (hsource : source.aliasName ∈ scope) (relation : Relation) (aliasName : String) :
    (singleJoin source relation aliasName).Scoped scope where
  on := by
    rintro _ ⟨⟩ column hcolumn
    rcases List.mem_pair.1 hcolumn with rfl | rfl
    · exact ⟨source.aliasName, List.mem_cons_of_mem _ hsource, rfl⟩
    · exact ⟨aliasName, List.mem_cons_self, rfl⟩
  subquery := nofun
  correlated := nofun

theorem lateralJoined_subquery (mapping : Mapping) (source : Source) (relation : Relation) (target : Source)
    (children : List SelectedField) (choice : RowChoice Column) :
    (lateralJoined mapping source relation target children choice).subquery = some
      { columns := (distinctColumns ((lateralFields mapping target.typeName children).map fun leaf =>
          mapping.column target.typeName (correlation source relation).1 leaf.name)).map .column
        source := (correlation source relation).2.1
        conditions := (correlation source relation).2.2 :: choice.conditions.map .conjunction
        order := orderFragments choice.order
        limit := choice.limit
        offset := choice.offset } := rfl

theorem lateralJoined_scoped {mapping : Mapping} {relation : Relation} (target : Source) (children : List SelectedField)
    (hsource : source.aliasName ∈ scope)
    (hread : (readRowChoice arguments (mapping.column target.typeName (correlation source relation).1)).run bound =
      .ok (choice, bound')) : (lateralJoined mapping source relation target children choice).Scoped scope := by
  obtain ⟨hqualifier, hfrom, own, hown, htie⟩ := correlation_columns source relation
  have hsubquery := lateralJoined_subquery mapping source relation target children choice
  refine ⟨?_, ?_, ?_⟩
  · intro fragment hfragment
    simp only [lateralJoined] at hfragment
    split at hfragment
    · cases hfragment
    · cases hfragment
      intro column hcolumn
      cases hcolumn
  · intro query hquery fragment hfragment column hcolumn aliasName haliased
    rw [hsubquery, Option.mem_some_iff] at hquery
    subst hquery
    simp only [Sql.Subquery.fragments, List.mem_append, List.mem_cons, Option.mem_toList] at hfragment
    rcases hfragment with hmem | hmem | (rfl | hmem) | hmem
    · obtain ⟨selected, hselected, rfl⟩ := List.mem_map.1 hmem
      obtain ⟨leaf, -, rfl⟩ := List.mem_map.1 (mem_of_mem_distinctColumns hselected)
      rw [List.mem_singleton.1 hcolumn] at haliased
      exact absurd haliased (hqualifier aliasName)
    · exact absurd haliased (hfrom fragment hmem column hcolumn aliasName)
    · rw [htie] at hcolumn
      rcases List.mem_pair.1 hcolumn with rfl | rfl
      · exact absurd haliased (hown aliasName)
      · cases haliased
        exact hsource
    · obtain ⟨name, rfl⟩ := choice_columns hread fragment (List.mem_append_left _ hmem) column hcolumn
      exact absurd haliased (hqualifier aliasName)
    · obtain ⟨name, rfl⟩ := choice_columns hread fragment (List.mem_append_right _ hmem) column hcolumn
      exact absurd haliased (hqualifier aliasName)
  · intro query hquery
    rw [hsubquery, Option.mem_some_iff] at hquery
    subst hquery
    exact ⟨own, _, _, by rw [htie], source.aliasName, hsource, rfl⟩

/-- What is selected of a to-many relation is read from its subquery, which selects it. -/
theorem lateralOutputs_offered {mapping : Mapping} {target : Source} {children : List SelectedField}
    (source : Source) (relation : Relation) (choice : RowChoice Column) {fragment : Fragment}
    (hfragment : fragment ∈ lateralOutputs mapping target children) :
    ∀ column ∈ fragment.columns, column.qualifier = some (.aliased target.aliasName) ∧
      (lateralJoined mapping source relation target children choice).Offers column := by
  obtain ⟨leaf, hleaf, rfl⟩ := List.mem_map.1 hfragment
  intro column hcolumn
  obtain rfl := List.mem_singleton.1 hcolumn
  refine ⟨rfl, ?_⟩
  rintro - _ ⟨⟩
  exact ⟨_, List.mem_map_of_mem (mem_distinctColumns (List.mem_map_of_mem hleaf)), rfl⟩

/-! ### Drafts -/

/-- The aliases of a draft are those of the root and of its joins, the last one first, and they are used in scope. -/
structure Draft.Scoped (root : String) (draft : Draft) : Prop where
  aliases : draft.aliases = (root :: draft.joins.map Join.aliasName).reverse
  nodup : draft.aliases.Nodup
  columns : ∀ fragment ∈ draft.columns, ∀ column ∈ fragment.columns,
    column.OfAlias draft.aliases ∧ ∀ join ∈ draft.joins, join.Offers column
  joins : ∀ place (join : Join Fragment), draft.joins[place]? = some join →
    join.Scoped (root :: (draft.joins.take place).map Join.aliasName)

/-- An alias whose columns can be read as they are: it is given out, and not to a subquery. -/
def Draft.Reads (draft : Draft) (aliasName : String) : Prop :=
  aliasName ∈ draft.aliases ∧ ∀ join ∈ draft.joins, join.aliasName = aliasName → join.subquery = none

namespace Draft.Scoped

variable {mapping : Mapping} {root : String} {draft : Draft}

theorem root_reads (typeName : String) : (rootDraft typeName).Reads (rootSource typeName).aliasName :=
  ⟨List.mem_singleton.2 rfl, by simp [rootDraft]⟩

theorem root_scoped (typeName : String) : (rootDraft typeName).Scoped (rootSource typeName).aliasName where
  aliases := rfl
  nodup := List.nodup_singleton _
  columns := by simp [rootDraft]
  joins := by simp [rootDraft]

theorem mem_aliases (hdraft : draft.Scoped root) {aliasName : String} :
    aliasName ∈ draft.aliases ↔ aliasName ∈ root :: draft.joins.map Join.aliasName := by
  rw [hdraft.aliases, List.mem_reverse]

theorem aliasName_mem (hdraft : draft.Scoped root) {join : Join Fragment} (hjoin : join ∈ draft.joins) :
    join.aliasName ∈ draft.aliases :=
  hdraft.mem_aliases.2 (List.mem_cons_of_mem _ (List.mem_map_of_mem hjoin))

theorem withLeaf (hdraft : draft.Scoped root) {source : Source} (hreads : draft.Reads source.aliasName) (joined : Bool)
    (field : SelectedField) : (draft.withLeaf mapping joined source field).Scoped root where
  aliases := hdraft.aliases
  nodup := hdraft.nodup
  columns := by
    intro fragment hfragment column hcolumn
    rcases List.mem_append.1 hfragment with hmem | hmem
    · exact hdraft.columns fragment hmem column hcolumn
    · obtain rfl := List.mem_singleton.1 hmem
      rw [leafFragment_columns, List.mem_singleton] at hcolumn
      subst hcolumn
      refine ⟨⟨source.aliasName, hreads.1, rfl⟩, ?_⟩
      -- The alias is not that of a subquery, so nothing is asked of the column.
      intro join hjoin haliased query hquery
      have heq : source.aliasName = join.aliasName := by injection Option.some.inj haliased
      rw [hreads.2 join hjoin heq.symm] at hquery
      cases hquery
  joins := hdraft.joins

/-- A join under a fresh alias is read by the new columns only, and they read nothing else. -/
theorem withJoin (hdraft : draft.Scoped root) {join : Join Fragment} (hfresh : join.aliasName ∉ draft.aliases)
    (hjoin : join.Scoped (root :: draft.joins.map Join.aliasName)) {columns : List Fragment}
    (hcolumns : ∀ fragment ∈ columns, ∀ column ∈ fragment.columns,
      column.qualifier = some (.aliased join.aliasName) ∧ join.Offers column) (parameters : Parameters) :
    (draft.withJoin join columns parameters).Scoped root where
  aliases := by simp [Draft.withJoin, hdraft.aliases]
  nodup := List.nodup_cons.2 ⟨hfresh, hdraft.nodup⟩
  columns := by
    intro fragment hfragment column hcolumn
    rcases List.mem_append.1 hfragment with hmem | hmem
    · obtain ⟨hof, hoffered⟩ := hdraft.columns fragment hmem column hcolumn
      refine ⟨hof.mono (List.subset_cons_self _ _), ?_⟩
      intro other hother
      rcases List.mem_append.1 hother with hother | hother
      · exact hoffered other hother
      · obtain rfl := List.mem_singleton.1 hother
        intro haliased
        obtain ⟨aliasName, hold, hqualifier⟩ := hof
        rw [hqualifier] at haliased
        cases haliased
        exact absurd hold hfresh
    · obtain ⟨hqualifier, hoffers⟩ := hcolumns fragment hmem column hcolumn
      refine ⟨⟨join.aliasName, List.mem_cons_self, hqualifier⟩, ?_⟩
      intro other hother
      rcases List.mem_append.1 hother with hother | hother
      · intro haliased
        rw [hqualifier] at haliased
        have heq : join.aliasName = other.aliasName := by injection Option.some.inj haliased
        exact absurd (heq ▸ hdraft.aliasName_mem hother) hfresh
      · exact List.mem_singleton.1 hother ▸ hoffers
  joins := by
    intro place other hother
    simp only [Draft.withJoin] at hother ⊢
    by_cases hplace : place < draft.joins.length
    · rw [List.getElem?_append_left hplace] at hother
      rw [List.take_append_of_le_length (by omega)]
      exact hdraft.joins place other hother
    · obtain ⟨rfl, rfl⟩ : place = draft.joins.length ∧ join = other := by
        rw [List.getElem?_append_right (by omega), List.getElem?_singleton] at hother
        split at hother
        · exact ⟨by omega, Option.some.inj hother⟩
        · cases hother
      rw [List.take_left']
      · exact hjoin
      · rfl

end Draft.Scoped

theorem Draft.Reads.withJoin {draft : Draft} {aliasName : String} (hreads : draft.Reads aliasName)
    (hfresh : join.aliasName ∉ draft.aliases) (columns : List Fragment) (parameters : Parameters) :
    (draft.withJoin join columns parameters).Reads aliasName := by
  refine ⟨List.mem_cons_of_mem _ hreads.1, ?_⟩
  intro other hother heq
  rcases List.mem_append.1 hother with hother | hother
  · exact hreads.2 other hother heq
  · obtain rfl := List.mem_singleton.1 hother
    exact absurd (heq ▸ hreads.1) hfresh

theorem Draft.Scoped.reads_withJoin {root : String} {draft : Draft} (hdraft : draft.Scoped root)
    (hfresh : join.aliasName ∉ draft.aliases) (hplain : join.subquery = none) (columns : List Fragment)
    (parameters : Parameters) : (draft.withJoin join columns parameters).Reads join.aliasName := by
  refine ⟨List.mem_cons_self, ?_⟩
  intro other hother heq
  rcases List.mem_append.1 hother with hother | hother
  · exact absurd (heq ▸ hdraft.aliasName_mem hother) hfresh
  · rwa [List.mem_singleton.1 hother]

/-- Walking a selection keeps aliases in scope, and what could be read before can be read afterwards. -/
theorem Draft.Walk.scoped {mapping : Mapping} {joined : Bool} {fields : List SelectedField} {draft draft' : Draft}
    (hwalk : Draft.Walk mapping joined source fields draft draft') {root : String} (hdraft : draft.Scoped root)
    (hreads : draft.Reads source.aliasName) :
    draft'.Scoped root ∧ ∀ aliasName, draft.Reads aliasName → draft'.Reads aliasName := by
  induction hwalk with
  | nil => exact ⟨hdraft, fun _ h => h⟩
  | skip _ _ _ ih => exact ih hdraft hreads
  | leaf _ _ ih => exact ih (hdraft.withLeaf hreads _ _) hreads
  | @single joined source field rest draft middle draft' relation set _ _ _ _ _ ihbelow ihrest =>
    have hfresh := freshAlias_notMem draft.aliases field.responseKey
    have hscope := hdraft.mem_aliases.1 hreads.1
    have hjoined : (draft.withSingle mapping source field relation).Scoped root :=
      hdraft.withJoin hfresh (singleJoin_scoped hscope relation _) (by simp) draft.parameters
    have hkept : ∀ aliasName, draft.Reads aliasName → (draft.withSingle mapping source field relation).Reads aliasName :=
      fun aliasName hbefore => hbefore.withJoin hfresh [] draft.parameters
    obtain ⟨hmiddle, hbelow⟩ := ihbelow hjoined (hdraft.reads_withJoin hfresh rfl [] draft.parameters)
    obtain ⟨hlast, hrest⟩ := ihrest hmiddle (hbelow _ (hkept _ hreads))
    exact ⟨hlast, fun aliasName hbefore => hrest _ (hbelow _ (hkept _ hbefore))⟩
  | @lateral joined source field rest draft draft' relation set choice parameters _ _ _ hread _ ihrest =>
    let target := relationTarget mapping source draft field
    let join := lateralJoined mapping source relation target set.fields choice
    have hfresh : join.aliasName ∉ draft.aliases := freshAlias_notMem draft.aliases field.responseKey
    have hjoin : join.Scoped (root :: draft.joins.map Join.aliasName) :=
      lateralJoined_scoped target set.fields (hdraft.mem_aliases.1 hreads.1) hread
    have hoffered : ∀ fragment ∈ lateralOutputs mapping target set.fields, ∀ column ∈ fragment.columns,
        column.qualifier = some (.aliased join.aliasName) ∧ join.Offers column :=
      fun _ hfragment => lateralOutputs_offered source relation choice hfragment
    have hkept : ∀ aliasName, draft.Reads aliasName → (draft.withJoin join _ parameters).Reads aliasName :=
      fun aliasName hbefore => hbefore.withJoin hfresh (lateralOutputs mapping target set.fields) parameters
    obtain ⟨hlast, hrest⟩ := ihrest (hdraft.withJoin hfresh hjoin hoffered parameters) (hkept _ hreads)
    exact ⟨hlast, fun aliasName hbefore => hrest _ (hkept _ hbefore)⟩

/-! ### Compiled statements -/

/-- The aliases of a compiled SELECT are pairwise distinct, and every one that qualifies a column is in scope there: in
the clauses of the statement that of the root or of a join, in the condition of a join also its own and otherwise those
before it, and in a subquery, whose first condition ties it to a row before it, only those. What is selected under the
alias of a subquery is one of its columns. -/
theorem aliases_in_scope {mapping : Mapping} {parentType : String} {returnType : Option TypeRef} {field : SelectedField}
    {result : SelectResult} (hcompiled : compileSelect mapping parentType returnType field = .ok result) :
    ∃ root, result.statement.Scoped root := by
  obtain ⟨typeName, draft, choice, hcompiled⟩ := compileSelect_eq_ok.1 hcompiled
  have hdraft := (hcompiled.walk.scoped (Draft.Scoped.root_scoped typeName) (Draft.Scoped.root_reads typeName)).1
  refine ⟨(rootSource typeName).aliasName, ?_⟩
  rw [hcompiled.statement]
  refine ⟨rfl, ?_, ?_, hdraft.joins, ?_⟩
  · have hnodup := hdraft.nodup
    rwa [hdraft.aliases, List.nodup_reverse] at hnodup
  · intro fragment hfragment column hcolumn
    rw [List.append_assoc] at hfragment
    rcases List.mem_append.1 hfragment with hselected | hchosen
    · exact (hdraft.columns fragment hselected column hcolumn).1.mono fun _ => hdraft.mem_aliases.1
    · obtain ⟨name, rfl⟩ := choice_columns hcompiled.read fragment hchosen column hcolumn
      exact ⟨_, List.mem_cons_self, rfl⟩
  · intro fragment hfragment column hcolumn
    exact (hdraft.columns fragment hfragment column hcolumn).2

/-! ### Members with their photos -/

def relationField (name typeName : String) : String × Schema.Field := (name, { name, type := .named typeName })

/-- Users have a profile, which has photos, and posts. -/
def members : Mapping where
  schema :=
    { objects :=
        [("User", { name := "User", fields := [relationField "profile" "Profile", relationField "posts" "Post"] }),
         ("Profile", { name := "Profile", fields := [relationField "photos" "Photo"] })] }
  dialect := .postgres
  tables := [("User", "users")]
  columns :=
    [(("User", "id"), "id"), (("Profile", "bio"), "bio"), (("Photo", "id"), "id"), (("Photo", "url"), "url"),
     (("Post", "id"), "id")]
  relations :=
    [("User.profile", { kind := .hasOne, table := "profiles", sourceColumn := "id", targetColumn := "user_id" }),
     ("Profile.photos",
        { kind := .manyToMany, table := "photos", sourceColumn := "id", targetColumn := "id"
          link := some { table := "albums", sourceKey := "profile_id", targetKey := "photo_id" } }),
     ("User.posts", { kind := .hasMany, table := "posts", sourceColumn := "id", targetColumn := "user_id" })]

def relationOf (name : String) (arguments : List (String × Json)) (fields : List SelectedField) : SelectedField :=
  ⟨name, none, arguments, [], none, {}, some ⟨fields, false⟩⟩

/-- A member's profile with its first photos, and the member's posts. -/
def memberPage : SelectedField :=
  relationOf "users" [("id", .num (.int 7))]
    [leafField "id",
     relationOf "profile" [] [leafField "bio", relationOf "photos" [("limit", .num (.int 3))] [leafField "url"]],
     relationOf "posts" [("where", .obj [("id", .num (.int 1))])] [leafField "id"]]

/-- Three relations that start with the same letter, one of them below another. -/
theorem aliases_in_scope_memberPage :
    ∃ result, compileSelect members "Query" (some (.named "User")) memberPage = .ok result ∧
      result.statement.joins.map Join.aliasName = ["p", "p2", "p3"] ∧ ∃ root, result.statement.Scoped root :=
  ⟨_, rfl, rfl, aliases_in_scope (show compileSelect members "Query" (some (.named "User")) memberPage = .ok _ from rfl)⟩

end Mapping

end RelationalGraphQL
