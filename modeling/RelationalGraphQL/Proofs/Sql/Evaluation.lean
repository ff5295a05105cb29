import RelationalGraphQL.Proofs.Sql.Reading
import RelationalGraphQL.Sql.Statement
import Mathlib.Data.List.Sort

/-!
# The rows of a SELECT

What a statement gives on a database: the rows of its table, extended join after join, kept if the conditions hold,
ordered, and cut to a page. Comparisons are left to the engine, and rows that the ordering does not tell apart stay as
they came. The main fact is `Select.orderedRoots_eq`: when every join keeps its left side, a row of the table comes out
as often as the joins extend it, and where the ordering puts it.

Statements that group their rows, or ask for distinct ones, are not described here.
-/

namespace RelationalGraphQL.Sql

abbrev Row := String → Value

abbrev Database := String → List Row

/-- The rows in scope, the innermost first, each under what qualifies its columns. -/
abbrev Scope := List (Qualifier × Row)

/-- The row of a join that found none. -/
def nullRow : Row := fun _ => .null

/-- How a database compares values. Of two values, the engine says which comes first under an ordering. -/
structure Engine where
  outcome : Value → Test Value → Truth
  equal : Value → Value → Truth
  compare : Direction → Option NullsOrder → Value → Value → Ordering
  compare_self : ∀ direction nulls value, compare direction nulls value value = .eq

def Scope.row (scope : Scope) (qualifier : Qualifier) : Row := (scope.lookup qualifier).getD nullRow

/-- A column without a qualifier belongs to the innermost row. -/
def Column.value (scope : Scope) (column : Column) : Value :=
  match column.qualifier with
  | some qualifier => scope.row qualifier column.name
  | none => (scope.head?.elim nullRow Prod.snd) column.name

namespace Fragment

def value (scope : Scope) : Fragment → Value
  | .column c | .output c _ => c.value scope
  | _ => .null

def outputName : Fragment → Option String
  | .column c => some c.name
  | .output _ name => some name
  | _ => none

def truth (engine : Engine) (parameters : Parameters) (scope : Scope) : Fragment → Truth
  | .conjunction conditions =>
    (Condition.holds (Column.value scope) engine.outcome parameters conditions).getD .unknown
  | .equal left right => engine.equal (left.value scope) (right.value scope)
  | .always => .true
  | _ => .unknown

end Fragment

def satisfies (engine : Engine) (parameters : Parameters) (conditions : List Fragment) (scope : Scope) : Bool :=
  conditions.all fun condition => condition.truth engine parameters scope = .true

/-- How an ordering puts two scopes: the first column that tells them apart decides. -/
def compareScopes (engine : Engine) (order : List (OrderItem Fragment)) (left right : Scope) : Ordering :=
  order.foldr (fun item rest =>
    (engine.compare item.direction item.nulls (item.column.value left) (item.column.value right)).then rest) .eq

def precedes (engine : Engine) (order : List (OrderItem Fragment)) (left right : Scope) : Prop :=
  compareScopes engine order left right ≠ .gt

instance (engine : Engine) (order : List (OrderItem Fragment)) : DecidableRel (precedes engine order) :=
  fun _ _ => inferInstanceAs (Decidable (_ ≠ _))

/-- The rows from an offset on, as many as a limit allows. -/
def page {α : Type} (limit offset : Option Nat) (rows : List α) : List α :=
  let rest := rows.drop (offset.getD 0)
  limit.elim rest fun limit => rest.take limit

section

variable (engine : Engine) (database : Database) (parameters : Parameters)

/-- The scopes that a subquery reads: the rows of its table, or of a table joined with its link table. -/
def Subquery.sources (table : String) (query : Subquery Fragment) (outer : Scope) : List Scope :=
  match query.source with
  | some (.linked target link targetKey targetColumn) =>
    (database target).flatMap fun row =>
      ((database link).filter fun linkRow => engine.equal (linkRow targetKey) (row targetColumn) = .true).map
        fun linkRow => (.table target, row) :: (.table link, linkRow) :: outer
  | _ => (database table).map fun row => (.table table, row) :: outer

/-- The row that a subquery selects from a scope; without columns it is the whole row. -/
def Subquery.project (query : Subquery Fragment) (scope : Scope) : Row := fun name =>
  if query.columns.isEmpty then Column.value scope { name }
  else (query.columns.find? fun column => column.outputName = some name).elim .null (Fragment.value scope)

def Subquery.rows (table : String) (query : Subquery Fragment) (outer : Scope) : List Row :=
  let found := (query.sources engine database table outer).filter (satisfies engine parameters query.conditions)
  (page query.limit query.offset (found.insertionSort (precedes engine query.order))).map query.project

def Join.offered (join : Join Fragment) (scope : Scope) : List Row :=
  join.subquery.elim (database join.table) fun query => query.rows engine database parameters join.table scope

def Join.accepts (join : Join Fragment) (scope : Scope) (row : Row) : Bool :=
  satisfies engine parameters join.on.toList ((.aliased join.aliasName, row) :: scope)

/-- Whether a join keeps the rows on its left that found no match. -/
def JoinKind.keepsLeft : JoinKind → Bool
  | .left | .full | .leftLateral => true
  | .inner | .right | .cross | .lateral => false

def JoinKind.keepsRight : JoinKind → Bool
  | .right | .full => true
  | .inner | .left | .cross | .lateral | .leftLateral => false

def Join.extensions (join : Join Fragment) (scope : Scope) : List Scope :=
  match (join.offered engine database parameters scope).filter (join.accepts engine parameters scope) with
  | [] => if join.kind.keepsLeft then [(.aliased join.aliasName, nullRow) :: scope] else []
  | found => found.map fun row => (.aliased join.aliasName, row) :: scope

def Join.rows (join : Join Fragment) (scopes : List Scope) : List Scope :=
  scopes.flatMap (join.extensions engine database parameters) ++
    if join.kind.keepsRight then
      ((database join.table).filter fun row => !scopes.any fun scope => join.accepts engine parameters scope row).map
        fun row => [(.aliased join.aliasName, row)]
    else []

/-- What qualifies the columns of the table that a SELECT is about. -/
def Select.root (select : Select Fragment) : Qualifier := select.aliasName.elim (.table select.table) .aliased

def Select.joined (select : Select Fragment) : List Scope :=
  select.joins.foldl (fun scopes join => join.rows engine database parameters scopes)
    ((database select.table).map fun row => [(select.root, row)])

def Select.ordered (select : Select Fragment) : List Scope :=
  ((select.joined engine database parameters).filter (satisfies engine parameters select.conditions)).insertionSort
    (precedes engine select.order)

def Select.rows (select : Select Fragment) : List Scope :=
  page select.limit select.offset (select.ordered engine database parameters)

/-- The rows of the table that a SELECT is about, one for each row that it gives. -/
def Select.rootRows (select : Select Fragment) : List Row :=
  (select.rows engine database parameters).map fun scope => scope.row select.root

end

/-! ### Repeated rows -/

/-- Each row as often as it counts. -/
def repeated {α : Type} (count : α → Nat) (rows : List α) : List α :=
  rows.flatMap fun row => List.replicate (count row) row

section

variable {α : Type} {r : α → α → Prop} [DecidableRel r] {count : α → Nat} {a : α} {rows : List α}

theorem iterate_orderedInsert_front (hself : r a a) (hfirst : ∀ b ∈ rows.head?, r a b) (n : Nat) :
    (List.orderedInsert r a)^[n] rows = List.replicate n a ++ rows := by
  induction n with
  | zero => rfl
  | succ n ih =>
    rw [Function.iterate_succ_apply', ih]
    cases n with
    | zero =>
      cases rows with
      | nil => rfl
      | cons b rows => exact if_pos (hfirst b rfl)
    | succ n => exact if_pos hself

theorem iterate_orderedInsert_skip {b : α} (hlater : ¬ r a b) (k : Nat) (rows : List α) (n : Nat) :
    (List.orderedInsert r a)^[n] (List.replicate k b ++ rows) =
      List.replicate k b ++ (List.orderedInsert r a)^[n] rows := by
  have hone : ∀ (k : Nat) (rows : List α), List.orderedInsert r a (List.replicate k b ++ rows) =
      List.replicate k b ++ List.orderedInsert r a rows := by
    intro k rows
    induction k with
    | zero => rfl
    | succ k ih =>
      rw [List.replicate_succ, List.cons_append, List.orderedInsert_of_not_le _ _ hlater, ih, List.cons_append]
  induction n with
  | zero => rfl
  | succ n ih => rw [Function.iterate_succ_apply', Function.iterate_succ_apply', ih, hone]

theorem insertionSort_replicate_append (a : α) (n : Nat) (rows : List α) :
    (List.replicate n a ++ rows).insertionSort r = (List.orderedInsert r a)^[n] (rows.insertionSort r) := by
  induction n with
  | zero => rfl
  | succ n ih =>
    rw [List.replicate_succ, List.cons_append, List.insertionSort_cons, ih, Function.iterate_succ_apply']

theorem iterate_orderedInsert_repeated (hcount : ∀ a, 0 < count a) (hself : ∀ a, r a a) (a : α) (rows : List α) :
    (List.orderedInsert r a)^[count a] (repeated count rows) = repeated count (rows.orderedInsert r a) := by
  induction rows with
  | nil =>
    have hfirst : ∀ b ∈ ([] : List α).head?, r a b := by simp
    simpa [repeated] using iterate_orderedInsert_front (hself a) hfirst (count a)
  | cons b rows ih =>
    by_cases hbefore : r a b
    -- in front of `b` the copies of `a` stay together; behind it they pass all copies of `b`
    · have hfirst : ∀ c ∈ (repeated count (b :: rows)).head?, r a c := by
        intro c hc
        obtain ⟨k, hk⟩ := Nat.exists_eq_succ_of_ne_zero (hcount b).ne'
        rw [repeated, List.flatMap_cons, hk, List.replicate_succ] at hc
        cases hc
        exact hbefore
      rw [iterate_orderedInsert_front (hself a) hfirst, List.orderedInsert_cons_of_le _ _ hbefore]
      rfl
    · rw [List.orderedInsert_of_not_le _ _ hbefore]
      change (List.orderedInsert r a)^[count a] (List.replicate (count b) b ++ repeated count rows) = _
      rw [iterate_orderedInsert_skip hbefore, ih]
      rfl

/-- Ordering rows that are repeated repeats the ordered rows. -/
theorem insertionSort_repeated (hcount : ∀ a, 0 < count a) (hself : ∀ a, r a a) (rows : List α) :
    (repeated count rows).insertionSort r = repeated count (rows.insertionSort r) := by
  induction rows with
  | nil => rfl
  | cons a rows ih =>
    change (List.replicate (count a) a ++ repeated count rows).insertionSort r = _
    rw [insertionSort_replicate_append, ih, iterate_orderedInsert_repeated hcount hself, List.insertionSort_cons]

theorem mem_repeated (hcount : ∀ a, 0 < count a) : a ∈ repeated count rows ↔ a ∈ rows := by
  simp only [repeated, List.mem_flatMap, List.mem_replicate]
  constructor
  · rintro ⟨b, hb, -, rfl⟩
    exact hb
  · intro ha
    exact ⟨a, ha, (hcount a).ne', rfl⟩

theorem repeated_eq_self (hcount : ∀ a ∈ rows, count a = 1) : repeated count rows = rows := by
  induction rows with
  | nil => rfl
  | cons a rows ih =>
    change List.replicate (count a) a ++ repeated count rows = a :: rows
    rw [hcount a (by simp), ih fun b hb => hcount b (by simp [hb])]
    rfl

theorem mem_take_of_mem_take_repeated (hcount : ∀ a, 0 < count a) {n : Nat} (hmem : a ∈ (repeated count rows).take n) :
    a ∈ rows.take n := by
  induction rows generalizing n with
  | nil => simp [repeated] at hmem
  | cons b rows ih =>
    change a ∈ (List.replicate (count b) b ++ repeated count rows).take n at hmem
    rw [List.take_append, List.mem_append, List.take_replicate, List.mem_replicate, List.length_replicate] at hmem
    rcases hmem with ⟨hn, rfl⟩ | hmem
    · obtain ⟨m, rfl⟩ : ∃ m, n = m + 1 := Nat.exists_eq_succ_of_ne_zero fun hzero => hn (by simp [hzero])
      simp
    · have hpos := hcount b
      have hrest := ih hmem
      have hn : n - count b ≤ n - 1 := by omega
      cases n with
      | zero => simp at hrest
      | succ m => exact List.mem_cons_of_mem _ ((List.take_subset_take_left rows hn) hrest)

end

/-! ### Joins that keep their left side -/

section

variable {engine : Engine} {database : Database} {parameters : Parameters} {scope : Scope} {α : Type}
  {root : Qualifier} {join : Join Fragment} {joins : List (Join Fragment)} {select : Select Fragment}
  {offset : Option Nat}

theorem Scope.row_cons_of_ne {qualifier : Qualifier} (hne : qualifier ≠ root) (row : Row) :
    Scope.row ((qualifier, row) :: scope) root = scope.row root := by
  have hbeq : (root == qualifier) = false := beq_eq_false_iff_ne.2 hne.symm
  rw [Scope.row, Scope.row, List.lookup_cons, hbeq]

/-- Left joins and lateral ones: every row on the left is kept, and no other comes in. -/
def JoinKind.isLeft (kind : JoinKind) : Prop := kind.keepsLeft ∧ kind.keepsRight = false

theorem Join.rows_of_isLeft (hleft : join.kind.isLeft) (scopes : List Scope) :
    join.rows engine database parameters scopes = scopes.flatMap (join.extensions engine database parameters) := by
  rw [Join.rows, hleft.2]
  exact List.append_nil _

theorem Join.extensions_ne_nil (hleft : join.kind.isLeft) (scope : Scope) :
    join.extensions engine database parameters scope ≠ [] := by
  unfold Join.extensions
  split
  · rw [if_pos hleft.1]
    exact List.cons_ne_nil _ _
  · rename_i hfound
    intro hnil
    exact hfound (List.map_eq_nil_iff.1 hnil)

theorem Join.row_of_mem_extensions (hroot : .aliased join.aliasName ≠ root) {extended : Scope}
    (hextended : extended ∈ join.extensions engine database parameters scope) : extended.row root = scope.row root := by
  unfold Join.extensions at hextended
  split at hextended
  · split at hextended
    · rw [List.mem_singleton.1 hextended]
      exact Scope.row_cons_of_ne hroot nullRow
    · cases hextended
  · obtain ⟨row, -, rfl⟩ := List.mem_map.1 hextended
    exact Scope.row_cons_of_ne hroot row

variable (engine database parameters) in
def extendAll (joins : List (Join Fragment)) (scopes : List Scope) : List Scope :=
  joins.foldl (fun scopes join => join.rows engine database parameters scopes) scopes

/-- Joins that leave the root alone. -/
def KeepRoot (root : Qualifier) (joins : List (Join Fragment)) : Prop :=
  ∀ join ∈ joins, join.kind.isLeft ∧ .aliased join.aliasName ≠ root

theorem extendAll_flatMap (hjoins : ∀ join ∈ joins, join.kind.isLeft) (scopes : List Scope) :
    extendAll engine database parameters joins scopes =
      scopes.flatMap fun scope => extendAll engine database parameters joins [scope] := by
  induction joins generalizing scopes with
  | nil => simp [extendAll]
  | cons join joins ih =>
    have hleft := hjoins join (by simp)
    have hrest := ih fun join hjoin => hjoins join (by simp [hjoin])
    change extendAll engine database parameters joins (join.rows engine database parameters scopes) =
      scopes.flatMap fun scope =>
        extendAll engine database parameters joins (join.rows engine database parameters [scope])
    simp only [Join.rows_of_isLeft hleft, List.flatMap_singleton]
    rw [hrest, List.flatMap_assoc]
    refine congrArg (scopes.flatMap ·) (funext fun scope => ?_)
    exact (hrest (join.extensions engine database parameters scope)).symm

theorem extendAll_ne_nil (hjoins : ∀ join ∈ joins, join.kind.isLeft) (scope : Scope) :
    extendAll engine database parameters joins [scope] ≠ [] := by
  induction joins generalizing scope with
  | nil => exact List.cons_ne_nil _ _
  | cons join joins ih =>
    have hleft := hjoins join (by simp)
    have hjoins' : ∀ join ∈ joins, join.kind.isLeft := fun join hjoin => hjoins join (by simp [hjoin])
    change extendAll engine database parameters joins (join.rows engine database parameters [scope]) ≠ []
    rw [Join.rows_of_isLeft hleft, List.flatMap_singleton, extendAll_flatMap hjoins']
    have hsome : join.extensions engine database parameters scope ≠ [] := Join.extensions_ne_nil hleft scope
    obtain ⟨first, rest, hextensions⟩ := List.exists_cons_of_ne_nil hsome
    rw [hextensions, List.flatMap_cons]
    exact fun hnil => ih hjoins' first (List.append_eq_nil_iff.1 hnil).1

theorem row_of_mem_extendAll (hjoins : KeepRoot root joins) :
    ∀ extended ∈ extendAll engine database parameters joins [scope], extended.row root = scope.row root := by
  induction joins generalizing scope with
  | nil =>
    intro extended hextended
    rw [List.mem_singleton.1 hextended]
  | cons join joins ih =>
    intro extended hextended
    obtain ⟨hleft, hroot⟩ := hjoins join (by simp)
    have hjoins' : KeepRoot root joins := fun join hjoin => hjoins join (by simp [hjoin])
    change extended ∈
      extendAll engine database parameters joins (join.rows engine database parameters [scope]) at hextended
    rw [Join.rows_of_isLeft hleft, List.flatMap_singleton, extendAll_flatMap fun join hjoin => (hjoins' join hjoin).1,
      List.mem_flatMap] at hextended
    obtain ⟨middle, hmiddle, hextended⟩ := hextended
    rw [ih hjoins' extended hextended, Join.row_of_mem_extensions hroot hmiddle]

variable (engine database parameters) in
/-- How often the joins extend a row of the table. -/
def Select.multiplicity (select : Select Fragment) (row : Row) : Nat :=
  (extendAll engine database parameters select.joins [[(select.root, row)]]).length

variable (engine database parameters) in
/-- The rows of the table that a SELECT is about, before they are cut to a page. -/
def Select.orderedRoots (select : Select Fragment) : List Row :=
  (select.ordered engine database parameters).map fun scope => scope.row select.root

theorem Select.multiplicity_pos (hjoins : KeepRoot select.root select.joins) (row : Row) :
    0 < select.multiplicity engine database parameters row :=
  List.length_pos_iff.2 (extendAll_ne_nil (fun join hjoin => (hjoins join hjoin).1) _)

theorem Scope.row_singleton (root : Qualifier) (row : Row) : Scope.row [(root, row)] root = row := by
  rw [Scope.row, List.lookup_cons_self, Option.getD_some]

theorem Select.joined_roots (hjoins : KeepRoot select.root select.joins) :
    (select.joined engine database parameters).map (fun scope => scope.row select.root) =
      repeated (select.multiplicity engine database parameters) (database select.table) := by
  change (extendAll engine database parameters select.joins _).map _ = _
  rw [extendAll_flatMap fun join hjoin => (hjoins join hjoin).1, List.flatMap_map, List.map_flatMap, repeated]
  refine congrArg (List.flatMap · _) (funext fun row => ?_)
  refine List.eq_replicate_iff.2 ⟨List.length_map _, fun found hfound => ?_⟩
  obtain ⟨extended, hextended, rfl⟩ := List.mem_map.1 hfound
  rw [row_of_mem_extendAll hjoins extended hextended, Scope.row_singleton]

theorem filter_repeated (count : α → Nat) (keep : α → Bool) (rows : List α) :
    (repeated count rows).filter keep = repeated count (rows.filter keep) := by
  induction rows with
  | nil => rfl
  | cons row rows ih =>
    change (List.replicate (count row) row ++ repeated count rows).filter keep = _
    rw [List.filter_append, List.filter_replicate, ih]
    cases hkeep : keep row with
    | true => simp [hkeep, repeated]
    | false => simp [hkeep]

/-- Whether a row of the table may come before another, where the ordering reads nothing else. -/
def precedesAt (engine : Engine) (root : Qualifier) (order : List (OrderItem Fragment)) (left right : Row) : Prop :=
  precedes engine order [(root, left)] [(root, right)]

instance (engine : Engine) (root : Qualifier) (order : List (OrderItem Fragment)) :
    DecidableRel (precedesAt engine root order) :=
  fun _ _ => inferInstanceAs (Decidable (precedes _ _ _ _))

theorem compareScopes_congr {order : List (OrderItem Fragment)} {left right left' right' : Scope}
    (hcolumns : ∀ item ∈ order, item.column.value left = item.column.value left' ∧
      item.column.value right = item.column.value right') :
    compareScopes engine order left right = compareScopes engine order left' right' := by
  induction order with
  | nil => rfl
  | cons item order ih =>
    obtain ⟨hleft, hright⟩ := hcolumns item (by simp)
    have hrest := ih fun other hother => hcolumns other (by simp [hother])
    unfold compareScopes at hrest ⊢
    rw [List.foldr_cons, List.foldr_cons, hleft, hright, hrest]

theorem compareScopes_self (order : List (OrderItem Fragment)) (scope : Scope) :
    compareScopes engine order scope scope = .eq := by
  induction order with
  | nil => rfl
  | cons item order ih =>
    unfold compareScopes at ih ⊢
    rw [List.foldr_cons, engine.compare_self, ih]
    rfl

theorem precedes_self (order : List (OrderItem Fragment)) (scope : Scope) : precedes engine order scope scope := by
  unfold precedes
  rw [compareScopes_self]
  decide

/-- Conditions in groups hold in a scope if they hold together. -/
theorem satisfies_conjunctions {groups : List (List (Condition Column))} {truth : Truth}
    (hholds : Condition.holds (Column.value scope) engine.outcome parameters groups.flatten = some truth) :
    satisfies engine parameters (groups.map .conjunction) scope = decide (truth = .true) := by
  induction groups generalizing truth with
  | nil =>
    cases hholds
    rfl
  | cons group groups ih =>
    rw [List.flatten_cons] at hholds
    obtain ⟨before, after, hgroup, hgroups, rfl⟩ := Condition.holds_of_append hholds
    have hhead : (Fragment.conjunction group).truth engine parameters scope = before := by
      rw [Fragment.truth, hgroup, Option.getD_some]
    change (decide ((Fragment.conjunction group).truth engine parameters scope = .true) &&
      satisfies engine parameters (groups.map .conjunction) scope) = _
    rw [hhead, ih hgroups, ← Bool.decide_and]
    exact decide_eq_decide.2 Truth.and_eq_true.symm

/-- Where every join keeps its left side, and neither the conditions nor the ordering read what is joined, each row of
the table comes out as often as the joins extend it, all copies together. -/
theorem Select.orderedRoots_eq {keep : Row → Bool} (hjoins : KeepRoot select.root select.joins)
    (hkeep : ∀ scope, satisfies engine parameters select.conditions scope = keep (scope.row select.root))
    (horder : ∀ left right, precedes engine select.order left right ↔
      precedesAt engine select.root select.order (left.row select.root) (right.row select.root)) :
    select.orderedRoots engine database parameters =
      repeated (select.multiplicity engine database parameters)
        (((database select.table).filter keep).insertionSort (precedesAt engine select.root select.order)) := by
  have hfilter : ((select.joined engine database parameters).filter (satisfies engine parameters select.conditions)).map
      (fun scope => scope.row select.root) =
        repeated (select.multiplicity engine database parameters) ((database select.table).filter keep) := by
    -- filtering by the root row commutes with forgetting what was joined
    rw [← filter_repeated, ← Select.joined_roots hjoins, List.filter_map]
    exact congrArg (List.map _) (List.filter_congr fun scope _ => hkeep scope)
  rw [Select.orderedRoots, Select.ordered,
    List.map_insertionSort _ (precedesAt engine select.root select.order) _ _ fun left _ right _ => horder left right,
    hfilter]
  exact insertionSort_repeated (Select.multiplicity_pos hjoins) (fun row => precedes_self _ _) _

theorem map_page {β : Type} (f : α → β) (limit offset : Option Nat) (rows : List α) :
    (page limit offset rows).map f = page limit offset (rows.map f) := by
  cases limit <;> simp [page, List.map_drop, List.map_take]

theorem page_eq_self (hoffset : offset.getD 0 = 0) (rows : List α) : page none offset rows = rows := by
  rw [page, hoffset]
  rfl

theorem mem_page_of_mem_page_repeated {count : α → Nat} (hcount : ∀ a, 0 < count a) {limit : Option Nat}
    (hoffset : offset.getD 0 = 0) {rows : List α} {a : α} (hmem : a ∈ page limit offset (repeated count rows)) :
    a ∈ page limit offset rows := by
  cases limit with
  | none =>
    rw [page_eq_self hoffset] at hmem ⊢
    exact (mem_repeated hcount).1 hmem
  | some limit =>
    rw [page, hoffset] at hmem ⊢
    exact mem_take_of_mem_take_repeated hcount hmem

theorem Select.rootRows_eq (select : Select Fragment) :
    select.rootRows engine database parameters =
      page select.limit select.offset (select.orderedRoots engine database parameters) :=
  map_page _ _ _ _

end

end RelationalGraphQL.Sql
