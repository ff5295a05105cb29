import RelationalGraphQL.Arguments.Basic
import RelationalGraphQL.Mapping.Basic
import RelationalGraphQL.Proofs.Sql.Reading

/-!
# The meaning of a filter

A filter says by itself which rows it keeps (`filterTruth`). It is also compiled to conditions, whose text a database
reads against the list of bound parameters. What the rest needs of the compilation is `Lowered`: it only adds
parameters, its conditions name exactly the added ones in order, their text can be read, and they hold of a row exactly
as the filter does, also after more parameters have been bound.
-/

namespace RelationalGraphQL.Arguments

open Sql (Condition Formula Parameters Test Truth)

/-! ### The truth of a filter -/

/-- What an operator and its operand ask of a column. -/
def operatorTruth (test : Test Sql.Value → Truth) (operator : FilterOperator) (operand : Json) : Truth :=
  match operator, operand with
  | .compare .eq, .null => test .isNull
  | .compare .notEq, .null => test .isNotNull
  | .compare operator, operand => test (.compare operator (Sql.Value.ofJson operand))
  | .anyOf, operand => test (.anyOf (Sql.Value.ofJson operand))
  | .noneOf, operand => test (.noneOf (Sql.Value.ofJson operand))
  | .isNull, .bool false => test .isNotNull
  | .isNull, _ => test .isNull

def operatorsTruth (test : Test Sql.Value → Truth) : List (String × Json) → Truth
  | [] => .true
  | (name, operand) :: rest =>
    ((FilterOperator.ofName? name).elim .unknown fun operator => operatorTruth test operator operand).and
      (operatorsTruth test rest)

/-- All operators of a field hold; a bare value is one it equals. -/
def fieldTruth (test : Test Sql.Value → Truth) : Json → Truth
  | .obj operators => operatorsTruth test operators
  | operand => operatorTruth test (.compare .eq) operand

section

variable (test : String → Test Sql.Value → Truth)

mutual

/-- All entries of an object hold. -/
def objectTruth : List (String × Json) → Truth
  | [] => .true
  | (key, value) :: rest => (entryTruth key value).and (objectTruth rest)

/-- A combinator joins a list of objects, or a single one. A disjunction of no branches holds. -/
def entryTruth (key : String) (value : Json) : Truth :=
  match FilterKey.ofName key, value with
  | .all, .obj entries => objectTruth entries
  | .all, .arr items => .all (branchTruths items)
  | .any, .obj entries => objectTruth entries
  | .any, .arr [] => .true
  | .any, .arr items => .any (branchTruths items)
  | .not, .obj entries => (objectTruth entries).not
  | .field, value => fieldTruth (test key) value
  | _, _ => .unknown

def branchTruths : List Json → List Truth
  | [] => []
  | .obj entries :: rest => objectTruth entries :: branchTruths rest
  | _ :: rest => .unknown :: branchTruths rest

end

/-- The truth of a filter, given the outcome of each test of a field. A filter that is null holds. -/
def filterTruth : Json → Truth
  | .obj entries => objectTruth test entries
  | _ => .true

end

/-! ### Steps that bind parameters -/

theorem except_bind_eq_ok {ε α β : Type} {action : Except ε α} {next : α → Except ε β} {result : β} :
    action >>= next = .ok result ↔ ∃ a, action = .ok a ∧ next a = .ok result := by
  cases action with
  | error e => simp [bind, Except.bind]
  | ok a => simp [bind, Except.bind]

theorem run_bind_eq_ok {σ ε α β : Type} {action : StateT σ (Except ε) α} {next : α → StateT σ (Except ε) β} {s : σ}
    {result : β × σ} :
    (action >>= next).run s = .ok result ↔ ∃ a s', action.run s = .ok (a, s') ∧ (next a).run s' = .ok result := by
  rw [StateT.run_bind]
  cases action.run s with
  | error e => simp [bind, Except.bind]
  | ok pair =>
    obtain ⟨a, s'⟩ := pair
    constructor
    · intro hnext
      exact ⟨a, s', rfl, hnext⟩
    · rintro ⟨a', s'', heq, hnext⟩
      cases heq
      exact hnext

theorem run_pure_eq_ok {σ ε α : Type} {a : α} {s : σ} {result : α × σ} :
    (pure a : StateT σ (Except ε) α).run s = .ok result ↔ (a, s) = result := by
  rw [StateT.run_pure]
  exact ⟨Except.ok.inj, congrArg Except.ok⟩

theorem run_monadLift_eq_ok {σ ε α : Type} {action : Except ε α} {s : σ} {result : α × σ} :
    (monadLift action : StateT σ (Except ε) α).run s = .ok result ↔ ∃ a, action = .ok a ∧ (a, s) = result := by
  rw [StateT.run_monadLift]
  cases action with
  | error e => simp [bind, Except.bind, monadLift]
  | ok a => simp [bind, Except.bind, pure, Except.pure, monadLift]

/-- The positions of the parameters that were bound between two states. -/
def added (bound bound' : Parameters) : List Nat := List.range' (bound.length + 1) (bound'.length - bound.length)

theorem added_append {bound bound' bound'' : Parameters} (hfirst : bound <+: bound') (hsecond : bound' <+: bound'') :
    added bound bound' ++ added bound' bound'' = added bound bound'' := by
  have hle := hfirst.length_le
  have hle' := hsecond.length_le
  unfold added
  rw [show bound'.length + 1 = bound.length + 1 + 1 * (bound'.length - bound.length) by omega, List.range'_append]
  congr 1
  omega

theorem added_self (bound : Parameters) : added bound bound = [] := by simp [added]

/-! ### What lowering does -/

variable {κ : Type} {lowered : List (Condition κ)} {field name argument : String} {groups : List (List (Condition κ))}
  {operator : FilterOperator} {operand value filter : Json} {condition : Condition κ}
  {truth : (String → Test Sql.Value → Truth) → Truth} {choice : RowChoice κ} {order : List (Sql.OrderItem κ)}

/-- Conditions that were lowered between two states of the parameters from something with a truth of its own. -/
structure Lowered (column : String → κ) (bound : Parameters) (conditions : List (Condition κ)) (bound' : Parameters)
    (truth : (String → Test Sql.Value → Truth) → Truth) : Prop where
  keeps : bound <+: bound'
  positions : Condition.positions conditions = added bound bound'
  readable : ∀ condition ∈ conditions, condition.Readable fun c => ∃ field, column field = c
  holds : ∀ {γ : Type} (view : κ → γ) (outcome : γ → Test Sql.Value → Truth) (parameters : Parameters),
    bound' <+: parameters →
      Condition.holds view outcome parameters conditions = some (truth fun field => outcome (view (column field)))

namespace Lowered

variable {column : String → κ} {bound bound' bound'' : Parameters} {front back : List (Condition κ)}
  {before after : (String → Test Sql.Value → Truth) → Truth}

theorem nil : Lowered column bound [] bound fun _ => .true where
  keeps := List.prefix_rfl
  positions := (added_self bound).symm
  readable := by simp
  holds _ _ _ _ := rfl

theorem append (hfront : Lowered column bound front bound' before) (hback : Lowered column bound' back bound'' after) :
    Lowered column bound (front ++ back) bound'' fun test => (before test).and (after test) where
  keeps := hfront.keeps.trans hback.keeps
  positions := by
    rw [Condition.positions_append, hfront.positions, hback.positions, added_append hfront.keeps hback.keeps]
  readable condition hcondition := by
    rcases List.mem_append.1 hcondition with hcondition | hcondition
    · exact hfront.readable condition hcondition
    · exact hback.readable condition hcondition
  holds view outcome parameters hparameters :=
    Condition.holds_append (hfront.holds view outcome parameters (hback.keeps.trans hparameters))
      (hback.holds view outcome parameters hparameters)

theorem negation (h : Lowered column bound front bound' before) :
    Lowered column bound [.negation front] bound' fun test => (before test).not where
  keeps := h.keeps
  positions := by rw [Condition.positions_negation, h.positions]
  readable condition hcondition := by
    rw [List.mem_singleton.1 hcondition]
    exact .negation h.readable
  holds view outcome parameters hparameters := Condition.holds_negation (h.holds view outcome parameters hparameters)

theorem of_truth (h : Lowered column bound front bound' before) (htruth : ∀ test, after test = before test) :
    Lowered column bound front bound' after :=
  funext htruth ▸ h

end Lowered

variable {column : String → κ}

/-- A test of a column binds its operand last. -/
theorem lowered_asking (field : String) (bound : Parameters) {asked : Test Sql.Value} (hwritten : asked.Written) :
    Lowered column bound [.asking (column field) (asked.map fun _ => bound.length + 1)] (bound ++ asked.operands)
      fun test => test field asked where
  keeps := List.prefix_append _ _
  positions := by cases asked <;> simp [Condition.positions, Formula.positions, Test.map, Test.operands, added]
  readable := by
    have hmap : (asked.map fun _ => bound.length + 1).Written := by cases asked <;> exact hwritten
    simpa using .asking ⟨field, rfl⟩ hmap
  holds view outcome parameters hparameters := by
    rw [Condition.holds_singleton, Condition.formula_asking, Formula.truth, asked.resolve_bound hparameters]
    rfl

/-- An operator that takes its operand asks one test. -/
theorem operatorCondition_run {c : κ} {bound bound' : Parameters}
    (hrun : (operatorCondition c operator operand).run bound = .ok (condition, bound')) :
    ∃ asked : Test Sql.Value, condition = .asking c (asked.map fun _ => bound.length + 1) ∧
      bound' = bound ++ asked.operands ∧ (∀ test, operatorTruth test operator operand = test asked) ∧
      ∀ comparison value, asked = .compare comparison value → operator = .compare comparison := by
  unfold operatorCondition at hrun
  split at hrun
  · obtain ⟨rfl, rfl⟩ := Prod.mk.inj (run_pure_eq_ok.1 hrun)
    exact ⟨.isNull, rfl, (List.append_nil _).symm, fun _ => rfl, by simp⟩
  · obtain ⟨rfl, rfl⟩ := Prod.mk.inj (run_pure_eq_ok.1 hrun)
    exact ⟨.isNotNull, rfl, (List.append_nil _).symm, fun _ => rfl, by simp⟩
  · cases hrun
  · rename_i comparison hnull hnull' hnull''
    cases hrun
    refine ⟨.compare comparison (Sql.Value.ofJson operand), rfl, rfl, fun test => ?_, by simp⟩
    unfold operatorTruth
    split <;> simp_all
  · cases hrun
    exact ⟨.anyOf _, rfl, rfl, fun _ => rfl, by simp⟩
  · cases hrun
    exact ⟨.noneOf _, rfl, rfl, fun _ => rfl, by simp⟩
  · cases hrun
  · cases hrun
  · cases hrun
    exact ⟨.isNull, rfl, (List.append_nil _).symm, fun _ => rfl, by simp⟩
  · cases hrun
    exact ⟨.isNotNull, rfl, (List.append_nil _).symm, fun _ => rfl, by simp⟩
  · cases hrun

theorem comparison_of_ofName? {comparison : Sql.BinaryOperator}
    (hname : FilterOperator.ofName? name = some (.compare comparison)) : comparison ∈ Test.comparisons := by
  unfold FilterOperator.ofName? at hname
  split at hname <;> simp_all [Test.comparisons]

theorem operatorCondition_lowered {bound bound' : Parameters}
    (hoperator : ∀ comparison, operator = .compare comparison → comparison ∈ Test.comparisons)
    (hrun : (operatorCondition (column field) operator operand).run bound = .ok (condition, bound')) :
    Lowered column bound [condition] bound' fun test => operatorTruth (test field) operator operand := by
  obtain ⟨asked, rfl, rfl, htruth, hcompare⟩ := operatorCondition_run hrun
  have hwritten : asked.Written := by
    cases asked with
    | compare comparison value => exact hoperator comparison (hcompare comparison value rfl)
    | _ => trivial
  simpa [htruth] using lowered_asking field bound hwritten

theorem operatorConditions_lowered {operators : List (String × Json)} {bound bound' : Parameters}
    (hrun : (operatorConditions (column field) field operators).run bound = .ok (lowered, bound')) :
    Lowered column bound lowered bound' fun test => operatorsTruth (test field) operators := by
  induction operators generalizing bound lowered with
  | nil =>
    cases hrun
    exact .nil
  | cons entry rest ih =>
    obtain ⟨name, operand⟩ := entry
    unfold operatorConditions at hrun
    split at hrun
    · cases hrun
    · rename_i operator hname
      simp only [run_bind_eq_ok, run_pure_eq_ok] at hrun
      obtain ⟨condition, middle, hcondition, tail, final, htail, heq⟩ := hrun
      cases heq
      have hhead := operatorCondition_lowered (fun comparison hcompare => comparison_of_ofName? (hcompare ▸ hname))
        hcondition
      simpa [operatorsTruth, hname] using hhead.append (ih htail)

theorem fieldConditions_lowered {bound bound' : Parameters}
    (hrun : (fieldConditions column field value).run bound = .ok (lowered, bound')) :
    Lowered column bound lowered bound' fun test => fieldTruth (test field) value := by
  unfold fieldConditions at hrun
  split at hrun
  · exact operatorConditions_lowered hrun
  · rename_i hobject
    simp only [run_bind_eq_ok, run_pure_eq_ok] at hrun
    obtain ⟨condition, final, hcondition, heq⟩ := hrun
    cases heq
    have hlowered := operatorCondition_lowered (by simp [Test.comparisons]) hcondition
    have htruth : ∀ test : Test Sql.Value → Truth, fieldTruth test value = operatorTruth test (.compare .eq) value := by
      intro test
      unfold fieldTruth
      split <;> simp_all
    simpa [htruth] using hlowered

/-! ### Branches -/

inductive LoweredAll (column : String → κ) : Parameters → List (List (Condition κ)) → Parameters →
    ((String → Test Sql.Value → Truth) → List Truth) → Prop where
  | nil {bound : Parameters} : LoweredAll column bound [] bound fun _ => []
  | cons {bound bound' bound'' : Parameters} {branch : List (Condition κ)} {branches : List (List (Condition κ))}
      {truth : (String → Test Sql.Value → Truth) → Truth} {truths : (String → Test Sql.Value → Truth) → List Truth}
      (hbranch : Lowered column bound branch bound' truth)
      (hbranches : LoweredAll column bound' branches bound'' truths) :
      LoweredAll column bound (branch :: branches) bound'' fun test => truth test :: truths test

namespace LoweredAll

variable {bound bound' bound'' : Parameters} {branches : List (List (Condition κ))}
  {truths : (String → Test Sql.Value → Truth) → List Truth}

theorem flatten (h : LoweredAll column bound branches bound' truths) :
    Lowered column bound branches.flatten bound' fun test => .all (truths test) := by
  induction h with
  | nil => exact .nil
  | cons hbranch _ ih => exact hbranch.append ih

theorem readable (h : LoweredAll column bound branches bound' truths) :
    ∀ branch ∈ branches, ∀ condition ∈ branch, condition.Readable fun c => ∃ field, column field = c := by
  intro branch hbranch condition hcondition
  exact h.flatten.readable condition (List.mem_flatten.2 ⟨branch, hbranch, hcondition⟩)

theorem holds (h : LoweredAll column bound branches bound' truths) {γ : Type} (view : κ → γ)
    (outcome : γ → Test Sql.Value → Truth) (parameters : Parameters) (hparameters : bound' <+: parameters) :
    branches.mapM (Condition.holds view outcome parameters) =
      some (truths fun field => outcome (view (column field))) := by
  induction h with
  | nil => rfl
  | cons hbranch hbranches ih =>
    have hhead := hbranch.holds view outcome parameters (hbranches.flatten.keeps.trans hparameters)
    simp [hhead, ih hparameters]

/-- A branch without conditions holds of every row. -/
theorem true_mem (h : LoweredAll column bound branches bound' truths) (hempty : [] ∈ branches) {γ : Type}
    (view : κ → γ) (outcome : γ → Test Sql.Value → Truth) :
    .true ∈ truths fun field => outcome (view (column field)) := by
  induction h with
  | nil => simp at hempty
  | cons hbranch _ ih =>
    rcases List.mem_cons.1 hempty with rfl | hempty
    · have hholds := hbranch.holds view outcome _ List.prefix_rfl
      exact List.mem_cons.2 (.inl (Option.some.inj hholds))
    · exact List.mem_cons_of_mem _ (ih hempty)

theorem eq_nil_iff (h : LoweredAll column bound branches bound' truths) (test : String → Test Sql.Value → Truth) :
    truths test = [] ↔ branches = [] := by
  cases h <;> simp

theorem disjoin (h : LoweredAll column bound branches bound' truths) {lowered : List (Condition κ)}
    (hrun : (Arguments.disjoin bound branches).run bound' = .ok (lowered, bound'')) :
    Lowered column bound lowered bound'' fun test => if truths test = [] then .true else .any (truths test) := by
  simp only [h.eq_nil_iff]
  unfold Arguments.disjoin at hrun
  split at hrun
  · -- the disjunction disappears with its parameters
    rename_i hany
    obtain ⟨branch, hmem, hempty⟩ := List.any_eq_true.1 hany
    rw [List.isEmpty_iff] at hempty
    subst hempty
    cases hrun
    refine ⟨List.prefix_rfl, (added_self bound).symm, by simp, ?_⟩
    intro γ view outcome parameters _
    rw [if_neg (List.ne_nil_of_mem hmem), Truth.any_of_mem (h.true_mem hmem view outcome)]
    rfl
  · rename_i hany
    split at hrun
    · rename_i hnil
      rw [List.isEmpty_iff] at hnil
      subst hnil
      cases hrun
      cases h
      simpa using Lowered.nil
    · rename_i hnil
      rw [List.isEmpty_iff] at hnil
      cases hrun
      refine ⟨h.flatten.keeps, ?_, ?_, ?_⟩
      · rw [Condition.positions_disjunction, ← Condition.positions_flatten, h.flatten.positions]
      · have hbranches : ∀ branch ∈ branches, branch ≠ [] := by
          intro branch hbranch hempty
          exact hany (List.any_eq_true.2 ⟨branch, hbranch, by simp [hempty]⟩)
        simpa using .disjunction hnil hbranches h.readable
      · intro γ view outcome parameters hparameters
        rw [if_neg hnil]
        exact Condition.holds_disjunction (h.holds view outcome parameters hparameters)

end LoweredAll

/-! ### Filters -/

/-- The filters inside a value are lowered to their truth. -/
def PartsLowered (column : String → κ) : Json → Prop
  | .obj entries => ∀ {bound bound' : Parameters} {lowered : List (Condition κ)},
      (conditions column entries).run bound = .ok (lowered, bound') →
        Lowered column bound lowered bound' fun test => objectTruth test entries
  | .arr items => items.all isObject → ∀ {bound bound' : Parameters} {branches : List (List (Condition κ))},
      (branchConditions column items).run bound = .ok (branches, bound') →
        LoweredAll column bound branches bound' fun test => branchTruths test items
  | _ => True

/-- One entry, given its parts. A combinator over anything but objects is refused. -/
theorem entryConditions_lowered {key : String} (hparts : PartsLowered column value) {bound bound' : Parameters}
    (hrun : (entryConditions column key value).run bound = .ok (lowered, bound')) :
    Lowered column bound lowered bound' fun test => entryTruth test key value := by
  unfold entryConditions at hrun
  unfold entryTruth
  split at hrun
  · rename_i hkey
    simp only [hkey]
    exact hparts hrun
  · rename_i hkey
    simp only [hkey]
    split at hrun
    · rename_i hobjects
      simp only [run_bind_eq_ok, run_pure_eq_ok] at hrun
      obtain ⟨branches, final, hbranches, heq⟩ := hrun
      cases heq
      exact (hparts hobjects hbranches).flatten
    · cases hrun
  · rename_i hkey
    simp only [hkey]
    simp only [run_bind_eq_ok] at hrun
    obtain ⟨before, start, hget, branch, middle, hbranch, hdisjoin⟩ := hrun
    cases hget
    have hlowered := (LoweredAll.cons (hparts hbranch) .nil).disjoin hdisjoin
    exact hlowered.of_truth fun test => (Truth.any_singleton _).symm
  · rename_i items hkey
    simp only [hkey]
    split at hrun
    · rename_i hobjects
      simp only [run_bind_eq_ok] at hrun
      obtain ⟨before, start, hget, branches, middle, hbranches, hdisjoin⟩ := hrun
      cases hget
      refine ((hparts hobjects hbranches).disjoin hdisjoin).of_truth fun test => ?_
      cases items with
      | nil => rfl
      | cons item rest => cases item <;> rfl
    · cases hrun
  · cases hrun
  · cases hrun
  · rename_i hkey
    simp only [hkey]
    simp only [run_bind_eq_ok, run_pure_eq_ok] at hrun
    obtain ⟨inner, final, hinner, heq⟩ := hrun
    cases heq
    exact (hparts hinner).negation
  · cases hrun
  · rename_i hkey
    simp only [hkey]
    exact fieldConditions_lowered hrun

mutual

theorem partsLowered : ∀ value : Json, PartsLowered column value
  | .obj entries => conditions_lowered entries
  | .arr items => branchConditions_lowered items
  | .null | .bool _ | .num _ | .str _ => trivial

theorem conditions_lowered : ∀ (entries : List (String × Json)) {bound bound' : Parameters}
    {lowered : List (Condition κ)}, (conditions column entries).run bound = .ok (lowered, bound') →
      Lowered column bound lowered bound' fun test => objectTruth test entries
  | [], _, _, _, hrun => by
    cases hrun
    exact .nil
  | (_, value) :: rest, _, _, _, hrun => by
    simp only [conditions, run_bind_eq_ok, run_pure_eq_ok] at hrun
    obtain ⟨here, middle, hhere, tail, final, htail, heq⟩ := hrun
    cases heq
    exact (entryConditions_lowered (partsLowered value) hhere).append (conditions_lowered rest htail)

theorem branchConditions_lowered : ∀ (items : List Json), items.all isObject →
    ∀ {bound bound' : Parameters} {branches : List (List (Condition κ))},
      (branchConditions column items).run bound = .ok (branches, bound') →
        LoweredAll column bound branches bound' fun test => branchTruths test items
  | [], _, _, _, _, hrun => by
    cases hrun
    exact .nil
  | .obj entries :: rest, hobjects, _, _, _, hrun => by
    simp only [branchConditions, run_bind_eq_ok, run_pure_eq_ok] at hrun
    obtain ⟨branch, middle, hbranch, tail, final, htail, heq⟩ := hrun
    cases heq
    exact .cons (conditions_lowered entries hbranch) (branchConditions_lowered rest hobjects htail)
  | .null :: _, hobjects, _, _, _, _ | .bool _ :: _, hobjects, _, _, _, _ | .num _ :: _, hobjects, _, _, _, _
  | .str _ :: _, hobjects, _, _, _, _ | .arr _ :: _, hobjects, _, _, _, _ => nomatch hobjects

end

theorem lowerFilter_run {bound : Parameters} {result : List (Condition κ) × Parameters} :
    (lowerFilter argument column filter).run bound = .ok result ↔
      (filterConditions column filter).run bound = .ok result := by
  unfold lowerFilter
  rw [StateT.run]
  cases (filterConditions column filter).run bound with
  | ok found => exact ⟨fun hrun => congrArg Except.ok (Except.ok.inj hrun), fun hrun => congrArg Except.ok (Except.ok.inj hrun)⟩
  | error fault => exact ⟨fun hrun => (nomatch hrun), fun hrun => (nomatch hrun)⟩

theorem lowerFilter_lowered {bound bound' : Parameters}
    (hrun : (lowerFilter argument column filter).run bound = .ok (lowered, bound')) :
    Lowered column bound lowered bound' fun test => filterTruth test filter := by
  have hconditions := lowerFilter_run.1 hrun
  unfold filterConditions at hconditions
  split at hconditions
  · cases hconditions
    exact .nil
  · exact conditions_lowered _ hconditions
  · cases hconditions

/-! ### Arguments -/

/-- Conditions in groups, one for each argument that constrains anything. -/
structure LoweredGroups (column : String → κ) (bound : Parameters) (groups : List (List (Condition κ)))
    (bound' : Parameters) (truth : (String → Test Sql.Value → Truth) → Truth) : Prop where
  ne_nil : ∀ group ∈ groups, group ≠ []
  flat : Lowered column bound groups.flatten bound' truth

theorem LoweredGroups.append {bound bound' bound'' : Parameters} {front back : List (List (Condition κ))}
    {before after : (String → Test Sql.Value → Truth) → Truth} (hfront : LoweredGroups column bound front bound' before)
    (hback : LoweredGroups column bound' back bound'' after) :
    LoweredGroups column bound (front ++ back) bound'' fun test => (before test).and (after test) where
  ne_nil group hgroup := by
    rcases List.mem_append.1 hgroup with hgroup | hgroup
    · exact hfront.ne_nil group hgroup
    · exact hback.ne_nil group hgroup
  flat := by
    rw [List.flatten_append]
    exact hfront.flat.append hback.flat

theorem LoweredGroups.nil {bound : Parameters} : LoweredGroups column bound [] bound fun _ => .true where
  ne_nil := by simp
  flat := .nil

/-- What one argument is compiled to is a group, unless it constrains nothing. -/
theorem Lowered.group {bound bound' : Parameters} {conditions : List (Condition κ)}
    (h : Lowered column bound conditions bound' truth) :
    LoweredGroups column bound (if conditions.isEmpty then [] else [conditions]) bound' truth := by
  cases conditions with
  | nil => exact ⟨by simp, h⟩
  | cons condition conditions => exact ⟨by simp, by simpa using h⟩

/-- The truth of an argument that holds a filter, if it is there. -/
def filterArgumentTruth (test : String → Test Sql.Value → Truth) (arguments : List (String × Json)) (name : String) :
    Truth :=
  (arguments.lookup name).elim .true (filterTruth test)

/-- The truth of an identifier, if one is given. -/
def idArgumentTruth (test : String → Test Sql.Value → Truth) (arguments : List (String × Json)) : Truth :=
  match arguments.lookup "id" with
  | none | some .null => .true
  | some id => test "id" (.compare .eq (Sql.Value.ofJson id))

/-- The truth of the arguments that choose rows: a row has to pass all of them. -/
def choiceTruth (test : String → Test Sql.Value → Truth) (arguments : List (String × Json)) : Truth :=
  ((filterArgumentTruth test arguments "where").and (filterArgumentTruth test arguments "filter")).and
    (idArgumentTruth test arguments)

variable {arguments : List (String × Json)} {bound bound' : Parameters}

theorem filterArgument_lowered (hrun : (filterArgument arguments column name).run bound = .ok (groups, bound')) :
    LoweredGroups column bound groups bound' fun test => filterArgumentTruth test arguments name := by
  unfold filterArgument at hrun
  unfold filterArgumentTruth
  split at hrun
  · rename_i hlookup
    rw [hlookup]
    cases hrun
    exact .nil
  · rename_i filter hlookup
    rw [hlookup]
    simp only [run_bind_eq_ok, run_pure_eq_ok] at hrun
    obtain ⟨lowered, final, hlowered, heq⟩ := hrun
    cases heq
    exact (lowerFilter_lowered hlowered).group

theorem idArgument_lowered (hrun : (idArgument arguments column).run bound = .ok (groups, bound')) :
    LoweredGroups column bound groups bound' fun test => idArgumentTruth test arguments := by
  unfold idArgument at hrun
  split at hrun
  · rename_i hlookup
    simp only [idArgumentTruth, hlookup]
    cases hrun
    exact .nil
  · rename_i hlookup
    simp only [idArgumentTruth, hlookup]
    cases hrun
    exact .nil
  · rename_i id hnull hlookup
    simp only [idArgumentTruth, hlookup]
    cases hrun
    have hwritten : (Test.compare .eq (Sql.Value.ofJson id)).Written := by simp [Test.Written, Test.comparisons]
    exact ⟨by simp, lowered_asking "id" bound hwritten⟩

def orderArgument (arguments : List (String × Json)) (column : String → κ) :
    Except ConversionError (List (Sql.OrderItem κ)) :=
  (arguments.lookup "orderBy").elim (.ok []) (lowerOrder column)

theorem readRowChoice_eq (arguments : List (String × Json)) (column : String → κ) :
    readRowChoice arguments column = do
      let byWhere ← filterArgument arguments column "where"
      let byFilter ← filterArgument arguments column "filter"
      let byId ← idArgument arguments column
      let limit ← liftM (pageBound arguments "limit" "first")
      let offset ← liftM (pageBound arguments "offset" "skip")
      let order ← liftM (orderArgument arguments column)
      return { conditions := byWhere ++ byFilter ++ byId, order, limit, offset } := by
  unfold readRowChoice orderArgument
  cases arguments.lookup "orderBy" <;> rfl

/-- The parameters are bound for `where`, then `filter`, then `id`; the rest of the arguments binds none. -/
theorem readRowChoice_run_eq_ok :
    (readRowChoice arguments column).run bound = .ok (choice, bound') ↔
      ∃ byWhere afterWhere byFilter afterFilter byId,
        (filterArgument arguments column "where").run bound = .ok (byWhere, afterWhere) ∧
        (filterArgument arguments column "filter").run afterWhere = .ok (byFilter, afterFilter) ∧
        (idArgument arguments column).run afterFilter = .ok (byId, bound') ∧
        choice.conditions = byWhere ++ byFilter ++ byId ∧ orderArgument arguments column = .ok choice.order ∧
        pageBound arguments "limit" "first" = .ok choice.limit ∧
        pageBound arguments "offset" "skip" = .ok choice.offset := by
  obtain ⟨conditions, order, limit, offset⟩ := choice
  simp only [readRowChoice_eq, run_bind_eq_ok, run_pure_eq_ok, run_monadLift_eq_ok]
  constructor
  · rintro ⟨byWhere, _, hwhere, byFilter, _, hfilter, byId, _, hid, _, _, ⟨_, hlimit, hl⟩, _, _, ⟨_, hoffset, ho⟩, _, _,
      ⟨_, horder, hr⟩, hresult⟩
    cases hl
    cases ho
    cases hr
    cases hresult
    exact ⟨byWhere, _, byFilter, _, byId, hwhere, hfilter, hid, rfl, horder, hlimit, hoffset⟩
  · rintro ⟨byWhere, _, byFilter, _, byId, hwhere, hfilter, hid, hconditions, horder, hlimit, hoffset⟩
    cases hconditions
    exact ⟨byWhere, _, hwhere, byFilter, _, hfilter, byId, _, hid, _, _, ⟨_, hlimit, rfl⟩, _, _, ⟨_, hoffset, rfl⟩, _, _,
      ⟨_, horder, rfl⟩, rfl⟩

theorem readOrderItem_column {entries : List (String × Json)} {item : Sql.OrderItem κ}
    (hitem : readOrderItem column entries = .ok item) : ∃ field, column field = item.column := by
  unfold readOrderItem at hitem
  split at hitem
  · rename_i field _
    simp only [except_bind_eq_ok] at hitem
    obtain ⟨direction, -, nulls, -, hitem⟩ := hitem
    cases hitem
    exact ⟨field, rfl⟩
  · cases hitem

theorem readOrderItems_columns {items : List Json} (horder : readOrderItems column items = .ok order) :
    ∀ item ∈ order, ∃ field, column field = item.column := by
  fun_induction readOrderItems column items generalizing order with
  | case1 =>
    cases horder
    simp
  | case2 entries rest ih =>
    simp only [except_bind_eq_ok] at horder
    obtain ⟨item, hitem, rest, hrest, horder⟩ := horder
    cases horder
    exact List.forall_mem_cons.2 ⟨readOrderItem_column hitem, ih hrest⟩
  | case3 => cases horder

theorem orderArgument_columns (horder : orderArgument arguments column = .ok order) :
    ∀ item ∈ order, ∃ field, column field = item.column := by
  unfold orderArgument at horder
  cases hlookup : arguments.lookup "orderBy" with
  | none =>
    rw [hlookup] at horder
    cases horder
    simp
  | some value =>
    rw [hlookup] at horder
    have hread : readOrder column value = .ok order := by
      unfold lowerOrder Option.elim at horder
      cases hread : readOrder column value <;> simp_all
    unfold readOrder at hread
    split at hread
    · cases hread
      simp
    · simp only [except_bind_eq_ok] at hread
      obtain ⟨item, hitem, hread⟩ := hread
      cases hread
      simpa using readOrderItem_column hitem
    · exact readOrderItems_columns hread
    · cases hread

theorem readRowChoice_lowered (hrun : (readRowChoice arguments column).run bound = .ok (choice, bound')) :
    LoweredGroups column bound choice.conditions bound' fun test => choiceTruth test arguments := by
  obtain ⟨byWhere, afterWhere, byFilter, afterFilter, byId, hwhere, hfilter, hid, hconditions, -⟩ :=
    readRowChoice_run_eq_ok.1 hrun
  rw [hconditions]
  exact ((filterArgument_lowered hwhere).append (filterArgument_lowered hfilter)).append (idArgument_lowered hid)

/-! ### What the written conditions say -/

/-- How fields are named: the column of each is written as one name, bare or quoted, with or without a qualifier. -/
structure ColumnResolver (κ : Type) where
  column : String → κ
  text : κ → String
  isName : ∀ field, Sql.IsName (text (column field))

/-- The columns of a type under a mapping. -/
def ColumnResolver.ofMapping (mapping : Mapping) (typeName : String) (qualifier : Option Sql.Qualifier)
    (hqualifier : ∀ q ∈ qualifier, q.IsWord) : ColumnResolver Sql.Column where
  column := mapping.column typeName qualifier
  text := Sql.Column.text Sql.Dialect.postgres
  isName _ := Sql.Column.isName_text hqualifier

/-- Texts of conditions with a separator between them; no text if there are none. -/
def joinedText? (separator : String) (texts : List String) : Option String :=
  if texts.isEmpty then none else some (separator.intercalate texts)

/-- The truth that a text has for a row, its parameters looked up in a list. Without a text every row passes. -/
def writtenTruth (outcome : String → Test Sql.Value → Truth) (parameters : Parameters) : Option String → Option Truth
  | none => some .true
  | some text => (Sql.readFormula text).bind (Formula.truth outcome parameters)

theorem LoweredGroups.writtenTruth_eq {resolver : ColumnResolver κ} {separator : String}
    (h : LoweredGroups resolver.column bound groups bound' truth) (hjoins : Sql.Joins separator.toList .and)
    (outcome : String → Test Sql.Value → Truth) :
    writtenTruth outcome bound' (joinedText? separator
      (groups.map (Condition.conjunctionText resolver.text Sql.Dialect.postgres.placeholder))) =
        some (truth fun field => outcome (resolver.text (resolver.column field))) := by
  have hholds := h.flat.holds resolver.text outcome bound' List.prefix_rfl
  by_cases hnil : groups = []
  · subst hnil
    exact hholds
  · have hnames : ∀ c, (∃ field, resolver.column field = c) → Sql.IsName (resolver.text c) := by
      rintro _ ⟨field, rfl⟩
      exact resolver.isName field
    have hread := Condition.readFormula_joined hjoins hnil h.ne_nil hnames fun group hgroup condition hcondition =>
      h.flat.readable condition (List.mem_flatten.2 ⟨group, hgroup, hcondition⟩)
    have htext : (groups.map (Condition.conjunctionText resolver.text Sql.Dialect.postgres.placeholder)).isEmpty = false := by
      simpa using hnil
    simp only [joinedText?, htext, Bool.false_eq_true, if_false, writtenTruth, hread, Option.bind_some]
    exact hholds

theorem joinedText?_texts (column : κ → String) (placeholder : Nat → String) (conditions : List (Condition κ)) :
    joinedText? " AND " (Condition.texts column placeholder conditions) =
      joinedText? " AND "
        ((if conditions.isEmpty then [] else [conditions]).map (Condition.conjunctionText column placeholder)) := by
  cases conditions <;> simp [joinedText?, Condition.texts, Condition.conjunctionText]

/-- A filter means what its text says. Whatever the row and whatever the comparisons give, the text that a filter, or
the arguments that choose rows, are compiled to has the truth of the filter itself, once its placeholders are looked up
in the final parameters; and the parameters bound before are kept. -/
theorem compiled_filter_keeps_meaning {ρ : Type} (resolver : ColumnResolver κ)
    (outcome : ρ → String → Test Sql.Value → Truth) (row : ρ) (bound : Parameters) :
    (∀ (argument : String) (filter : Json) (conditions : List (Condition κ)) (bound' : Parameters),
      (lowerFilter argument resolver.column filter).run bound = .ok (conditions, bound') →
        bound <+: bound' ∧
        writtenTruth (outcome row) bound'
          (joinedText? " AND " (Condition.texts resolver.text Sql.Dialect.postgres.placeholder conditions)) =
            some (filterTruth (fun field => outcome row (resolver.text (resolver.column field))) filter)) ∧
    (∀ (arguments : List (String × Json)) (choice : RowChoice κ) (bound' : Parameters),
      (readRowChoice arguments resolver.column).run bound = .ok (choice, bound') →
        bound <+: bound' ∧
        ∀ separator ∈ [" AND ", "\n  AND "], writtenTruth (outcome row) bound'
          (joinedText? separator
            (choice.conditions.map (Condition.conjunctionText resolver.text Sql.Dialect.postgres.placeholder))) =
              some (choiceTruth (fun field => outcome row (resolver.text (resolver.column field))) arguments)) := by
  constructor
  · intro argument filter conditions bound' hrun
    have hlowered := lowerFilter_lowered hrun
    refine ⟨hlowered.keeps, ?_⟩
    rw [joinedText?_texts]
    exact hlowered.group.writtenTruth_eq Sql.joins_and (outcome row)
  · intro arguments choice bound' hrun
    have hlowered := readRowChoice_lowered hrun
    refine ⟨hlowered.flat.keeps, ?_⟩
    intro separator hseparator
    have hjoins : Sql.Joins separator.toList .and := by
      simp only [List.mem_cons, List.not_mem_nil, or_false] at hseparator
      rcases hseparator with rfl | rfl
      · exact Sql.joins_and
      · exact Sql.joins_line
    exact hlowered.writtenTruth_eq hjoins (outcome row)

/-- The columns of users, named for their fields. -/
def userColumns : ColumnResolver Sql.Column :=
  have hword : (Sql.Qualifier.aliased "u").IsWord := show Sql.continuesWord false "u".toList by decide
  .ofMapping { schema := {}, dialect := .postgres } "User" (some (.aliased "u")) (by rintro _ ⟨⟩; exact hword)

/-- One parameter is bound before. The second branch of the last disjunction holds of every row, so the disjunction
disappears with its parameter. What decides is that nothing is known of `c`. -/
theorem compiled_filter_keeps_meaning_nested :
    let choices : Json := .arr [.str "x", .str "y"]
    let filter : Json := .obj
      [("_and", .arr [.obj [("a", .obj [("_gt", .str "m"), ("lte", .str "z")])],
          .obj [("NOT", .obj [("b", .obj [("_is_null", .bool true)])])]]),
        ("OR", .arr [.obj [("c", .obj [("_in", choices)])],
          .obj [("AND", .obj [("b", .obj [("like", .str "x%")]), ("c", .obj [("not_in", choices)])])]]),
        ("_not", .obj [("b", .null)]), ("_or", .arr [.obj [("a", .bool true)], .obj []])]
    let outcome : Unit → String → Test Sql.Value → Truth := fun _ column _ =>
      if column = "u.\"b\"" then .false else if column = "u.\"c\"" then .unknown else .true
    ∃ choice bound',
      (readRowChoice [("where", filter), ("id", .str "k")] userColumns.column).run [.boolean true] = .ok (choice, bound') ∧
      bound' = [.boolean true, .text "m", .text "z", .ofJson choices, .text "x%", .ofJson choices, .text "k"] ∧
      writtenTruth (outcome ()) bound' (joinedText? " AND "
        (choice.conditions.map (Condition.conjunctionText userColumns.text Sql.Dialect.postgres.placeholder))) =
        some .unknown := by
  intro choices filter outcome
  refine ⟨_, _, rfl, rfl, ?_⟩
  have hmeaning := (compiled_filter_keeps_meaning userColumns outcome () [.boolean true]).2
    [("where", filter), ("id", .str "k")] _ _ rfl
  rw [hmeaning.2 " AND " (by simp)]
  rfl

end RelationalGraphQL.Arguments
