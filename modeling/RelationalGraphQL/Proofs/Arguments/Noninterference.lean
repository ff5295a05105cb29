import RelationalGraphQL.Arguments.Basic
import Mathlib.Data.List.Forall2

/-!
# Arguments that differ in their operands

Arguments are compared that have the same keys and operators and differ in the values that become parameters. What is
compiled from them must not show which values these are: it is the same, or refused for the same reason, and as many
parameters are bound. `Agrees` says this of two steps, and is passed on along the sequence of steps by `Agrees.bind`; so
it remains to look at the steps that bind, and at those that decide by a value.
-/

namespace RelationalGraphQL.Arguments

open Sql (Condition Parameters)

/-! ### Steps that agree -/

/-- Two steps that cannot be told apart by what is seen of the state: they end with the same result, or with the same
error. -/
def Agrees {σ τ ε α : Type} (view : σ → τ) (action action' : StateT σ (Except ε) α) : Prop :=
  ∀ s s', view s = view s' → (action.run s).map (Prod.map id view) = (action'.run s').map (Prod.map id view)

namespace Agrees

variable {σ τ ε α β : Type} {view : σ → τ} {action action' : StateT σ (Except ε) α}

theorem pure (a : α) : Agrees view (Pure.pure a : StateT σ (Except ε) α) (Pure.pure a) := by
  intro s s' hview
  exact congrArg (fun seen => Except.ok (a, seen)) hview

theorem throw (e : ε) : Agrees view (MonadExcept.throw e : StateT σ (Except ε) α) (MonadExcept.throw e) := by
  intro s s' _
  rfl

theorem run_cases (hagrees : Agrees view action action') {s s' : σ} (hview : view s = view s') :
    (∃ e, action.run s = .error e ∧ action'.run s' = .error e) ∨
      ∃ a t t', action.run s = .ok (a, t) ∧ action'.run s' = .ok (a, t') ∧ view t = view t' := by
  have hsame := hagrees s s' hview
  cases hrun : action.run s with
  | error e =>
    cases hrun' : action'.run s' with
    | error e' =>
      rw [hrun, hrun'] at hsame
      cases hsame
      exact .inl ⟨e, rfl, rfl⟩
    | ok pair =>
      rw [hrun, hrun'] at hsame
      cases hsame
  | ok pair =>
    cases hrun' : action'.run s' with
    | error e' =>
      rw [hrun, hrun'] at hsame
      cases hsame
    | ok pair' =>
      rw [hrun, hrun'] at hsame
      obtain ⟨a, t⟩ := pair
      obtain ⟨a', t'⟩ := pair'
      obtain ⟨rfl, ht⟩ : a = a' ∧ view t = view t' := by simpa [Except.map] using hsame
      exact .inr ⟨a, t, t', rfl, rfl, ht⟩

theorem bind {next next' : α → StateT σ (Except ε) β} (haction : Agrees view action action')
    (hnext : ∀ a, Agrees view (next a) (next' a)) : Agrees view (action >>= next) (action' >>= next') := by
  intro s s' hview
  rw [StateT.run_bind, StateT.run_bind]
  rcases haction.run_cases hview with ⟨e, hrun, hrun'⟩ | ⟨a, t, t', hrun, hrun', ht⟩
  · rw [hrun, hrun']
    rfl
  · rw [hrun, hrun']
    exact hnext a t t' ht

theorem get_bind {next next' : σ → StateT σ (Except ε) α}
    (hnext : ∀ s s', view s = view s' → Agrees view (next s) (next' s')) :
    Agrees view (get >>= next) (get >>= next') := by
  intro s s' hview
  exact hnext s s' hview s s' hview

theorem lift (result : Except ε α) : Agrees view (monadLift result : StateT σ (Except ε) α) (monadLift result) := by
  cases result with
  | error e => exact throw e
  | ok a => exact pure a

end Agrees

/-! ### Operands -/

theorem bindOperand_agrees (value value' : Json) : Agrees List.length (bindOperand value) (bindOperand value') := by
  intro bound bound' hlength
  show Except.ok (bound.length + 1, (bound ++ [Sql.Value.ofJson value]).length) =
    Except.ok (bound'.length + 1, (bound' ++ [Sql.Value.ofJson value']).length)
  rw [List.length_append, List.length_append, hlength]
  rfl

/-- Operands that may stand for each other. A comparison takes any value, but not null for a value or a value for null;
membership takes any list. -/
def OperandsAlike : FilterOperator → Json → Json → Prop
  | .compare _, operand, operand' => operand.isNull = operand'.isNull
  | .anyOf, operand, operand' | .noneOf, operand, operand' =>
    operand = operand' ∨ ∃ items items', operand = .arr items ∧ operand' = .arr items'
  | .isNull, operand, operand' => operand = operand'

variable {κ : Type} {c : κ} {operand operand' : Json} {alike : String → Json → Json → Prop}

theorem eq_null_of_isNull {value : Json} (hnull : value.isNull) : value = .null := by
  cases value with
  | null => rfl
  | bool | num | str | arr | obj => cases hnull

theorem comparison_agrees {operator : Sql.BinaryOperator} (halike : operand.isNull = operand'.isNull) :
    Agrees List.length (operatorCondition c (.compare operator) operand)
      (operatorCondition c (.compare operator) operand') := by
  cases hnull : operand.isNull with
  | true =>
    obtain rfl := eq_null_of_isNull hnull
    obtain rfl := eq_null_of_isNull (halike ▸ hnull)
    unfold operatorCondition
    split
    · exact .pure _
    · exact .pure _
    · exact .throw _
    all_goals simp_all
  | false =>
    have hvalue {value : Json} (hvalue : value.isNull = false) :
        operatorCondition c (.compare operator) value = do
          let position ← bindOperand value
          return .compare c operator position := by
      unfold operatorCondition
      split <;> simp_all [Json.isNull]
    rw [hvalue hnull, hvalue (halike ▸ hnull)]
    exact (bindOperand_agrees _ _).bind fun _ => .pure _

theorem operatorCondition_agrees {operator : FilterOperator} (halike : OperandsAlike operator operand operand') :
    Agrees List.length (operatorCondition c operator operand) (operatorCondition c operator operand') := by
  cases operator with
  | compare operator => exact comparison_agrees halike
  | anyOf | noneOf =>
    rcases halike with rfl | ⟨items, items', rfl, rfl⟩
    · cases operand with
      | arr items => exact (bindOperand_agrees _ _).bind fun _ => .pure _
      | null | bool | num | str | obj => exact .throw _
    · exact (bindOperand_agrees _ _).bind fun _ => .pure _
  | isNull =>
    obtain rfl : operand = operand' := halike
    unfold operatorCondition
    split
    all_goals first | exact .pure _ | exact .throw _ | simp_all

/-! ### Filters -/

/-- Entries with the same keys, whose values are alike for their key. -/
def EntriesAlike (alike : String → Json → Json → Prop) : List (String × Json) → List (String × Json) → Prop :=
  List.Forall₂ fun entry entry' => entry.1 = entry'.1 ∧ alike entry.1 entry.2 entry'.2

/-- Operands of a named operator that are alike. -/
def NamedAlike (name : String) (operand operand' : Json) : Prop :=
  match FilterOperator.ofName? name with
  | some operator => OperandsAlike operator operand operand'
  | none => operand = operand'

/-- What a filter says of one field: the same operators, or values that are no objects. -/
inductive FieldAlike : Json → Json → Prop where
  | operators {operators operators' : List (String × Json)} (hoperators : EntriesAlike NamedAlike operators operators') :
      FieldAlike (.obj operators) (.obj operators')
  | bare {value value' : Json} (hvalue : isObject value = false) (hvalue' : isObject value' = false)
      (hnull : value.isNull = value'.isNull) : FieldAlike value value'

mutual

/-- Filter objects that differ only in their operands. -/
inductive FilterAlike : List (String × Json) → List (String × Json) → Prop where
  | nil : FilterAlike [] []
  | cons {key : String} {value value' : Json} {rest rest' : List (String × Json)} (hvalue : EntryAlike key value value')
      (hrest : FilterAlike rest rest') : FilterAlike ((key, value) :: rest) ((key, value') :: rest')

inductive EntryAlike : String → Json → Json → Prop where
  | field {key : String} {value value' : Json} (hkey : FilterKey.ofName key = .field) (hvalue : FieldAlike value value') :
      EntryAlike key value value'
  | object {key : String} {entries entries' : List (String × Json)} (hkey : FilterKey.ofName key ≠ .field)
      (hentries : FilterAlike entries entries') : EntryAlike key (.obj entries) (.obj entries')
  | list {key : String} {items items' : List Json} (hkey : FilterKey.ofName key ≠ .field)
      (hitems : BranchesAlike items items') : EntryAlike key (.arr items) (.arr items')
  /-- A combinator of something else, which is refused. -/
  | other {key : String} {value : Json} (hkey : FilterKey.ofName key ≠ .field) (hobject : value.obj? = none)
      (hlist : value.arr? = none) : EntryAlike key value value

inductive BranchesAlike : List Json → List Json → Prop where
  | nil : BranchesAlike [] []
  | object {entries entries' : List (String × Json)} {rest rest' : List Json} (hentries : FilterAlike entries entries')
      (hrest : BranchesAlike rest rest') : BranchesAlike (.obj entries :: rest) (.obj entries' :: rest')
  | other {item : Json} {rest rest' : List Json} (hitem : isObject item = false) (hrest : BranchesAlike rest rest') :
      BranchesAlike (item :: rest) (item :: rest')

end

section

variable {column : String → κ}

theorem operatorConditions_agrees {field : String} {operators operators' : List (String × Json)}
    (halike : EntriesAlike NamedAlike operators operators') :
    Agrees List.length (operatorConditions c field operators) (operatorConditions c field operators') := by
  induction halike with
  | nil => exact .pure _
  | @cons entry entry' rest rest' hentry _ ih =>
    obtain ⟨name, operand⟩ := entry
    obtain ⟨name', operand'⟩ := entry'
    obtain ⟨rfl, halike⟩ := hentry
    unfold operatorConditions
    cases hname : FilterOperator.ofName? name with
    | none => exact .throw _
    | some operator =>
      rw [NamedAlike, hname] at halike
      exact (operatorCondition_agrees halike).bind fun _ => ih.bind fun _ => .pure _

theorem fieldConditions_agrees {field : String} {value value' : Json} (halike : FieldAlike value value') :
    Agrees List.length (fieldConditions column field value) (fieldConditions column field value') := by
  cases halike with
  | operators hoperators => exact operatorConditions_agrees hoperators
  | bare hvalue hvalue' hnull =>
    have hbare {value : Json} (hvalue : isObject value = false) : fieldConditions column field value = do
        return [← operatorCondition (column field) (.compare .eq) value] := by
      cases value with
      | obj => cases hvalue
      | null | bool | num | str | arr => rfl
    rw [hbare hvalue, hbare hvalue']
    exact (comparison_agrees hnull).bind fun _ => .pure _

theorem disjoin_agrees {before before' : Parameters} (hbefore : before.length = before'.length)
    (branches : List (List (Condition κ))) :
    Agrees List.length (disjoin before branches) (disjoin before' branches) := by
  unfold disjoin
  split
  · intro _ _ _
    exact congrArg (fun length => Except.ok ([], length)) hbefore
  · split
    · exact .pure _
    · exact .pure _

theorem BranchesAlike.all_isObject : ∀ {items items' : List Json}, BranchesAlike items items' →
    items.all isObject = items'.all isObject
  | _, _, .nil => rfl
  | _, _, .object _ hrest => by rw [List.all_cons, List.all_cons, hrest.all_isObject, isObject, isObject]
  | _, _, .other _ hrest => by rw [List.all_cons, List.all_cons, hrest.all_isObject]

mutual

theorem FilterAlike.agrees : ∀ {entries entries' : List (String × Json)}, FilterAlike entries entries' →
    Agrees List.length (conditions column entries) (conditions column entries')
  | _, _, .nil => .pure _
  | _, _, .cons hvalue hrest => by
    rw [conditions, conditions]
    exact hvalue.agrees.bind fun _ => hrest.agrees.bind fun _ => .pure _

theorem EntryAlike.agrees : ∀ {key : String} {value value' : Json}, EntryAlike key value value' →
    Agrees List.length (entryConditions column key value) (entryConditions column key value')
  | key, _, _, .field hkey hvalue => by
    unfold entryConditions
    rw [hkey]
    exact fieldConditions_agrees hvalue
  | key, _, _, .object hkey hentries => by
    unfold entryConditions
    cases hcombinator : FilterKey.ofName key with
    | all => exact hentries.agrees
    | any => exact .get_bind fun _ _ hbefore => hentries.agrees.bind fun _ => disjoin_agrees hbefore _
    | not => exact hentries.agrees.bind fun _ => .pure _
    | field => exact absurd hcombinator hkey
  | key, _, _, .list hkey hitems => by
    unfold entryConditions
    cases hcombinator : FilterKey.ofName key with
    | all =>
      dsimp only
      rw [hitems.all_isObject]
      split
      · exact hitems.agrees.bind fun _ => .pure _
      · exact .throw _
    | any =>
      dsimp only
      rw [hitems.all_isObject]
      split
      · exact .get_bind fun _ _ hbefore => hitems.agrees.bind fun _ => disjoin_agrees hbefore _
      · exact .throw _
    | not => exact .throw _
    | field => exact absurd hcombinator hkey
  | key, value, _, .other hkey hobject hlist => by
    unfold entryConditions
    cases value with
    | obj => cases hobject
    | arr => cases hlist
    | null | bool | num | str =>
      cases hcombinator : FilterKey.ofName key with
      | all | any | not => exact .throw _
      | field => exact absurd hcombinator hkey

theorem BranchesAlike.agrees : ∀ {items items' : List Json}, BranchesAlike items items' →
    Agrees List.length (branchConditions column items) (branchConditions column items')
  | _, _, .nil => .pure _
  | _, _, .object hentries hrest => by
    rw [branchConditions, branchConditions]
    exact hentries.agrees.bind fun _ => hrest.agrees.bind fun _ => .pure _
  | item :: _, _, .other hitem hrest => by
    cases item with
    | obj => cases hitem
    | null | bool | num | str | arr => exact hrest.agrees

end

end

/-! ### Arguments -/

theorem EntriesAlike.refl (hrefl : ∀ key value, alike key value value) (entries : List (String × Json)) :
    EntriesAlike alike entries entries := by
  induction entries with
  | nil => exact .nil
  | cons entry rest ih => exact .cons ⟨rfl, hrefl entry.1 entry.2⟩ ih

theorem EntriesAlike.lookup {entries entries' : List (String × Json)} (halike : EntriesAlike alike entries entries')
    (key : String) :
    (entries.lookup key = none ∧ entries'.lookup key = none) ∨
      ∃ value value', entries.lookup key = some value ∧ entries'.lookup key = some value' ∧ alike key value value' := by
  induction halike with
  | nil => exact .inl ⟨rfl, rfl⟩
  | @cons entry entry' rest rest' hentry _ ih =>
    obtain ⟨name, value⟩ := entry
    obtain ⟨name', value'⟩ := entry'
    obtain ⟨rfl, halike⟩ := hentry
    rw [List.lookup_cons, List.lookup_cons]
    by_cases hname : key = name
    · subst hname
      rw [beq_self_eq_true]
      exact .inr ⟨value, value', rfl, rfl, halike⟩
    · rw [beq_false_of_ne hname]
      exact ih

theorem NamedAlike.refl (name : String) (operand : Json) : NamedAlike name operand operand := by
  unfold NamedAlike
  split
  · rename_i operator _
    cases operator with
    | compare | isNull => rfl
    | anyOf | noneOf => exact .inl rfl
  · rfl

theorem FieldAlike.refl (value : Json) : FieldAlike value value := by
  cases value with
  | obj operators => exact .operators (EntriesAlike.refl NamedAlike.refl operators)
  | null | bool | num | str | arr => exact .bare rfl rfl rfl

mutual

theorem EntryAlike.refl : ∀ (value : Json) (key : String), EntryAlike key value value
  | .obj entries, key => by
    by_cases hkey : FilterKey.ofName key = .field
    · exact .field hkey (.refl _)
    · exact .object hkey (FilterAlike.refl entries)
  | .arr items, key => by
    by_cases hkey : FilterKey.ofName key = .field
    · exact .field hkey (.refl _)
    · exact .list hkey (BranchesAlike.refl items)
  | .null, key | .bool _, key | .num _, key | .str _, key => by
    by_cases hkey : FilterKey.ofName key = .field
    · exact .field hkey (.refl _)
    · exact .other hkey rfl rfl

theorem FilterAlike.refl : ∀ entries : List (String × Json), FilterAlike entries entries
  | [] => .nil
  | (key, value) :: rest => .cons (EntryAlike.refl value key) (FilterAlike.refl rest)

theorem BranchesAlike.refl : ∀ items : List Json, BranchesAlike items items
  | [] => .nil
  | .obj entries :: rest => .object (FilterAlike.refl entries) (BranchesAlike.refl rest)
  | .null :: rest | .bool _ :: rest | .num _ :: rest | .str _ :: rest | .arr _ :: rest =>
    .other rfl (BranchesAlike.refl rest)

end

/-- Values of a filter argument that differ only in operands. -/
def FilterValueAlike (value value' : Json) : Prop :=
  value = value' ∨ ∃ entries entries', value = .obj entries ∧ value' = .obj entries' ∧ FilterAlike entries entries'

/-- Values of an argument that differ only in operands: those of filters, and identifiers. -/
def ArgumentAlike (name : String) (value value' : Json) : Prop :=
  if name = "where" ∨ name = "filter" then FilterValueAlike value value'
  else if name = "id" then value.isNull = value'.isNull
  else value = value'

theorem ArgumentAlike.refl (name : String) (value : Json) : ArgumentAlike name value value := by
  unfold ArgumentAlike
  split
  · exact .inl rfl
  · split <;> rfl

section

variable {column : String → κ} {arguments arguments' : List (String × Json)}

theorem lowerFilter_agrees {value value' : Json} (halike : FilterValueAlike value value') (argument : String)
    (column : String → κ) :
    Agrees List.length (lowerFilter argument column value) (lowerFilter argument column value') := by
  have hconditions : Agrees List.length (filterConditions column value) (filterConditions column value') := by
    rcases halike with rfl | ⟨entries, entries', rfl, rfl, hentries⟩
    · cases value with
      | null => exact .pure _
      | obj entries => exact (FilterAlike.refl entries).agrees
      | bool | num | str | arr => exact .throw _
    · exact hentries.agrees
  intro bound bound' hlength
  rw [StateT.run, StateT.run, lowerFilter, lowerFilter]
  rcases hconditions.run_cases hlength with ⟨fault, hrun, hrun'⟩ | ⟨found, after, after', hrun, hrun', hafter⟩
  · rw [hrun, hrun']
  · rw [hrun, hrun']
    exact congrArg (fun length => Except.ok (found, length)) hafter

theorem filterArgument_agrees (halike : EntriesAlike ArgumentAlike arguments arguments') {name : String}
    (hname : name = "where" ∨ name = "filter") :
    Agrees List.length (filterArgument arguments column name) (filterArgument arguments' column name) := by
  unfold filterArgument
  rcases halike.lookup name with ⟨hnone, hnone'⟩ | ⟨value, value', hsome, hsome', hvalue⟩
  · rw [hnone, hnone']
    exact .pure _
  · rw [hsome, hsome']
    rw [ArgumentAlike, if_pos hname] at hvalue
    exact (lowerFilter_agrees hvalue name column).bind fun _ => .pure _

theorem idArgument_run {value : Json} (hsome : arguments.lookup "id" = some value) (hvalue : value.isNull = false)
    (bound : Parameters) :
    (idArgument arguments column).run bound =
      .ok ([[.compare (column "id") .eq (bound.length + 1)]], bound ++ [Sql.Value.ofJson value]) := by
  unfold idArgument
  rw [hsome]
  cases value with
  | null => cases hvalue
  | bool | num | str | arr | obj => rfl

theorem idArgument_agrees (halike : EntriesAlike ArgumentAlike arguments arguments') :
    Agrees List.length (idArgument arguments column) (idArgument arguments' column) := by
  rcases halike.lookup "id" with ⟨hnone, hnone'⟩ | ⟨value, value', hsome, hsome', hvalue⟩
  · rw [idArgument, idArgument, hnone, hnone']
    exact .pure _
  · rw [ArgumentAlike, if_neg (by decide), if_pos rfl] at hvalue
    cases hnull : value.isNull with
    | true =>
      obtain rfl := eq_null_of_isNull hnull
      obtain rfl := eq_null_of_isNull (hvalue ▸ hnull)
      rw [idArgument, idArgument, hsome, hsome']
      exact .pure _
    | false =>
      intro bound bound' hlength
      rw [idArgument_run hsome hnull, idArgument_run hsome' (hvalue ▸ hnull)]
      simp [Except.map, hlength]

theorem lookup_eq (halike : EntriesAlike ArgumentAlike arguments arguments') {name : String}
    (hname : ¬ (name = "where" ∨ name = "filter") ∧ name ≠ "id") : arguments.lookup name = arguments'.lookup name := by
  rcases halike.lookup name with ⟨hnone, hnone'⟩ | ⟨value, value', hsome, hsome', hvalue⟩
  · rw [hnone, hnone']
  · rw [ArgumentAlike, if_neg hname.1, if_neg hname.2] at hvalue
    rw [hsome, hsome', hvalue]

theorem readRowChoice_agrees (halike : EntriesAlike ArgumentAlike arguments arguments') :
    Agrees List.length (readRowChoice arguments column) (readRowChoice arguments' column) := by
  have hlimit : pageBound arguments "limit" "first" = pageBound arguments' "limit" "first" := by
    rw [pageBound, pageBound, lookup_eq halike (by decide), lookup_eq halike (by decide)]
  have hoffset : pageBound arguments "offset" "skip" = pageBound arguments' "offset" "skip" := by
    rw [pageBound, pageBound, lookup_eq halike (by decide), lookup_eq halike (by decide)]
  have horder : arguments.lookup "orderBy" = arguments'.lookup "orderBy" := lookup_eq halike (by decide)
  unfold readRowChoice
  rw [hlimit, hoffset, horder]
  refine (filterArgument_agrees halike (.inl rfl)).bind fun byWhere => ?_
  refine (filterArgument_agrees halike (.inr rfl)).bind fun byFilter => ?_
  refine (idArgument_agrees halike).bind fun byId => ?_
  refine (Agrees.lift _).bind fun limit => (Agrees.lift _).bind fun offset => ?_
  cases arguments'.lookup "orderBy" with
  | none => exact .pure _
  | some order => exact (Agrees.lift _).bind fun _ => .pure _

end

end RelationalGraphQL.Arguments
