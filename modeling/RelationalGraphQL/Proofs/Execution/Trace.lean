import RelationalGraphQL.Execution.Session
import RelationalGraphQL.Execution.Run
import RelationalGraphQL.Proofs.Schema.WellFormed
import RelationalGraphQL.Proofs.Selection.Merge

/-!
The fields that an execution visits, one after another and depth first, with the times between which each was resolved
and the outcome of its resolution. The visits follow the execution: each starts in the session that the execution is in
when it comes to the field.

A field whose resolution fails is null in the result and has one entry in the error list (`nested_sound`). The
only fields that need not be null are those that the name of the type is written over: a field may have the response
key of that name.
-/

namespace RelationalGraphQL

open Selection (Distinct)

/-! ### Places in a result -/

/-- The value at a path. -/
def Json.at? : Path → Json → Option Json
  | [], value => some value
  | .key key :: rest, value => (value.get? key).bind (at? rest)
  | .index place :: rest, value => (value.arr?.bind (·[place]?)).bind (at? rest)

/-- Whether the name of the type stands in place of what is selected at a path. -/
def SelectionSet.covers : Path → SelectionSet → Bool
  | [], _ => false
  | .key key :: rest, set =>
    (set.typename && key = "__typename") ||
      set.fields.any fun field => field.responseKey = key && field.selections.any (covers rest)
  | .index _ :: rest, set => covers rest set

def SelectedField.covers (place : Path) (field : SelectedField) : Bool :=
  field.selections.any (SelectionSet.covers place)

theorem SelectionSet.covers_key {set : SelectionSet} {key : String} {tail : Path} :
    set.covers (.key key :: tail) ↔ set.typename ∧ key = "__typename" ∨
      ∃ field ∈ set.fields, field.responseKey = key ∧ field.covers tail := by
  simp [covers, SelectedField.covers]

namespace Execution

/-! ### Visits -/

/-- A field that is executed. -/
structure Visit where
  path : Path
  start : Nat
  finish : Nat
  /-- Whether the field was given to its resolver and the middleware before it. -/
  resolved : Bool
  resolution : Except ExecutionError Json

/-- How far the resolution of a field gets. -/
structure Attempt (σ : Type) where
  resolution : Except ExecutionError Json
  state : σ
  /-- The type of the field, if it was given to its resolver. -/
  type : Option TypeRef := none

variable {σ : Type}

/-- Resolves a field without completing its value. -/
def attempt (schema : Schema) (host : Host σ) (operationName : Option String) (field : SelectedField)
    (parentType : String) (parent : Json) (path : Path) (state : σ) : Attempt σ :=
  match host.interruption? state with
  | some error => { resolution := .error error, state }
  | none =>
    if field.name = "__schema" then { resolution := .ok (schema.describeSchema field.selections), state }
    else if field.name = "__type" then
      let name := ((field.arguments.lookup "name").bind Json.str?).getD ""
      { resolution := .ok (schema.describeType name field.selections), state }
    else
      match schema.field? parentType field.name with
      | none => { resolution := .error (.unknownField parentType field.name), state }
      | some definition =>
        let outcome := host.resolve
          { field, parentType, returnType := definition.type, path, operationName, parent } state
        { resolution := outcome.1, state := outcome.2, type := some definition.type }

def Attempt.finish (schema : Schema) (below : Option (Below σ)) (position : Document.Position) (path : Path)
    (attempt : Attempt σ) : Outcome (Except ExecutionError Json) σ :=
  match attempt.resolution, attempt.type with
  | .ok value, some type => complete schema below position type path attempt.state value
  | resolution, _ => { result := resolution, state := attempt.state }

theorem executeField_eq (schema : Schema) (host : Host σ) (operationName : Option String) (below : Option (Below σ))
    (field : SelectedField) (parentType : String) (parent : Json) (path : Path) (state : σ) :
    executeField schema host operationName below field parentType parent path state =
      (attempt schema host operationName field parentType parent path state).finish schema below field.position
        path := by
  unfold executeField attempt
  cases host.interruption? state with
  | some error => rfl
  | none =>
    dsimp only
    split
    · rfl
    · split
      · rfl
      · cases schema.field? parentType field.name with
        | none => rfl
        | some definition =>
          dsimp only
          generalize host.resolve _ state = outcome
          obtain ⟨_ | _, _⟩ := outcome <;> rfl

theorem attempt_of_interruption {host : Host σ} {state : σ} {error : ExecutionError}
    (hinterrupted : host.interruption? state = some error) (schema : Schema) (operationName : Option String)
    (field : SelectedField) (parentType : String) (parent : Json) (path : Path) :
    attempt schema host operationName field parentType parent path state = { resolution := .error error, state } := by
  rw [attempt, hinterrupted]

/-- Without an interruption, a field is answered at once or given to its resolver, whatever the state. -/
theorem attempt_cases (schema : Schema) (host : Host σ) (operationName : Option String) (field : SelectedField)
    (parentType : String) (parent : Json) (path : Path) :
    (∃ resolution, ∀ state, host.interruption? state = none →
        attempt schema host operationName field parentType parent path state = { resolution, state }) ∨
      ∃ call type, ∀ state, host.interruption? state = none →
        attempt schema host operationName field parentType parent path state =
          { resolution := (host.resolve call state).1, state := (host.resolve call state).2, type := some type } := by
  unfold attempt
  split
  · exact .inl ⟨_, fun state hnone => by rw [hnone]⟩
  · split
    · exact .inl ⟨_, fun state hnone => by rw [hnone]⟩
    · cases schema.field? parentType field.name with
      | none => exact .inl ⟨_, fun state hnone => by rw [hnone]⟩
      | some definition => exact .inr ⟨_, _, fun state hnone => by rw [hnone]⟩

/-- What is executed below a field, and the visits there. -/
structure Nested where
  execute : Below Session
  visits : String → Json → Path → Session → List Visit

mutual

/-- The visits in the completion of a value. -/
def valueVisits (schema : Schema) (below : Option Nested) (position : Document.Position) (type : TypeRef) (path : Path)
    (session : Session) : Json → List Visit
  | .arr items => itemVisits schema below position type.itemType path 0 session items
  | .obj entries => below.elim [] fun nested => nested.visits type.namedType (.obj entries) path session
  | .null | .bool _ | .num _ | .str _ => []

def itemVisits (schema : Schema) (below : Option Nested) (position : Document.Position) (type : TypeRef) (path : Path)
    (place : Nat) (session : Session) : List Json → List Visit
  | [] => []
  | item :: items =>
    let itemPath := path.withIndex place
    let first := complete schema (below.map Nested.execute) position type itemPath session item
    valueVisits schema below position type itemPath session item ++
      itemVisits schema below position type path (place + 1) first.state items

end

/-- The visits in the completion of a field. -/
def Attempt.visits (schema : Schema) (below : Option Nested) (position : Document.Position) (path : Path)
    (attempt : Attempt Session) : List Visit :=
  match attempt.resolution, attempt.type with
  | .ok value, some type => valueVisits schema below position type path attempt.state value
  | _, _ => []

/-- The visit of a field. -/
def Attempt.visit (path : Path) (session : Session) (attempt : Attempt Session) : Visit where
  path
  start := session.timeline.now
  finish := attempt.state.timeline.now
  resolved := attempt.type.isSome
  resolution := attempt.resolution

variable (schema : Schema) (host : Host Session) (operationName : Option String)

mutual

/-- The visits in the execution of a selection set. -/
def setVisits (set : SelectionSet) (declared : String) (parent : Json) (path : Path) (session : Session) :
    List Visit :=
  match set with
  | ⟨fields, _⟩ => fieldVisits fields (runtimeType schema declared parent) parent path session

def fieldVisits (fields : List SelectedField) (type : String) (parent : Json) (path : Path) (session : Session) :
    List Visit :=
  match fields with
  | [] => []
  | field :: rest =>
    if applies schema type field then
      let fieldPath := path.withKey field.responseKey
      let first := executeOne schema host operationName field type parent fieldPath session
      oneVisits field type parent fieldPath session ++ fieldVisits rest type parent path first.state
    else fieldVisits rest type parent path session

/-- The visit of a field, then those below it. -/
def oneVisits (field : SelectedField) (parentType : String) (parent : Json) (path : Path) (session : Session) :
    List Visit :=
  match field with
  | ⟨name, aliasName, arguments, directives, typeCondition, position, selections⟩ =>
    let below : Option Nested := match selections with
      | none => none
      | some set => some
        { execute := fun declared value path session =>
            executeSelections schema host operationName set declared value path session
          visits := fun declared value path session => setVisits set declared value path session }
    let attempt := attempt schema host operationName
      ⟨name, aliasName, arguments, directives, typeCondition, position, selections⟩ parentType parent path session
    attempt.visit path session :: attempt.visits schema below position path

end

variable {schema host operationName}

def nested (schema : Schema) (host : Host Session) (operationName : Option String) (set : SelectionSet) : Nested where
  execute := executeSelections schema host operationName set
  visits := setVisits schema host operationName set

theorem executeOne_eq (field : SelectedField) (parentType : String) (parent : Json) (path : Path) (session : Session) :
    executeOne schema host operationName field parentType parent path session =
      (attempt schema host operationName field parentType parent path session).finish schema
        ((field.selections.map (nested schema host operationName)).map Nested.execute) field.position path := by
  rw [← executeField_eq]
  obtain ⟨_, _, _, _, _, _, _ | set⟩ := field <;> rfl

theorem oneVisits_eq (field : SelectedField) (parentType : String) (parent : Json) (path : Path) (session : Session) :
    oneVisits schema host operationName field parentType parent path session =
      (attempt schema host operationName field parentType parent path session).visit path session ::
        (attempt schema host operationName field parentType parent path session).visits schema
          (field.selections.map (nested schema host operationName)) field.position path := by
  obtain ⟨_, _, _, _, _, _, _ | set⟩ := field <;> rfl

/-- What is written for a value: null where it failed. -/
def written : Except ExecutionError Json → Json
  | .ok value => value
  | .error _ => .null

/-- The errors of a value: those below it, then its own. -/
def recorded (path : Path) (position : Document.Position) (outcome : Outcome (Except ExecutionError Json) Session) :
    List ResponseError :=
  match outcome.result with
  | .ok _ => outcome.errors
  | .error error => outcome.errors ++ [.ofField error path position]

theorem executeFields_cons {field : SelectedField} {type : String} (happlies : applies schema type field)
    (rest : List SelectedField) (parent : Json) (path : Path) (session : Session) :
    let fieldPath := path.withKey field.responseKey
    let first := executeOne schema host operationName field type parent fieldPath session
    let others := executeFields schema host operationName rest type parent path first.state
    executeFields schema host operationName (field :: rest) type parent path session =
      { result := (field.responseKey, written first.result) :: others.result
        errors := recorded fieldPath field.position first ++ others.errors
        state := others.state } := by
  intro fieldPath first others
  rw [executeFields, if_pos happlies]
  change (match first.result with | .ok _ => _ | .error _ => _) = _
  rw [recorded]
  cases first.result with
  | ok value => rfl
  | error error =>
    dsimp only
    rw [List.append_assoc]
    rfl

theorem completeItems_cons (below : Option (Below Session)) (position : Document.Position) (type : TypeRef)
    (path : Path) (place : Nat) (session : Session) (item : Json) (items : List Json) :
    let itemPath := path.withIndex place
    let first := complete schema below position type itemPath session item
    let rest := completeItems schema below position type path (place + 1) first.state items
    completeItems schema below position type path place session (item :: items) =
      { result := written first.result :: rest.result
        errors := recorded itemPath position first ++ rest.errors
        state := rest.state } := by
  intro itemPath first rest
  rw [completeItems]
  change (match first.result with | .ok _ => _ | .error _ => _) = _
  rw [recorded]
  cases first.result with
  | ok value => rfl
  | error error =>
    dsimp only
    rw [List.append_assoc]
    rfl

/-! ### Parts of an execution -/

/-- A part of an execution: its visits, and the session that it leaves. -/
abbrev Part := Session → List Visit × Session

namespace Part

def skip : Part := fun session => ([], session)

def seq (first second : Part) : Part := fun session =>
  ((first session).1 ++ (second (first session).2).1, (second (first session).2).2)

/-- The visit of a field, then a part that depends on how it was resolved. -/
def visit (attempt : Session → Attempt Session) (path : Path)
    (rest : Except ExecutionError Json → Option TypeRef → Part) : Part := fun session =>
  let attempt := attempt session
  let rest := rest attempt.resolution attempt.type attempt.state
  (attempt.visit path session :: rest.1, rest.2)

end Part

def Nested.part (nested : Nested) (declared : String) (value : Json) (path : Path) : Part := fun session =>
  (nested.visits declared value path session, (nested.execute declared value path session).state)

/-- What is left to do for a field when it is resolved. -/
def completion (schema : Schema) (below : Option Nested) (position : Document.Position) (path : Path)
    (resolution : Except ExecutionError Json) (type : Option TypeRef) : Part := fun session =>
  (Attempt.visits schema below position path { resolution, state := session, type },
    (Attempt.finish schema (below.map Nested.execute) position path { resolution, state := session, type }).state)

/-- A property of parts that holds of the smallest ones and carries over to those composed of them. -/
structure Partwise (schema : Schema) (host : Host Session) (operationName : Option String) (holds : Part → Prop) :
    Prop where
  skip : holds .skip
  seq : ∀ {first second}, holds first → holds second → holds (first.seq second)
  visit : ∀ field parentType parent path rest, (∀ resolution type, holds (rest resolution type)) →
    (∀ error type, rest (.error error) type = .skip) →
      holds (.visit (attempt schema host operationName field parentType parent path) path rest)

namespace Partwise

variable {holds : Part → Prop}

mutual

theorem complete (hpartwise : Partwise schema host operationName holds) {below : Option Nested}
    (hbelow : ∀ nested ∈ below, ∀ declared value path, holds (nested.part declared value path))
    (position : Document.Position) (type : TypeRef) (path : Path) : ∀ value,
    holds fun session => (valueVisits schema below position type path session value,
      (Execution.complete schema (below.map Nested.execute) position type path session value).state)
  | .null => hpartwise.skip
  | .bool _ => hpartwise.skip
  | .num _ => hpartwise.skip
  | .str _ => hpartwise.skip
  | .arr items => completeItems hpartwise hbelow position type.itemType path 0 items
  | .obj entries => by
    cases below with
    | none => exact hpartwise.skip
    | some nested => exact hbelow nested rfl type.namedType (.obj entries) path

theorem completeItems (hpartwise : Partwise schema host operationName holds) {below : Option Nested}
    (hbelow : ∀ nested ∈ below, ∀ declared value path, holds (nested.part declared value path))
    (position : Document.Position) (type : TypeRef) (path : Path) (place : Nat) : ∀ items,
    holds fun session => (itemVisits schema below position type path place session items,
      (Execution.completeItems schema (below.map Nested.execute) position type path place session items).state)
  | [] => hpartwise.skip
  | item :: items => by
    have hseq := hpartwise.seq (complete hpartwise hbelow position type (path.withIndex place) item)
      (completeItems hpartwise hbelow position type path (place + 1) items)
    simp only [completeItems_cons, itemVisits]
    exact hseq

end

theorem completion (hpartwise : Partwise schema host operationName holds) {below : Option Nested}
    (hbelow : ∀ nested ∈ below, ∀ declared value path, holds (nested.part declared value path))
    (position : Document.Position) (path : Path) (resolution : Except ExecutionError Json) (type : Option TypeRef) :
    holds (Execution.completion schema below position path resolution type) := by
  cases resolution with
  | error error => exact hpartwise.skip
  | ok value =>
    cases type with
    | none => exact hpartwise.skip
    | some type => exact hpartwise.complete hbelow position type path value

mutual

theorem executeSelections (hpartwise : Partwise schema host operationName holds) (set : SelectionSet)
    (declared : String) (parent : Json) (path : Path) :
    holds ((nested schema host operationName set).part declared parent path) :=
  match set with
  | ⟨fields, _⟩ => executeFields hpartwise fields (runtimeType schema declared parent) parent path

theorem executeFields (hpartwise : Partwise schema host operationName holds) (fields : List SelectedField)
    (type : String) (parent : Json) (path : Path) :
    holds fun session => (fieldVisits schema host operationName fields type parent path session,
      (Execution.executeFields schema host operationName fields type parent path session).state) :=
  match fields with
  | [] => hpartwise.skip
  | field :: rest => by
    have hrest := executeFields hpartwise rest type parent path
    by_cases happlies : applies schema type field
    · have hseq := hpartwise.seq
        (executeOne hpartwise field type parent (path.withKey field.responseKey)) hrest
      simp only [executeFields_cons happlies, fieldVisits, if_pos happlies]
      exact hseq
    · simp only [Execution.executeFields, fieldVisits, if_neg happlies]
      exact hrest

theorem executeOne (hpartwise : Partwise schema host operationName holds) (field : SelectedField)
    (parentType : String) (parent : Json) (path : Path) :
    holds fun session => (oneVisits schema host operationName field parentType parent path session,
      (Execution.executeOne schema host operationName field parentType parent path session).state) :=
  match field with
  | ⟨name, aliasName, arguments, directives, typeCondition, position, selections⟩ => by
    have hbelow : ∀ below ∈ selections.map (nested schema host operationName), ∀ declared value path,
        holds (below.part declared value path) := by
      match selections with
      | none => exact nofun
      | some set =>
        intro below hmem declared value path
        cases hmem
        exact executeSelections hpartwise set declared value path
    simp only [executeOne_eq, oneVisits_eq]
    exact hpartwise.visit _ parentType parent path
      (Execution.completion schema (selections.map (nested schema host operationName)) position path)
      (hpartwise.completion hbelow position path) fun _ _ => rfl

end

end Partwise

/-! ### The order of the visits -/

/-- Visits one after another from one time to another, without a gap. -/
def Follows : Nat → List Visit → Nat → Prop
  | time, [], final => time = final
  | time, visit :: rest, final => visit.start = time ∧ Follows visit.finish rest final

theorem Follows.append {time middle final : Nat} {visits others : List Visit} (hfirst : Follows time visits middle)
    (hsecond : Follows middle others final) : Follows time (visits ++ others) final := by
  induction visits generalizing time with
  | nil =>
    cases hfirst
    exact hsecond
  | cons visit rest ih => exact ⟨hfirst.1, ih hfirst.2⟩

theorem follows_partwise : Partwise schema host operationName fun part => ∀ session,
    Follows session.timeline.now (part session).1 (part session).2.timeline.now where
  skip := fun _ => rfl
  seq hfirst hsecond := fun session => (hfirst session).append (hsecond _)
  visit _ _ _ _ _ hrest _ := fun _ => ⟨rfl, hrest _ _ _⟩

/-! ### What the error list says of the visits -/

/-- Below a path, each visit whose resolution failed is at a marked place and has its one entry among the errors. All
errors and visits lie in certain branches. -/
structure Accounts (base : Path) (branch : PathSegment → Prop) (marked : Path → Prop) (errors : List ResponseError)
    (visits : List Visit) : Prop where
  located : ∀ error ∈ errors, ∃ segment tail, branch segment ∧ error.path = some (base ++ segment :: tail)
  failed : ∀ visit ∈ visits, ∃ segment tail, branch segment ∧ visit.path = base ++ segment :: tail ∧
    ∀ error, visit.resolution = .error error → marked (segment :: tail) ∧
      ∃ position, errors.filter (·.path = some visit.path) = [.ofField error visit.path position]

namespace Accounts

variable {base : Path} {branch branch' : PathSegment → Prop} {marked marked' : Path → Prop}
  {errors errors' : List ResponseError} {visits visits' : List Visit} {segment : PathSegment} {visit : Visit}

theorem nil : Accounts base branch marked [] [] := ⟨nofun, nofun⟩

theorem widen (haccounts : Accounts base branch marked errors visits)
    (hbranch : ∀ segment, branch segment → branch' segment) : Accounts base branch' marked errors visits := by
  refine ⟨fun error herror => ?_, fun visit hvisit => ?_⟩
  · obtain ⟨segment, tail, hsegment, hpath⟩ := haccounts.located error herror
    exact ⟨segment, tail, hbranch segment hsegment, hpath⟩
  · obtain ⟨segment, tail, hsegment, hfailed⟩ := haccounts.failed visit hvisit
    exact ⟨segment, tail, hbranch segment hsegment, hfailed⟩

theorem remark (haccounts : Accounts base branch marked errors visits)
    (hmarked : ∀ segment tail, branch segment → marked (segment :: tail) → marked' (segment :: tail)) :
    Accounts base branch marked' errors visits := by
  refine ⟨haccounts.located, fun visit hvisit => ?_⟩
  obtain ⟨segment, tail, hsegment, hpath, hfailed⟩ := haccounts.failed visit hvisit
  refine ⟨segment, tail, hsegment, hpath, fun error hresolution => ?_⟩
  exact ⟨hmarked segment tail hsegment (hfailed error hresolution).1, (hfailed error hresolution).2⟩

/-- No error has a path in a branch that the errors do not lie in. -/
theorem filter_eq_nil (haccounts : Accounts base branch marked errors visits) {tail : Path}
    (hapart : ¬ branch segment) : errors.filter (·.path = some (base ++ segment :: tail)) = [] := by
  rw [List.filter_eq_nil_iff]
  intro error herror hpath
  obtain ⟨other, otherTail, hother, heq⟩ := haccounts.located error herror
  have hsame := Option.some.inj ((of_decide_eq_true hpath).symm.trans heq)
  rw [List.append_cancel_left_eq, List.cons.injEq] at hsame
  exact hapart (hsame.1 ▸ hother)

theorem append (haccounts : Accounts base branch marked errors visits)
    (haccounts' : Accounts base branch' marked errors' visits')
    (hapart : ∀ segment, branch segment → ¬ branch' segment) :
    Accounts base (fun segment => branch segment ∨ branch' segment) marked (errors ++ errors') (visits ++ visits') := by
  refine ⟨fun error herror => ?_, fun visit hvisit => ?_⟩
  · rcases List.mem_append.1 herror with herror | herror
    · exact (haccounts.widen fun _ => .inl).located error herror
    · exact (haccounts'.widen fun _ => .inr).located error herror
  · rcases List.mem_append.1 hvisit with hvisit | hvisit
    · obtain ⟨segment, tail, hsegment, hpath, hfailed⟩ := haccounts.failed visit hvisit
      refine ⟨segment, tail, .inl hsegment, hpath, fun error hresolution => ?_⟩
      rw [List.filter_append, hpath, haccounts'.filter_eq_nil (hapart segment hsegment), List.append_nil, ← hpath]
      exact hfailed error hresolution
    · obtain ⟨segment, tail, hsegment, hpath, hfailed⟩ := haccounts'.failed visit hvisit
      refine ⟨segment, tail, .inr hsegment, hpath, fun error hresolution => ?_⟩
      rw [List.filter_append, hpath, haccounts.filter_eq_nil fun hother => hapart segment hother hsegment,
        List.nil_append, ← hpath]
      exact hfailed error hresolution

/-- From a branch to the path before it. -/
theorem child (haccounts : Accounts (base ++ [segment]) branch marked errors visits)
    (hmarked : ∀ tail, marked tail → marked' (segment :: tail)) :
    Accounts base (· = segment) marked' errors visits := by
  refine ⟨fun error herror => ?_, fun visit hvisit => ?_⟩
  · obtain ⟨next, tail, -, hpath⟩ := haccounts.located error herror
    exact ⟨segment, next :: tail, rfl, by simpa using hpath⟩
  · obtain ⟨next, tail, -, hpath, hfailed⟩ := haccounts.failed visit hvisit
    refine ⟨segment, next :: tail, rfl, by simpa using hpath, fun error hresolution => ?_⟩
    exact ⟨hmarked _ (hfailed error hresolution).1, (hfailed error hresolution).2⟩

/-- A value that could not be written. -/
theorem unwritten (segment : PathSegment) (error : ExecutionError) (position : Document.Position) :
    Accounts base (· = segment) marked [.ofField error (base ++ [segment]) position] [] := by
  refine ⟨fun other hother => ⟨segment, [], rfl, ?_⟩, nofun⟩
  rw [List.mem_singleton.1 hother]
  rfl

/-- A field whose resolution failed. -/
theorem failure {error : ExecutionError} (hpath : visit.path = base ++ [segment])
    (hresolution : visit.resolution = .error error) (hmarked : marked [segment]) (position : Document.Position) :
    Accounts base (· = segment) marked [.ofField error (base ++ [segment]) position] [visit] := by
  refine ⟨(unwritten segment error position : Accounts base _ marked _ _).located, fun other hother => ?_⟩
  obtain rfl := List.mem_singleton.1 hother
  refine ⟨segment, [], rfl, hpath, fun other hother => ⟨hmarked, position, ?_⟩⟩
  obtain rfl : error = other := Except.error.inj (hresolution.symm.trans hother)
  simp [hpath, ResponseError.ofField]

/-- A field that was resolved, and what is below it. -/
theorem success {value : Json} (hpath : visit.path = base ++ [segment]) (hresolution : visit.resolution = .ok value)
    (haccounts : Accounts base (· = segment) marked errors visits) :
    Accounts base (· = segment) marked errors (visit :: visits) := by
  refine ⟨haccounts.located, fun other hother => ?_⟩
  rcases List.mem_cons.1 hother with rfl | hother
  · refine ⟨segment, [], rfl, hpath, fun error herror => ?_⟩
    cases hresolution.symm.trans herror
  · exact haccounts.failed other hother

end Accounts

/-- The visits in the completion of a value are accounted for. A value that cannot be written has none. -/
structure Accounted (covered : Path → Prop) (path : Path) (outcome : Outcome (Except ExecutionError Json) Session)
    (visits : List Visit) : Prop where
  ok : ∀ value, outcome.result = .ok value →
    Accounts path (fun _ => True) (fun place => covered place ∨ value.at? place = some .null) outcome.errors visits
  error : ∀ error, outcome.result = .error error → outcome.errors = [] ∧ visits = []

namespace Accounted

variable {covered : Path → Prop} {path : Path} {outcome : Outcome (Except ExecutionError Json) Session}
  {visits : List Visit}

theorem leaf (herrors : outcome.errors = []) : Accounted covered path outcome [] :=
  ⟨fun _ _ => herrors ▸ .nil, fun _ _ => ⟨herrors, rfl⟩⟩

theorem child {segment : PathSegment} (haccounted : Accounted covered (path ++ [segment]) outcome visits)
    (position : Document.Position) :
    Accounts path (· = segment)
      (fun place => ∃ tail, place = segment :: tail ∧ (covered tail ∨ (written outcome.result).at? tail = some .null))
      (recorded (path ++ [segment]) position outcome) visits := by
  rw [recorded]
  cases hresult : outcome.result with
  | ok value => exact (haccounted.ok value hresult).child fun tail hmarked => ⟨tail, rfl, hmarked⟩
  | error error =>
    obtain ⟨herrors, rfl⟩ := haccounted.error error hresult
    dsimp only
    rw [herrors]
    exact .unwritten segment error position

theorem field {segment : PathSegment} {below : Option Nested} {position : Document.Position} {attempt : Attempt Session}
    (haccounted : ∀ type value,
      Accounted covered (path ++ [segment])
        (complete schema (below.map Nested.execute) position type (path ++ [segment]) attempt.state value)
        (valueVisits schema below position type (path ++ [segment]) attempt.state value))
    (session : Session) :
    Accounts path (· = segment)
      (fun place => ∃ tail, place = segment :: tail ∧ (covered tail ∨
        (written (attempt.finish schema (below.map Nested.execute) position (path ++ [segment])).result).at? tail =
          some .null))
      (recorded (path ++ [segment]) position
        (attempt.finish schema (below.map Nested.execute) position (path ++ [segment])))
      (attempt.visit (path ++ [segment]) session :: attempt.visits schema below position (path ++ [segment])) := by
  obtain ⟨resolution, state, type⟩ := attempt
  cases resolution with
  | error error => exact .failure rfl rfl ⟨[], rfl, .inr rfl⟩ position
  | ok value =>
    cases type with
    | none => exact .success rfl rfl .nil
    | some type => exact .success rfl rfl ((haccounted type value).child position)

end Accounted

/-- The visits below a field are accounted for, whatever it is executed on. -/
def Nested.Sound (covered : Path → Prop) (nested : Nested) : Prop :=
  ∀ declared value path session,
    Accounts path (fun _ => True)
      (fun place => covered place ∨ (nested.execute declared value path session).result.at? place = some .null)
      (nested.execute declared value path session).errors (nested.visits declared value path session)

mutual

theorem complete_accounted {covered : Path → Prop}
    (hcovered : ∀ place tail, covered tail → covered (.index place :: tail)) {below : Option Nested}
    (hbelow : ∀ nested ∈ below, nested.Sound covered) (position : Document.Position) (type : TypeRef) (path : Path)
    (session : Session) : ∀ value,
    Accounted covered path (complete schema (below.map Nested.execute) position type path session value)
      (valueVisits schema below position type path session value)
  | .null => .leaf rfl
  | .bool _ => .leaf rfl
  | .num _ => .leaf rfl
  | .str _ => .leaf rfl
  | .obj entries => by
    cases below with
    | none => exact .leaf rfl
    | some nested =>
      refine ⟨fun value hvalue => ?_, nofun⟩
      cases hvalue
      exact hbelow nested rfl type.namedType (.obj entries) path session
  | .arr items => by
    refine ⟨fun value hvalue => ?_, nofun⟩
    cases hvalue
    have hitems := completeItems_accounts hcovered hbelow position type.itemType path 0 session items
    refine (hitems.remark ?_).widen fun _ _ => trivial
    intro segment tail _ hmarked
    obtain ⟨index, tail, heq, hmarked⟩ := hmarked
    rw [Nat.zero_add] at heq
    rw [heq]
    exact hmarked.imp (hcovered index tail) id

theorem completeItems_accounts {covered : Path → Prop}
    (hcovered : ∀ place tail, covered tail → covered (.index place :: tail)) {below : Option Nested}
    (hbelow : ∀ nested ∈ below, nested.Sound covered) (position : Document.Position) (type : TypeRef) (path : Path)
    (place : Nat) (session : Session) : ∀ items,
    Accounts path (fun segment => ∃ index, place ≤ index ∧ segment = .index index)
      (fun target => ∃ index tail, target = .index (place + index) :: tail ∧ (covered tail ∨
        ((completeItems schema (below.map Nested.execute) position type path place session items).result[index]?).bind
          (Json.at? tail) = some .null))
      (completeItems schema (below.map Nested.execute) position type path place session items).errors
      (itemVisits schema below position type path place session items)
  | [] => .nil
  | item :: items => by
    rw [completeItems_cons, itemVisits]
    have hfirst := (complete_accounted hcovered hbelow position type (path.withIndex place) session item).child position
    have hrest := completeItems_accounts hcovered hbelow position type path (place + 1)
      (complete schema (below.map Nested.execute) position type (path.withIndex place) session item).state items
    refine ((hfirst.remark ?_).append (hrest.remark ?_) ?_).widen ?_
    · intro segment _ _ hmarked
      obtain ⟨tail, heq, hmarked⟩ := hmarked
      exact ⟨0, tail, heq, hmarked⟩
    · intro segment _ _ hmarked
      obtain ⟨index, tail, heq, hmarked⟩ := hmarked
      exact ⟨index + 1, tail, by rw [heq, Nat.add_assoc, Nat.add_comm 1], hmarked⟩
    · intro segment hsegment hother
      obtain ⟨index, hindex, heq⟩ := hother
      cases hsegment.symm.trans heq
      omega
    · intro segment hsegment
      rcases hsegment with heq | ⟨index, hindex, heq⟩
      · exact ⟨place, Nat.le_refl place, heq⟩
      · exact ⟨index, by omega, heq⟩

end

theorem executeOne_accounts {field : SelectedField}
    (hsound : ∀ set, field.selections = some set → (nested schema host operationName set).Sound (set.covers ·))
    (parentType : String) (parent : Json) (path : Path) (segment : PathSegment) (session : Session) :
    let outcome := executeOne schema host operationName field parentType parent (path ++ [segment]) session
    Accounts path (· = segment)
      (fun place => ∃ tail, place = segment :: tail ∧
        (field.covers tail ∨ (written outcome.result).at? tail = some .null))
      (recorded (path ++ [segment]) field.position outcome)
      (oneVisits schema host operationName field parentType parent (path ++ [segment]) session) := by
  dsimp only
  rw [executeOne_eq, oneVisits_eq]
  refine Accounted.field (fun type value => complete_accounted ?_ ?_ field.position type _ _ value) session
  · intro _ _ hcovers
    exact hcovers
  · intro below hbelow
    obtain ⟨set, hset, rfl⟩ := Option.map_eq_some_iff.1 hbelow
    have hcovers (place : Path) : field.covers place = set.covers place := by
      rw [SelectedField.covers, hset, Option.any_some]
    simpa only [hcovers] using hsound set hset

theorem executeFields_accounts {fields : List SelectedField} (hkeys : (fields.map SelectedField.responseKey).Nodup)
    (hsound : ∀ field ∈ fields, ∀ set, field.selections = some set →
      (nested schema host operationName set).Sound (set.covers ·))
    (type : String) (parent : Json) (path : Path) (session : Session) :
    let outcome := executeFields schema host operationName fields type parent path session
    Accounts path (fun segment => ∃ field ∈ fields, segment = .key field.responseKey)
      (fun place => ∃ key tail, place = .key key :: tail ∧
        ((∃ field ∈ fields, field.responseKey = key ∧ field.covers tail) ∨
          (outcome.result.lookup key).bind (Json.at? tail) = some .null))
      outcome.errors (fieldVisits schema host operationName fields type parent path session) := by
  induction fields generalizing session with
  | nil => exact .nil
  | cons field rest ih =>
    obtain ⟨hnew, hkeys⟩ := List.nodup_cons.1 hkeys
    have hrest := ih hkeys fun other hother => hsound other (List.mem_cons_of_mem _ hother)
    by_cases happlies : applies schema type field
    · -- The keys are distinct, so neither the rest nor its errors reach into the branch of the first field.
      rw [executeFields_cons happlies, fieldVisits, if_pos happlies]
      refine ((Accounts.remark (executeOne_accounts (hsound field List.mem_cons_self) type parent path
        (.key field.responseKey) session) ?_).append ((hrest _).remark ?_) ?_).widen ?_
      · intro segment _ _ hmarked
        obtain ⟨tail, heq, hmarked⟩ := hmarked
        refine ⟨field.responseKey, tail, heq, hmarked.imp (fun hcovers => ⟨field, List.mem_cons_self, rfl, hcovers⟩) ?_⟩
        intro hnull
        rw [Table.lookup_cons, if_pos rfl]
        exact hnull
      · intro segment _ hsegment hmarked
        obtain ⟨key, tail, heq, hmarked⟩ := hmarked
        obtain ⟨other, hother, rfl⟩ := hsegment
        obtain rfl : other.responseKey = key := PathSegment.key.inj (List.cons.inj heq).1
        refine ⟨other.responseKey, tail, heq, hmarked.imp (fun hcovers => ?_) fun hnull => ?_⟩
        · obtain ⟨found, hfound, hcovers⟩ := hcovers
          exact ⟨found, List.mem_cons_of_mem _ hfound, hcovers⟩
        · have hne : other.responseKey ≠ field.responseKey := fun heq => hnew (heq ▸ List.mem_map_of_mem hother)
          rw [Table.lookup_cons, if_neg hne]
          exact hnull
      · intro segment hsegment hother
        obtain ⟨other, hother, heq⟩ := hother
        have hsame := PathSegment.key.inj (hsegment.symm.trans heq)
        exact hnew (hsame ▸ List.mem_map_of_mem hother)
      · intro segment hsegment
        rcases hsegment with heq | ⟨other, hother, heq⟩
        · exact ⟨field, List.mem_cons_self, heq⟩
        · exact ⟨other, List.mem_cons_of_mem _ hother, heq⟩
    · rw [executeFields, fieldVisits, if_neg happlies, if_neg happlies]
      refine ((hrest session).remark ?_).widen ?_
      · intro segment _ _ hmarked
        obtain ⟨key, tail, heq, hmarked⟩ := hmarked
        refine ⟨key, tail, heq, hmarked.imp_left fun hcovers => ?_⟩
        obtain ⟨found, hfound, hcovers⟩ := hcovers
        exact ⟨found, List.mem_cons_of_mem _ hfound, hcovers⟩
      · intro segment hsegment
        obtain ⟨other, hother, heq⟩ := hsegment
        exact ⟨other, List.mem_cons_of_mem _ hother, heq⟩

/-- In an execution every failed resolution is accounted for, if the keys are distinct. -/
theorem nested_sound (schema : Schema) (host : Host Session) (operationName : Option String) {set : SelectionSet}
    (hdistinct : Distinct set) : (nested schema host operationName set).Sound (set.covers ·) := by
  induction hdistinct with
  | @intro fields typename hkeys hbelow ih =>
    intro declared parent path session
    have hfields := executeFields_accounts hkeys ih (runtimeType schema declared parent) parent path session
    refine (hfields.remark ?_).widen fun _ _ => trivial
    intro segment _ _ hmarked
    obtain ⟨key, tail, heq, hmarked⟩ := hmarked
    rw [heq]
    beta_reduce
    rw [SelectionSet.covers_key]
    by_cases hover : typename ∧ key = "__typename"
    · exact .inl (.inl hover)
    · refine hmarked.imp .inr fun hnull => ?_
      change ((if typename then _ else _ : List (String × Json)).lookup key).bind (Json.at? tail) = some .null
      split
      · rename_i htypename
        rw [Table.lookup_insert, if_neg fun hkey => hover ⟨htypename, hkey⟩]
        exact hnull
      · exact hnull

end Execution

end RelationalGraphQL
