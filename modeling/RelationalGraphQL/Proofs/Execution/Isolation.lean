import RelationalGraphQL.Proofs.Execution.ErrorPath

/-!
# Failures stay where they are

Two executors that resolve fields alike, except at a path and below it, give responses that differ at that path and
below it only (`failures_isolated`). Away from the path the executions run in parallel. At the path they part, but what
either says of the field there is masked in the data, and its errors are left out of the list.

Executors are compared in requests without a deadline and without cancellation. What is asked of them is that the
outcome of a field depends on nothing but the call, which holds if their programs have fixed durations
(`Executor.Timed.answers`).
-/

namespace RelationalGraphQL

/-! ### Hiding a part of a response -/

namespace Json

mutual

/-- The value at a path, with a null for all that is at or below a hidden path. -/
def mask (hidden path : Path) (value : Json) : Json :=
  if hidden <+: path then .null
  else
    match value with
    | .arr items => .arr (maskItems hidden path 0 items)
    | .obj entries => .obj (maskEntries hidden path entries)
    | value => value

def maskItems (hidden path : Path) (place : Nat) : List Json → List Json
  | [] => []
  | item :: items => item.mask hidden (path.withIndex place) :: maskItems hidden path (place + 1) items

def maskEntries (hidden path : Path) : List (String × Json) → List (String × Json)
  | [] => []
  | (key, value) :: rest => (key, value.mask hidden (path.withKey key)) :: maskEntries hidden path rest

end

theorem mask_of_isPrefix {hidden path : Path} (hhidden : hidden <+: path) (value : Json) :
    value.mask hidden path = .null := by
  unfold mask
  exact if_pos hhidden

theorem maskEntries_insert (hidden path : Path) (key : String) (value : Json) (entries : List (String × Json)) :
    maskEntries hidden path (Table.insert key value entries) =
      Table.insert key (value.mask hidden (path.withKey key)) (maskEntries hidden path entries) := by
  induction entries with
  | nil => rfl
  | cons entry rest ih =>
    obtain ⟨first, other⟩ := entry
    rw [Table.insert, maskEntries, Table.insert]
    split
    · rw [maskEntries]
    · rw [maskEntries, ih]

end Json

/-- Whether an error is at or below a path. -/
def ResponseError.isUnder (hidden : Path) (error : ResponseError) : Bool := error.path.any fun path => hidden <+: path

namespace Execution

variable {hidden path : Path}

/-- What two executions say of a place is the same but for what is hidden. -/
structure Alike (hidden path : Path) (report report' : Report) : Prop where
  value : report.value.mask hidden path = report'.value.mask hidden path
  errors : report.errors.filter (fun error => !error.isUnder hidden) =
    report'.errors.filter fun error => !error.isUnder hidden

theorem filter_flatMap_congr {α : Type} {left right : α → List ResponseError} {elements : List α}
    (halike : ∀ element ∈ elements, (left element).filter (fun error => !error.isUnder hidden) =
      (right element).filter fun error => !error.isUnder hidden) :
    (elements.flatMap left).filter (fun error => !error.isUnder hidden) =
      (elements.flatMap right).filter fun error => !error.isUnder hidden := by
  rw [List.filter_flatMap, List.filter_flatMap]
  exact List.flatMap_congr halike

theorem maskItems_congr {place : Nat} {pairs : List (Report × Report)}
    (hpairs : ∀ index pair, pairs[index]? = some pair →
      Alike hidden (path.withIndex (place + index)) pair.1 pair.2) :
    Json.maskItems hidden path place ((pairs.map Prod.fst).map Report.value) =
      Json.maskItems hidden path place ((pairs.map Prod.snd).map Report.value) := by
  induction pairs generalizing place with
  | nil => rfl
  | cons pair rest ih =>
    have hrest := @ih (place + 1) fun index other hother => by
      have halike := hpairs (index + 1) other hother
      rwa [Nat.add_comm index, ← Nat.add_assoc] at halike
    have hfirst := (hpairs 0 pair rfl).value
    rw [Nat.add_zero] at hfirst
    simp only [List.map_cons, Json.maskItems, hrest, hfirst]

theorem maskEntries_congr {pairs : List (String × Report × Report)}
    (hpairs : ∀ key pair, (key, pair) ∈ pairs → Alike hidden (path.withKey key) pair.1 pair.2) :
    Json.maskEntries hidden path (pairs.map fun entry => (entry.1, entry.2.1.value)) =
      Json.maskEntries hidden path (pairs.map fun entry => (entry.1, entry.2.2.value)) := by
  induction pairs with
  | nil => rfl
  | cons entry rest ih =>
    have hrest := ih fun key pair hpair => hpairs key pair (List.mem_cons_of_mem _ hpair)
    have hfirst := (hpairs entry.1 entry.2 List.mem_cons_self).value
    simp only [List.map_cons, Json.maskEntries, hrest, hfirst]

theorem alike_congruence (hidden : Path) : Congruence (fun _ => True) (Alike hidden) where
  sublist _ _ := trivial
  value path value := ⟨rfl, rfl⟩
  failure path error position := ⟨rfl, rfl⟩
  items path pairs hpairs := by
    refine ⟨?_, ?_⟩
    · have hitems := @maskItems_congr hidden path 0 pairs fun index pair hpair => by
        rw [Nat.zero_add]
        exact hpairs index pair hpair
      simp only [Report.items, Json.mask, hitems]
    · simp only [Report.items, List.flatMap_map]
      apply filter_flatMap_congr
      intro pair hpair
      obtain ⟨place, hplace⟩ := List.getElem?_of_mem hpair
      exact (hpairs place pair hplace).errors
  entries path typename type pairs _ hpairs := by
    refine ⟨?_, ?_⟩
    · have hentries := maskEntries_congr hpairs
      simp only [Report.entries, List.map_map, Json.mask]
      split
      · rfl
      · cases typename with
        | false => exact congrArg Json.obj hentries
        | true =>
          simp only [if_true, Json.maskEntries_insert]
          exact congrArg (fun entries => Json.obj (Table.insert _ _ entries)) hentries
    · simp only [Report.entries, List.flatMap_map]
      apply filter_flatMap_congr
      intro entry hentry
      exact (hpairs entry.1 entry.2 hentry).errors

/-- Errors are reported at or below the place that a report is about. -/
theorem located_hereditary : Hereditary (fun _ => True) fun path report =>
    ∀ error ∈ report.errors, ∃ tail, error.path = some (path ++ tail) where
  sublist _ _ := trivial
  value path value := nofun
  failure path error position := by
    intro other hother
    rw [List.mem_singleton.1 hother]
    exact ⟨[], congrArg some (List.append_nil path).symm⟩
  items path reports hreports := by
    intro error herror
    obtain ⟨report, hreport, herror⟩ := List.mem_flatMap.1 herror
    obtain ⟨place, hplace⟩ := List.getElem?_of_mem hreport
    obtain ⟨tail, hpath⟩ := hreports place report hplace error herror
    exact ⟨.index place :: tail, by rw [hpath, Path.withIndex, List.append_assoc, List.singleton_append]⟩
  entries path typename type reports _ hreports := by
    intro error herror
    obtain ⟨⟨key, report⟩, hreport, herror⟩ := List.mem_flatMap.1 herror
    obtain ⟨tail, hpath⟩ := hreports key report hreport error herror
    exact ⟨.key key :: tail, by rw [hpath, Path.withKey, List.append_assoc, List.singleton_append]⟩

/-- At a hidden place nothing is left to tell two executions apart. -/
theorem alike_of_isPrefix (hhidden : hidden <+: path) {report report' : Report}
    (hlocated : ∀ error ∈ report.errors, ∃ tail, error.path = some (path ++ tail))
    (hlocated' : ∀ error ∈ report'.errors, ∃ tail, error.path = some (path ++ tail)) :
    Alike hidden path report report' := by
  have hnone {errors : List ResponseError} (hlocated : ∀ error ∈ errors, ∃ tail, error.path = some (path ++ tail)) :
      errors.filter (fun error => !error.isUnder hidden) = [] := by
    rw [List.filter_eq_nil_iff]
    intro error herror
    obtain ⟨tail, hpath⟩ := hlocated error herror
    have hunder : hidden <+: path ++ tail := hhidden.trans (List.prefix_append path tail)
    simp [ResponseError.isUnder, hpath, hunder]
  refine ⟨?_, ?_⟩
  · rw [Json.mask_of_isPrefix hhidden, Json.mask_of_isPrefix hhidden]
  · rw [hnone hlocated, hnone hlocated']

/-! ### Resolving without limits -/

/-- A session that nothing ends and that waits for nothing. -/
structure Session.Free (session : Session) : Prop where
  deadline : session.limits.deadline = none
  cancelAt : session.limits.cancelAt = none
  cancelled : session.cancelled = false
  idle : session.timeline.Idle

theorem Session.Free.interruptionAt? {session : Session} (hfree : session.Free) (time : Nat) :
    session.interruptionAt? time = none := by
  rw [← Option.not_isSome_iff_eq_none, Session.interruptionAt?_isSome, hfree.deadline, hfree.cancelAt, hfree.cancelled]
  simp

/-- In a request without limits, what a field is resolved to is a function of the call. -/
def Executor.Answers (executor : Executor) (extensions : List (String × Json)) (answer : FieldCall → Resolution) :
    Prop :=
  ∀ call session, session.Free →
    ∃ later, (executor.host extensions).resolve call session = (answer call, later) ∧ later.Free

def Executor.answer (executor : Executor) (extensions : List (String × Json)) (call : FieldCall) : Resolution :=
  ((executor.host extensions).resolve call {}).1

theorem Executor.Timed.answers {executor : Executor} (htimed : executor.Timed) (extensions : List (String × Json)) :
    executor.Answers extensions (executor.answer extensions) := by
  intro call session hfree
  obtain ⟨duration, result, htakes⟩ := htimed.fieldProgram extensions call
  have hrun {session : Session} (hfree : session.Free) :
      ∃ later, (executor.host extensions).resolve call session = (result, later) ∧ later.Free := by
    obtain ⟨later, hrun, -, hquiet⟩ := htakes.run_finished hfree.idle fun time _ _ => hfree.interruptionAt? time
    refine ⟨later, by simp only [Executor.host, hrun], ?_, ?_, ?_, hquiet.idle⟩
    · rw [hquiet.limits, hfree.deadline]
    · rw [hquiet.limits, hfree.cancelAt]
    · rw [hquiet.cancelled, hfree.cancelled]
  obtain ⟨_, hstart, -⟩ := hrun (⟨rfl, rfl, rfl, rfl, rfl⟩ : Session.Free {})
  have hanswer : executor.answer extensions call = result := congrArg Prod.fst hstart
  rw [hanswer]
  exact hrun hfree

section

variable {left right : Executor} {extensions : List (String × Json)} {answer answer' : FieldCall → Resolution}
  {session session' : Session}

/-- Two executors resolve a field alike if they answer alike at its path. -/
theorem attempts_alike (hleft : left.Answers extensions answer) (hright : right.Answers extensions answer')
    {path : Path} (hagree : ∀ call, call.path = path → answer call = answer' call) (hfree : session.Free)
    (hfree' : session'.Free) (schema : Schema) (operationName : Option String) (field : SelectedField)
    (parentType : String) (parent : Json) :
    let first := attempt schema (left.host extensions) operationName field parentType parent path session
    let second := attempt schema (right.host extensions) operationName field parentType parent path session'
    first.resolution = second.resolution ∧ first.type = second.type ∧ first.state.Free ∧ second.state.Free := by
  have hnone : (left.host extensions).interruption? session = none := hfree.interruptionAt? _
  have hnone' : (right.host extensions).interruption? session' = none := hfree'.interruptionAt? _
  unfold attempt
  rw [hnone, hnone']
  dsimp only
  split
  · exact ⟨rfl, rfl, hfree, hfree'⟩
  · split
    · exact ⟨rfl, rfl, hfree, hfree'⟩
    · cases schema.field? parentType field.name with
      | none => exact ⟨rfl, rfl, hfree, hfree'⟩
      | some definition =>
        let call : FieldCall := { field, parentType, returnType := definition.type, path, operationName, parent }
        obtain ⟨later, hresolve, hlater⟩ := hleft call session hfree
        obtain ⟨later', hresolve', hlater'⟩ := hright call session' hfree'
        dsimp only
        rw [hresolve, hresolve']
        exact ⟨hagree call rfl, rfl, hlater, hlater'⟩

/-- An executor says of a field what is at or below its path, and leaves the request without limits. -/
theorem executeOne_located (hleft : left.Answers extensions answer) (schema : Schema) (operationName : Option String)
    (field : SelectedField) (parentType : String) (parent : Json) (path : Path) (hfree : session.Free) :
    let outcome := executeOne schema (left.host extensions) operationName field parentType parent path session
    (∀ error ∈ (Report.ofOutcome path field.position outcome).errors, ∃ tail, error.path = some (path ++ tail)) ∧
      outcome.state.Free := by
  have hkeeps (field : SelectedField) (parentType : String) (parent : Json) (path : Path) (session : Session)
      (hfree : session.Free) :
      (attempt schema (left.host extensions) operationName field parentType parent path session).state.Free :=
    (attempts_alike hleft hleft (fun _ _ => rfl) hfree hfree schema operationName field parentType parent).2.2.1
  exact located_hereditary.executeOne hkeeps (fun set _ => Selection.levels_of_forall (fun _ => trivial) set)
    parentType parent path hfree

theorem alike_parallel (hleft : left.Answers extensions answer) (hright : right.Answers extensions answer')
    {hidden : Path} (hagree : ∀ call, ¬ hidden <+: call.path → answer call = answer' call) (schema : Schema)
    (operationName : Option String) :
    Parallel schema (left.host extensions) (right.host extensions) operationName (fun _ => True) (Alike hidden)
      (fun session session' => session.Free ∧ session'.Free) where
  toCongruence := alike_congruence hidden
  field := by
    intro field parentType parent path session session' hfree
    by_cases hhidden : hidden <+: path
    · right
      obtain ⟨hlocated, hlater⟩ := executeOne_located hleft schema operationName field parentType parent path hfree.1
      obtain ⟨hlocated', hlater'⟩ := executeOne_located hright schema operationName field parentType parent path hfree.2
      exact ⟨alike_of_isPrefix hhidden hlocated hlocated', hlater, hlater'⟩
    · left
      exact attempts_alike hleft hright (fun call hpath => hagree call (hpath ▸ hhidden)) hfree.1 hfree.2 schema
        operationName field parentType parent

end

/-! ### Isolation -/

/-- Resolvers that differ at a path and below it only make responses that differ there only: the data is the same where
it is not masked, and so are the other errors and their order. -/
theorem failures_isolated {left right : Executor} (hschema : left.schema = right.schema) {request : Request}
    {answer answer' : FieldCall → Resolution} (hleft : left.Answers request.extensions answer)
    (hright : right.Answers request.extensions answer') {hidden : Path}
    (hagree : ∀ call, ¬ hidden <+: call.path → answer call = answer' call) (operation : PreparedOperation)
    {session session' : Session} (hfree : session.Free) (hfree' : session'.Free) :
    let response := (left.executeOperation request operation session).1
    let response' := (right.executeOperation request operation session').1
    response.data.map (Json.mask hidden .root) = response'.data.map (Json.mask hidden .root) ∧
      response.errors.filter (fun error => !error.isUnder hidden) =
        response'.errors.filter fun error => !error.isUnder hidden := by
  have hparallel := alike_parallel hleft hright hagree left.schema operation.name
  obtain ⟨⟨hvalue, herrors⟩, -⟩ := hparallel.executeSelections
    (Selection.levels_of_forall (fun _ => trivial) operation.selection) operation.rootType request.rootValue .root
    session session' ⟨hfree, hfree'⟩
  simp only [Executor.executeOperation, ← hschema]
  exact ⟨congrArg some hvalue, herrors⟩

theorem shelf_timed (missing : Path → Bool) : (shelf missing).Timed := by
  refine ⟨fun entry hentry extensions call => ?_, nofun⟩
  simp only [shelf, List.mem_cons, List.not_mem_nil, or_false] at hentry
  rcases hentry with rfl | rfl | rfl
  · exact ⟨_, _, .done _⟩
  · exact ⟨_, _, .done _⟩
  · exact ⟨_, _, .wait (.done _)⟩

theorem shelf_answer {missing : Path → Bool} {call : FieldCall} (hfound : missing call.path = false)
    (extensions : List (String × Json)) :
    (shelf missing).answer extensions call = (shelf fun _ => false).answer extensions call := by
  have hprogram : (shelf missing).fieldProgram extensions call =
      (shelf fun _ => false).fieldProgram extensions call := by
    simp only [Executor.fieldProgram, shelf, List.foldr_nil, List.lookup_cons, List.lookup_nil]
    cases (call.parentType, call.field.name) == ("Query", "books") with
    | true => rfl
    | false =>
      cases (call.parentType, call.field.name) == ("Book", "title") with
      | true => simp only [hfound]
      | false => rfl
  simp only [Executor.answer, Executor.host, hprogram]

/-- One title of two is missing, which changes nothing but that title. -/
theorem failures_isolated_shelf :
    let title : Path := [.key "books", .index 0, .key "title"]
    let response := ((shelf fun path => path = title).executeOperation { query := "" } onShelf {}).1
    let response' := ((shelf fun _ => false).executeOperation { query := "" } onShelf {}).1
    response.errors.map ResponseError.path = [some title] ∧ response'.errors.map ResponseError.path = [] ∧
      response.data.map (Json.mask title .root) = response'.data.map (Json.mask title .root) ∧
      response.errors.filter (fun error => !error.isUnder title) =
        response'.errors.filter fun error => !error.isUnder title := by
  intro title response response'
  have hschema : (shelf fun path => path = title).schema = (shelf fun _ => false).schema := rfl
  have hagree : ∀ call, ¬ title <+: call.path →
      (shelf fun path => path = title).answer [] call = (shelf fun _ => false).answer [] call := by
    intro call hhidden
    have hne : call.path ≠ title := fun heq => hhidden (heq ▸ List.prefix_refl title)
    exact shelf_answer (decide_eq_false hne) []
  have hfree : Session.Free {} := ⟨rfl, rfl, rfl, rfl, rfl⟩
  have hisolated := failures_isolated hschema ((shelf_timed _).answers ({ query := "" } : Request).extensions)
    ((shelf_timed _).answers _) hagree onShelf hfree hfree
  exact ⟨by decide +kernel, by decide +kernel, hisolated⟩

end Execution

end RelationalGraphQL
