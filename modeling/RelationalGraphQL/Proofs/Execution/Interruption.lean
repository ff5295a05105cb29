import RelationalGraphQL.Execution.Stock
import RelationalGraphQL.Proofs.Execution.Timing
import RelationalGraphQL.Proofs.Execution.Trace

/-!
A deadline and a cancellation cut an execution at one point. The execution is compared with the same execution without
limits. As long as each field is resolved in time the two are in step: their sessions differ in the limits only, and
their visits are the same. At the first field that is not in time the execution with limits is over, and from there on
every field fails with the reason for which it ended.

A field whose resolution ends at the very instant of the deadline is in time, and the next field is not. Middleware that
wakes at that instant may still start what it wraps; nothing is started later (`DividesRun.inside`).
-/

namespace RelationalGraphQL.Execution

open Selection (asks)

variable {request : Request} {operation : PreparedOperation}

/-! ### Sessions in step -/

/-- Whether a request ends at an instant, at the latest. -/
def Limits.EndsAt (limits : Limits) (instant : Nat) : Prop := instant ∈ limits.deadline ∨ instant ∈ limits.cancelAt

/-- A field that is reached before a request ends and left before or just then. -/
def Visit.InTime (limits : Limits) (visit : Visit) : Prop :=
  ∀ instant, limits.EndsAt instant → visit.start < instant ∧ visit.finish ≤ instant

/-- A field that fails because the request ended. Its middleware and resolver do nothing after that. -/
structure Visit.Cut (limits : Limits) (visit : Visit) : Prop where
  resolution : visit.resolution = .error .cancelled ∨ visit.resolution = .error .timeout
  inside : visit.resolved → visit.InTime limits

/-- A session with limits, and one without limits that is as far. -/
structure InStep (limits : Limits) (session free : Session) : Prop where
  now : session.timeline.now = free.timeline.now
  idle : session.timeline.Idle
  free_idle : free.timeline.Idle
  limits : session.limits = limits
  free_limits : free.limits = {}
  cancelled : session.cancelled = false
  free_cancelled : free.cancelled = false

def Session.Over (session : Session) : Prop := session.interruption?.isSome

namespace InStep

variable {limits : Limits} {session free : Session}

theorem interruptionAt? (hstep : InStep limits session free) {time : Nat} :
    (session.interruptionAt? time).isSome ↔ ∃ instant, limits.EndsAt instant ∧ instant ≤ time := by
  rw [Session.interruptionAt?_isSome, hstep.cancelled, hstep.limits]
  simp only [Bool.false_eq_true, false_or, Limits.EndsAt, or_and_right, exists_or]
  exact or_comm

theorem free_interruptionAt? (hstep : InStep limits session free) (time : Nat) :
    free.interruptionAt? time = none := by
  rw [← Option.not_isSome_iff_eq_none, Session.interruptionAt?_isSome, hstep.free_cancelled, hstep.free_limits]
  simp

theorem lt_of_interruption?_eq_none (hstep : InStep limits session free) (hnow : session.interruption? = none)
    {instant : Nat} (hends : limits.EndsAt instant) : session.timeline.now < instant := by
  by_contra hpast
  have hsome := hstep.interruptionAt?.2 ⟨instant, hends, Nat.le_of_not_lt hpast⟩
  rw [show session.interruptionAt? session.timeline.now = none from hnow] at hsome
  cases hsome

end InStep

section

variable {executor : Executor} {extensions : List (String × Json)} {limits : Limits} {session free : Session}

/-- A resolver ends in step or is interrupted, before the request ends or just then. -/
theorem InStep.resolve_cases (htimed : executor.Timed) (hstep : InStep limits session free) (call : FieldCall) :
    let limited := (executor.host extensions).resolve call session
    let whole := (executor.host extensions).resolve call free
    (∀ instant, limits.EndsAt instant → session.timeline.now ≤ instant → limited.2.timeline.now ≤ instant) ∧
      ((limited.1 = whole.1 ∧ InStep limits limited.2 whole.2) ∨
        ∃ error, limited.1 = .error error ∧ limited.2.interruption? = some error ∧
          ∃ instant, limits.EndsAt instant ∧ instant < whole.2.timeline.now) := by
  obtain ⟨duration, resolution, htakes⟩ := htimed.fieldProgram extensions call
  have hnow := hstep.now
  have hfiresAt (instant : Nat) (hends : limits.EndsAt instant) : (session.interruptionAt? instant).isSome :=
    hstep.interruptionAt?.2 ⟨instant, hends, Nat.le_refl instant⟩
  obtain ⟨whole, hwhole, hwholeNow, hwholeQuiet⟩ := htakes.run_finished hstep.free_idle fun time _ _ =>
    hstep.free_interruptionAt? time
  rcases session.interrupted_or_quiet duration with ⟨time, hfrom, hbefore, hfires⟩ | hquiet
  · -- The whole run of the resolver ends later, since it is not cut short.
    obtain ⟨error, limited, hlimited, hover, hfirst⟩ := htakes.run_interrupted hstep.idle hfrom hbefore hfires
    obtain ⟨instant, hends, hinstant⟩ := hstep.interruptionAt?.1 hfires
    simp only [Executor.host, hlimited, hwhole]
    refine ⟨fun instant hends hfrom => hfirst instant hfrom (hfiresAt instant hends), .inr ?_⟩
    exact ⟨error, rfl, hover, instant, hends, by omega⟩
  · obtain ⟨limited, hlimited, hlimitedNow, hlimitedQuiet⟩ := htakes.run_finished hstep.idle hquiet
    simp only [Executor.host, hlimited, hwhole]
    refine ⟨fun instant hends hfrom => ?_, .inl ⟨trivial, by omega, hlimitedQuiet.idle, hwholeQuiet.idle,
      hlimitedQuiet.limits.trans hstep.limits, hwholeQuiet.limits.trans hstep.free_limits,
      hlimitedQuiet.cancelled.trans hstep.cancelled, hwholeQuiet.cancelled.trans hstep.free_cancelled⟩⟩
    by_contra hpast
    have hfires := hfiresAt instant hends
    rw [hquiet instant hfrom (by omega)] at hfires
    cases hfires

theorem Session.interruption_reason {error : ExecutionError} (hover : session.interruption? = some error) :
    (.error error : Resolution) = .error .cancelled ∨ (.error error : Resolution) = .error .timeout := by
  rcases Session.interruptionAt?_eq_some hover with rfl | rfl
  · exact .inl rfl
  · exact .inr rfl

theorem InStep.attempt_cases (htimed : executor.Timed) (hstep : InStep limits session free)
    (extensions : List (String × Json)) (operationName : Option String) (field : SelectedField) (parentType : String)
    (parent : Json) (path : Path) :
    let limited := attempt executor.schema (executor.host extensions) operationName field parentType parent path session
    let whole := attempt executor.schema (executor.host extensions) operationName field parentType parent path free
    (limited.resolution = whole.resolution ∧ limited.type = whole.type ∧ InStep limits limited.state whole.state ∧
        (limited.visit path session).InTime limits) ∨
      ((limited.visit path session).Cut limits ∧ ¬ (whole.visit path free).InTime limits ∧ limited.state.Over) := by
  intro limited whole
  have hnow := hstep.now
  have hfree : (executor.host extensions).interruption? free = none := hstep.free_interruptionAt? _
  cases hinterruption : (executor.host extensions).interruption? session with
  | some error =>
    have hlimited : limited = { resolution := .error error, state := session } :=
      attempt_of_interruption hinterruption ..
    right
    rw [hlimited]
    refine ⟨⟨Session.interruption_reason hinterruption, nofun⟩, fun hinTime => ?_,
      Option.isSome_of_eq_some hinterruption⟩
    obtain ⟨instant, hends, hpast⟩ := hstep.interruptionAt?.1 (Option.isSome_of_eq_some hinterruption)
    have hlater : free.timeline.now < instant := (hinTime instant hends).1
    omega
  | none =>
    have hearly (instant : Nat) (hends : limits.EndsAt instant) : session.timeline.now < instant :=
      hstep.lt_of_interruption?_eq_none hinterruption hends
    rcases Execution.attempt_cases executor.schema (executor.host extensions) operationName field parentType parent path
      with ⟨resolution, hattempt⟩ | ⟨call, type, hattempt⟩
    · left
      rw [show limited = _ from hattempt session hinterruption, show whole = _ from hattempt free hfree]
      exact ⟨rfl, rfl, hstep, fun instant hends => ⟨hearly instant hends, Nat.le_of_lt (hearly instant hends)⟩⟩
    · rw [show limited = _ from hattempt session hinterruption, show whole = _ from hattempt free hfree]
      obtain ⟨hfinish, hcases⟩ := hstep.resolve_cases htimed call
      have hinTime (type : Option TypeRef) : (Attempt.visit path session
          { resolution := ((executor.host extensions).resolve call session).1
            state := ((executor.host extensions).resolve call session).2, type }).InTime limits := fun instant hends =>
        ⟨hearly instant hends, hfinish instant hends (Nat.le_of_lt (hearly instant hends))⟩
      rcases hcases with ⟨hresolution, hnext⟩ | ⟨error, hresolution, hover, instant, hends, hpast⟩
      · exact .inl ⟨hresolution, rfl, hnext, hinTime _⟩
      · right
        refine ⟨⟨?_, fun _ => hinTime _⟩, fun hinTime => ?_, Option.isSome_of_eq_some hover⟩
        · rw [Attempt.visit, hresolution]
          exact Session.interruption_reason hover
        · have hfinish := (hinTime instant hends).2
          exact absurd hpast (Nat.not_lt.2 hfinish)

end

/-! ### The cut -/

/-- The visits with limits are those without up to a first one that is not in time, and are cut from there on. -/
def Severed (limits : Limits) (visits whole : List Visit) : Prop :=
  ∃ before first after rest restWhole, visits = before ++ first :: rest ∧ whole = before ++ after :: restWhole ∧
    (∀ visit ∈ before, visit.InTime limits) ∧ first.path = after.path ∧ first.start = after.start ∧
    ¬ after.InTime limits ∧ ∀ visit ∈ first :: rest, visit.Cut limits

namespace Severed

variable {limits : Limits} {visits whole : List Visit}

theorem append_right (hsevered : Severed limits visits whole) {others : List Visit}
    (hothers : ∀ visit ∈ others, visit.Cut limits) (otherWhole : List Visit) :
    Severed limits (visits ++ others) (whole ++ otherWhole) := by
  obtain ⟨before, first, after, rest, restWhole, rfl, rfl, hbefore, hpath, hstart, hlate, hcut⟩ := hsevered
  refine ⟨before, first, after, rest ++ others, restWhole ++ otherWhole, by simp, by simp, hbefore, hpath, hstart,
    hlate, ?_⟩
  intro visit hvisit
  rw [← List.cons_append, List.mem_append] at hvisit
  exact hvisit.elim (hcut visit) (hothers visit)

theorem append_left (hsevered : Severed limits visits whole) (others : List Visit)
    (hothers : ∀ visit ∈ others, visit.InTime limits) : Severed limits (others ++ visits) (others ++ whole) := by
  obtain ⟨before, first, after, rest, restWhole, rfl, rfl, hbefore, hcut⟩ := hsevered
  refine ⟨others ++ before, first, after, rest, restWhole, by simp, by simp, ?_, hcut⟩
  intro visit hvisit
  exact (List.mem_append.1 hvisit).elim (hothers visit) (hbefore visit)

end Severed

/-- A part that goes on in step from sessions in step, with its visits in time, unless it is severed. In a session whose
request has ended all its visits are cut. -/
structure Cuttable (limits : Limits) (part : Part) : Prop where
  inStep : ∀ {session free}, InStep limits session free →
    ((part session).1 = (part free).1 ∧ (∀ visit ∈ (part session).1, visit.InTime limits) ∧
        InStep limits (part session).2 (part free).2) ∨
      Severed limits (part session).1 (part free).1 ∧ (part session).2.Over
  ended : ∀ {session}, session.Over → (∀ visit ∈ (part session).1, visit.Cut limits) ∧ (part session).2.Over

theorem Cuttable.seq {limits : Limits} {first second : Part} (hfirst : Cuttable limits first)
    (hsecond : Cuttable limits second) : Cuttable limits (first.seq second) := by
  refine ⟨fun hstep => ?_, fun hover => ?_⟩
  · rcases hfirst.inStep hstep with ⟨hvisits, hinTime, hnext⟩ | ⟨hsevered, hover⟩
    · rcases hsecond.inStep hnext with ⟨hvisits', hinTime', hnext'⟩ | ⟨hsevered, hover⟩
      · refine .inl ⟨by rw [Part.seq, Part.seq, hvisits, hvisits'], fun visit hvisit => ?_, hnext'⟩
        exact (List.mem_append.1 hvisit).elim (hinTime visit) (hinTime' visit)
      · refine .inr ⟨?_, hover⟩
        rw [Part.seq, Part.seq, ← hvisits]
        exact hsevered.append_left _ hinTime
    · exact .inr ⟨hsevered.append_right (hsecond.ended hover).1 _, (hsecond.ended hover).2⟩
  · refine ⟨fun visit hvisit => ?_, (hsecond.ended (hfirst.ended hover).2).2⟩
    exact (List.mem_append.1 hvisit).elim ((hfirst.ended hover).1 visit) ((hsecond.ended (hfirst.ended hover).2).1 visit)

section

variable {executor : Executor} {extensions : List (String × Json)} {operationName : Option String} {limits : Limits}

theorem Cuttable.visit (htimed : executor.Timed) (field : SelectedField) (parentType : String) (parent : Json)
    (path : Path) (rest : Resolution → Option TypeRef → Part)
    (hrest : ∀ resolution type, Cuttable limits (rest resolution type))
    (hskip : ∀ error type, rest (.error error) type = .skip) :
    Cuttable limits (.visit
      (attempt executor.schema (executor.host extensions) operationName field parentType parent path) path rest) := by
  refine ⟨fun {session free} hstep => ?_, fun {session} hover => ?_⟩
  · have hcases := hstep.attempt_cases htimed extensions operationName field parentType parent path
    unfold Part.visit
    generalize attempt executor.schema _ _ field parentType parent path session = limited at hcases ⊢
    generalize attempt executor.schema _ _ field parentType parent path free = whole at hcases ⊢
    dsimp only at hcases ⊢
    rcases hcases with ⟨hresolution, htype, hnext, hinTime⟩ | ⟨hcut, hlate, hover⟩
    · have hvisit : limited.visit path session = whole.visit path free := by
        rw [Attempt.visit, Attempt.visit, hstep.now, hnext.now, hresolution, htype]
      rw [hvisit] at hinTime ⊢
      rw [hresolution, htype]
      rcases (hrest whole.resolution whole.type).inStep hnext with ⟨hvisits, hinTime', hnext'⟩ | ⟨hsevered, hover⟩
      · refine .inl ⟨congrArg (List.cons _) hvisits, ?_, hnext'⟩
        rw [List.forall_mem_cons]
        exact ⟨hinTime, hinTime'⟩
      · refine .inr ⟨hsevered.append_left [_] ?_, hover⟩
        rw [List.forall_mem_singleton]
        exact hinTime
    · -- A cut field has no value, so nothing below it is visited; without limits anything may be.
      obtain ⟨error, hresolution⟩ : ∃ error, limited.resolution = .error error :=
        hcut.resolution.elim (⟨_, ·⟩) (⟨_, ·⟩)
      rw [hresolution, hskip]
      refine .inr ⟨⟨[], _, _, [], _, rfl, rfl, nofun, rfl, hstep.now, hlate, ?_⟩, hover⟩
      rw [List.forall_mem_singleton]
      exact hcut
  · obtain ⟨error, herror⟩ := Option.isSome_iff_exists.1 hover
    rw [Part.visit, attempt_of_interruption herror, hskip]
    refine ⟨?_, hover⟩
    rw [Part.skip, List.forall_mem_singleton]
    exact ⟨Session.interruption_reason herror, nofun⟩

theorem cuttable_partwise (htimed : executor.Timed) :
    Partwise executor.schema (executor.host extensions) operationName (Cuttable limits) where
  skip := ⟨fun hstep => .inl ⟨rfl, nofun, hstep⟩, fun hover => ⟨nofun, hover⟩⟩
  seq := Cuttable.seq
  visit := Cuttable.visit htimed

end

/-! ### Operations -/

theorem prepare_distinct {schema : Schema} {document : Document.QueryDocument}
    (hprepare : prepare schema document request = .ok operation) : Selection.Distinct operation.selection := by
  simp only [prepare, Arguments.except_bind_eq_ok] at hprepare
  obtain ⟨chosen, -, hprepare⟩ := hprepare
  split at hprepare
  · cases hprepare
  · split at hprepare
    · cases hprepare
      exact (Selection.collect_merges ..).distinct
    · cases hprepare

/-- The fields that are executed for an operation. -/
def Executor.visits (executor : Executor) (request : Request) (operation : PreparedOperation) (session : Session) :
    List Visit :=
  setVisits executor.schema (executor.host request.extensions) operation.name operation.selection operation.rootType
    request.rootValue .root session

/-- A response tells that a field was cut: the field is null, and the error list has one entry for it, with the reason.
The null may be written over by the name of the type. -/
structure TellsCut (response : Response) (selection : SelectionSet) (path : Path) : Prop where
  null : selection.covers path ∨ response.data.bind (Json.at? path) = some .null
  entry : ∃ entry code, response.errors.filter (·.path = some path) = [entry] ∧
    entry.extensions = some [("code", .str code)] ∧ (code = "CANCELLED" ∨ code = "TIMEOUT")

/-- The visits of a run in a session, and those of the same run without limits, divided at one point. -/
structure DividesRun (executor : Executor) (request : Request) (operation : PreparedOperation) (session : Session)
    (before after afterWhole : List Visit) : Prop where
  visits : executor.visits request operation session = before ++ after
  /-- The visits are all that takes time in the run. -/
  follows : Follows session.timeline.now (before ++ after)
    (executor.executeOperation request operation session).2.timeline.now
  whole : executor.visits request operation { session with limits := {} } = before ++ afterWhole
  /-- Before that point all fields are in time. -/
  inTime : ∀ visit ∈ before, visit.InTime session.limits
  /-- Both runs go on with one field at one time, and that field is not in time. -/
  point : (after.head?.map fun visit => (visit.path, visit.start)) =
    afterWhole.head?.map fun visit => (visit.path, visit.start)
  late : ∀ visit ∈ afterWhole.head?, ¬ visit.InTime session.limits
  /-- From that point on all fields are lost. -/
  lost : ∀ visit ∈ after,
    TellsCut (executor.executeOperation request operation session).1 operation.selection visit.path
  /-- A field, cut or not, is given to its middleware and resolver only before the request ends, and whatever these
  start or do, they have stopped when it ends. -/
  inside : ∀ visit ∈ before ++ after, visit.resolved → visit.InTime session.limits

theorem tellsCut_of_cut {executor : Executor} {session : Session} (hdistinct : Selection.Distinct operation.selection)
    {visit : Visit} (hvisit : visit ∈ executor.visits request operation session) {limits : Limits}
    (hcut : visit.Cut limits) :
    TellsCut (executor.executeOperation request operation session).1 operation.selection visit.path := by
  have haccounts := nested_sound executor.schema (executor.host request.extensions) operation.name hdistinct
    operation.rootType request.rootValue .root session
  obtain ⟨segment, tail, -, hpath, hfailed⟩ := haccounts.failed visit hvisit
  change visit.path = segment :: tail at hpath
  rw [← hpath] at hfailed
  rcases hcut.resolution with hresolution | hresolution
  · obtain ⟨hnull, position, hentry⟩ := hfailed _ hresolution
    exact ⟨hnull, _, _, hentry, rfl, .inl rfl⟩
  · obtain ⟨hnull, position, hentry⟩ := hfailed _ hresolution
    exact ⟨hnull, _, _, hentry, rfl, .inr rfl⟩

/-! ### Slow books -/

theorem Middleware.trace_timed (label : String) : (Middleware.trace label).Timed := by
  intro _ next hnext call
  obtain ⟨duration, resolution, htakes⟩ := hnext call
  exact ⟨_, _, .log (htakes.bind (.log (.done resolution)))⟩

/-- Waits for a time, then gives a value. -/
def waiting (span : Nat) (value : Json) : Resolver := fun _ _ => .act (.wait span) fun _ => .done (.ok value)

def texts (names : List String) : List (String × Schema.Field) :=
  names.map fun name => (name, { name, type := .named "String" })

/-- A book and what is known of it, each found after a time. -/
def books : Executor where
  schema :=
    { queryType := some "Query"
      objects :=
        [("Query", { name := "Query"
                     fields := ("book", { name := "book", type := .named "Book" }) :: texts ["count"] }),
         ("Book", { name := "Book", fields := texts ["title", "shelf"] })] }
  resolvers :=
    [(("Query", "book"), waiting 4 (.obj [])), (("Book", "title"), waiting 6 (.str "Logic")),
     (("Book", "shelf"), waiting 5 (.str "B2")), (("Query", "count"), waiting 1 (.str "one"))]
  middleware := [.trace "field"]

theorem books_timed : books.Timed := by
  refine ⟨fun entry hentry extensions call => ?_, fun middleware hmiddleware => ?_⟩
  · simp only [books, List.mem_cons, List.not_mem_nil, or_false] at hentry
    rcases hentry with rfl | rfl | rfl | rfl <;> exact ⟨_, _, .wait (.done _)⟩
  · obtain rfl := List.mem_singleton.1 hmiddleware
    exact Middleware.trace_timed "field"

def query (selections : List Document.Selection) : Document.QueryDocument := [.operation { kind := .query, selections }]

/-- A query, ready to be executed on books. -/
def onBooks (selections : List Document.Selection) : PreparedOperation where
  name := none
  kind := .query
  rootType := "Query"
  selection := Selection.collect { schema := books.schema } "Query" selections

/-! ### Where the limits cut a run -/

/-- A deadline and a cancellation cut a run at one point. -/
theorem limits_divide_run {executor : Executor} (htimed : executor.Timed) {document : Document.QueryDocument}
    {request : Request} {operation : PreparedOperation}
    (hprepare : prepare executor.schema document request = .ok operation) {session : Session}
    (hidle : session.timeline.Idle) (hcancelled : session.cancelled = false) :
    ∃ before after afterWhole, DividesRun executor request operation session before after afterWhole := by
  have hdistinct := prepare_distinct hprepare
  have hstep : InStep session.limits session { session with limits := {} } :=
    ⟨rfl, hidle, hidle, rfl, rfl, hcancelled, hcancelled⟩
  have hcuttable : Cuttable session.limits fun session => (executor.visits request operation session,
      (executor.executeOperation request operation session).2) :=
    (cuttable_partwise htimed).executeSelections operation.selection operation.rootType request.rootValue .root
  have hfollows : Follows session.timeline.now (executor.visits request operation session)
      (executor.executeOperation request operation session).2.timeline.now :=
    follows_partwise.executeSelections operation.selection operation.rootType request.rootValue .root session
  rcases hcuttable.inStep hstep with ⟨hvisits, hinTime, -⟩ | ⟨hsevered, -⟩
  · dsimp only at hvisits hinTime
    have happend := List.append_nil (executor.visits request operation session)
    refine ⟨_, [], [], happend.symm, happend.symm ▸ hfollows, ?_, hinTime, rfl, nofun, nofun, ?_⟩
    · rw [happend, hvisits]
    · rw [happend]
      exact fun visit hvisit _ => hinTime visit hvisit
  · obtain ⟨before, first, after, rest, restWhole, hvisits, hwhole, hinTime, hpath, hstart, hlate, hcut⟩ := hsevered
    dsimp only at hvisits hwhole
    refine ⟨before, first :: rest, after :: restWhole, hvisits, hvisits ▸ hfollows, hwhole, hinTime, ?_, ?_, ?_, ?_⟩
    · simp [hpath, hstart]
    · intro visit hvisit
      cases hvisit
      exact hlate
    · intro visit hvisit
      exact tellsCut_of_cut hdistinct (hvisits ▸ List.mem_append_right before hvisit) (hcut visit hvisit)
    · intro visit hvisit hresolved
      rcases List.mem_append.1 hvisit with hvisit | hvisit
      · exact hinTime visit hvisit
      · exact (hcut visit hvisit).inside hresolved

/-- The title is found at the very instant of the deadline, and nothing after it. -/
theorem limits_divide_run_at_deadline :
    let selections := [asks "book" [asks "title" [], asks "shelf" []], asks "count" []]
    let session : Session := { limits := { deadline := some 10 } }
    books.Timed ∧ prepare books.schema (query selections) { query := "" } = .ok (onBooks selections) ∧
      (books.executeOperation { query := "" } (onBooks selections) session).1.data =
        some (.obj [("book", .obj [("title", .str "Logic"), ("shelf", .null)]), ("count", .null)]) ∧
      ∃ before after afterWhole,
        DividesRun books { query := "" } (onBooks selections) session before after afterWhole := by
  intro selections session
  have hprepare : prepare books.schema (query selections) { query := "" } = .ok (onBooks selections) := rfl
  exact ⟨books_timed, hprepare, by decide +kernel, limits_divide_run books_timed hprepare ⟨rfl, rfl⟩ rfl⟩

/-- Waits before it goes on. -/
def Middleware.delay (span : Nat) : Middleware := fun _ call next => .act (.wait span) fun _ => next call

/-- Counts books at once, but only after ten instants. -/
def lateBooks : Executor :=
  { books with
    resolvers := [(("Query", "count"), fun _ _ => .act (.log (.str "counted")) fun _ => .done (.ok (.str "one")))]
    middleware := [.delay 10] }

theorem lateBooks_timed : lateBooks.Timed := by
  refine ⟨fun entry hentry extensions call => ?_, fun middleware hmiddleware => ?_⟩
  · obtain rfl := List.mem_singleton.1 hentry
    exact ⟨_, _, .log (.done _)⟩
  · obtain rfl := List.mem_singleton.1 hmiddleware
    intro _ next hnext call
    obtain ⟨duration, resolution, htakes⟩ := hnext call
    exact ⟨_, _, .wait htakes⟩

/-- A field with the key of the type's name is cut, and the name is written over it. Middleware that wakes at the
deadline starts the resolver then. -/
theorem typename_after_cut_and_start_at_deadline :
    (let selections := [asks "book" [asks "title" []], asks "count" [] (some "__typename"), asks "__typename" []]
      let session : Session := { limits := { deadline := some 2 } }
      books.Timed ∧ prepare books.schema (query selections) { query := "" } = .ok (onBooks selections) ∧
        ∃ visit ∈ books.visits { query := "" } (onBooks selections) session, visit.resolution = .error .timeout ∧
          (books.executeOperation { query := "" } (onBooks selections) session).1.data.bind (Json.at? visit.path) =
            some (.str "Query")) ∧
      (let selections := [asks "count" []]
        let session : Session := { limits := { deadline := some 10 } }
        let woken := (session.perform (.wait 10)).2
        let outcome := lateBooks.executeOperation { query := "" } (onBooks selections) session
        lateBooks.Timed ∧ prepare lateBooks.schema (query selections) { query := "" } = .ok (onBooks selections) ∧
          lateBooks.middleware = [.delay 10] ∧ woken.timeline.now = 10 ∧ woken.log = [] ∧
          outcome.2.log = [.str "counted"] ∧ outcome.1.data = some (.obj [("count", .str "one")])) := by
  constructor
  · intro selections session
    let visit : Visit :=
      { path := [.key "__typename"], start := 2, finish := 2, resolved := false, resolution := .error .timeout }
    have hvisit : visit ∈ books.visits { query := "" } (onBooks selections) session :=
      List.mem_of_getElem? (i := 1) rfl
    exact ⟨books_timed, rfl, visit, hvisit, rfl, by decide⟩
  · exact ⟨lateBooks_timed, rfl, rfl, by decide, by decide, by decide, by decide⟩

end RelationalGraphQL.Execution
