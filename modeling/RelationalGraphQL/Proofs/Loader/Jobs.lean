import Mathlib.Algebra.GroupWithZero.Nat
import RelationalGraphQL.Loader.Timeline
import RelationalGraphQL.Proofs.Loader.Renaming

/-!
# What a job does

A job belongs to one loader. Whatever kind it is, running it changes the state of that loader, adds answers and leaves
at most one job of the same loader for later: its effect (`run_eq`). The effect is computed from the loader's state and
definition alone, so it is the same, but for names, wherever the loader stands and whatever its tickets are called
(`Effect.ofJob_raise`). From this follows what every timeline keeps (`Sound`).
-/

namespace RelationalGraphQL.Loader

/-- A batch function that answers the same keys in the same way whenever it is called. -/
def Definition.Steady (definition : Definition) : Prop :=
  ∀ count other keys, definition.batch count keys = definition.batch other keys

def State.keysOf (batch : Nat) (state : State String Json) : List String :=
  ((state.dispatched.find? (·.id = batch)).map Batch.keys).getD []

theorem State.load_cached {state after : State String Json} {maxBatch ticket : Nat} {key : String} {value : Json}
    (hload : state.load maxBatch key ticket = (.cached value, after)) : after = state := by
  rw [load] at hload
  split at hload
  · exact (Prod.mk.inj hload).2.symm
  · split at hload
    · cases hload
    · dsimp only at hload
      split at hload
      · cases hload
      · split at hload <;> cases hload

theorem State.keysOf_rename (f : Nat → Nat) (batch : Nat) (state : State String Json) :
    (state.rename f).keysOf batch = state.keysOf batch := by
  rw [keysOf, keysOf, find?_dispatched_rename, Option.map_map]
  rfl

namespace Job

def loader : Job → Nat
  | .timer loader _ | .fire loader _ | .start loader _ | .finish loader _ _ => loader

/-- The same job of the loader so many places further. -/
def raise (places : Nat) : Job → Job
  | .timer loader batch => .timer (loader + places) batch
  | .fire loader batch => .fire (loader + places) batch
  | .start loader batch => .start (loader + places) batch
  | .finish loader batch results => .finish (loader + places) batch results

/-- Bounds the turns that a job takes until nothing is left of it: running, and lying by before it runs. -/
def weight : Job → Nat
  | .timer _ _ => 5
  | .fire _ _ | .start _ _ => 3
  | .finish _ _ _ => 1

theorem loader_raise (places : Nat) (job : Job) : (job.raise places).loader = job.loader + places := by
  cases job <;> rfl

end Job

def Demand.jobs (loader : Nat) : Demand → List Job
  | .nothing => []
  | .timer batch => [.timer loader batch]
  | .dispatch batch => [.start loader batch]

theorem Demand.jobs_raise (loader places : Nat) (demand : Demand) :
    demand.jobs (loader + places) = (demand.jobs loader).map (Job.raise places) := by
  cases demand <;> rfl

theorem Demand.loader_of_mem_jobs {loader : Nat} {demand : Demand} {job : Job} (hjob : job ∈ demand.jobs loader) :
    job.loader = loader := by
  cases demand with
  | nothing => cases hjob
  | timer batch => exact congrArg Job.loader (List.mem_singleton.1 hjob)
  | dispatch batch => exact congrArg Job.loader (List.mem_singleton.1 hjob)

theorem Demand.weight_jobs_le (loader : Nat) (demand : Demand) : ((demand.jobs loader).map Job.weight).sum ≤ 5 := by
  cases demand <;> simp [jobs, Job.weight]

/-- What running a job comes to. -/
structure Effect where
  state : State String Json
  answers : List (Nat × Except LoadError Json) := []
  /-- A job that is left, with the time until it is due. -/
  later : Option (Nat × Job) := none

namespace Effect

def conclude (batch : Nat) (results : Option (List (Except LoadError Json))) (state : State String Json) : Effect :=
  { state := (state.conclude batch results).2, answers := (state.conclude batch results).1 }

def start (definition : Option Definition) (count loader batch : Nat) (state : State String Json) : Effect :=
  match definition with
  | none => { state }
  | some definition =>
    let reply := definition.batch count (state.keysOf batch)
    if reply.duration = 0 then conclude batch reply.results state
    else { state, later := some (reply.duration, .finish loader batch reply.results) }

def fire (definition : Option Definition) (count loader batch : Nat) (state : State String Json) : Effect :=
  match (state.fire batch).1 with
  | some dispatched => start definition count loader dispatched (state.fire batch).2
  | none => { state := (state.fire batch).2 }

/-- The effect of a job on a loader, given how often its batch function was called. -/
def ofJob (definition : Option Definition) (count : Nat) (state : State String Json) : Job → Effect
  | .timer loader batch =>
    let delay := (definition.map Definition.delay).getD 0
    if delay = 0 then fire definition count loader batch state
    else { state, later := some (delay, .fire loader batch) }
  | .fire loader batch => fire definition count loader batch state
  | .start loader batch => start definition count loader batch state
  | .finish _ batch results => conclude batch results state

/-- The effect on a loader that stands elsewhere and has other tickets. -/
def raise (f : Nat → Nat) (places : Nat) (effect : Effect) : Effect where
  state := effect.state.rename f
  answers := renameAnswers f effect.answers
  later := effect.later.map (Prod.map id (Job.raise places))

section

variable (f : Nat → Nat) (places : Nat) (definition : Option Definition) (count : Nat) (state : State String Json)

theorem conclude_raise (batch : Nat) (results : Option (List (Except LoadError Json))) :
    conclude batch results (state.rename f) = (conclude batch results state).raise f places := by
  rw [conclude, State.conclude_rename]
  rfl

theorem start_raise (loader batch : Nat) :
    start definition count (loader + places) batch (state.rename f) =
      (start definition count loader batch state).raise f places := by
  cases definition with
  | none => rfl
  | some definition =>
    dsimp only [start]
    rw [State.keysOf_rename, conclude_raise f places]
    split <;> rfl

theorem fire_raise (loader batch : Nat) :
    fire definition count (loader + places) batch (state.rename f) =
      (fire definition count loader batch state).raise f places := by
  rw [fire, fire, State.fire_rename]
  dsimp only
  cases (state.fire batch).1 with
  | some dispatched => exact start_raise f places definition count _ loader dispatched
  | none => rfl

theorem ofJob_raise (job : Job) :
    ofJob definition count (state.rename f) (job.raise places) =
      (ofJob definition count state job).raise f places := by
  cases job with
  | timer loader batch =>
    dsimp only [ofJob, Job.raise]
    rw [fire_raise]
    split <;> rfl
  | fire loader batch => exact fire_raise f places definition count state loader batch
  | start loader batch => exact start_raise f places definition count state loader batch
  | finish loader batch results => exact conclude_raise f places state batch results

variable {definition}

/-- A job has the same effect however often the batch function was called before. -/
theorem ofJob_steady (hsteady : ∀ known ∈ definition, known.Steady) (other : Nat) (job : Job) :
    ofJob definition count state job = ofJob definition other state job := by
  have hstart : start definition count = start definition other := by
    funext loader batch state
    cases definition with
    | none => rfl
    | some known => rw [start, start, hsteady known rfl count other]
  have hfire : fire definition count = fire definition other := by
    funext loader batch state
    rw [fire, fire, hstart]
  cases job with
  | timer loader batch => rw [ofJob, ofJob, hfire]
  | fire loader batch => exact congrFun₃ hfire loader batch state
  | start loader batch => exact congrFun₃ hstart loader batch state
  | finish loader batch results => rfl

end

section

variable {definition : Option Definition} {count loader batch duration : Nat} {state : State String Json} {next : Job}

theorem start_later (hlater : (start definition count loader batch state).later = some (duration, next)) :
    0 < duration ∧ ∃ results, next = .finish loader batch results := by
  cases definition with
  | none => cases hlater
  | some known =>
    dsimp only [start] at hlater
    split at hlater
    · cases hlater
    · cases hlater
      exact ⟨by omega, _, rfl⟩

theorem fire_later (hlater : (fire definition count loader batch state).later = some (duration, next)) :
    0 < duration ∧ ∃ dispatched results, next = .finish loader dispatched results := by
  rw [fire] at hlater
  split at hlater
  · exact ⟨(start_later hlater).1, _, (start_later hlater).2⟩
  · cases hlater

/-- What a job leaves for later is not due at once, is of the same loader, and is lighter by two turns. -/
theorem ofJob_later {job : Job} (hlater : (ofJob definition count state job).later = some (duration, next)) :
    0 < duration ∧ next.loader = job.loader ∧ next.weight + 2 ≤ job.weight := by
  cases job with
  | timer loader batch =>
    dsimp only [ofJob] at hlater
    split at hlater
    · obtain ⟨hduration, dispatched, results, rfl⟩ := fire_later hlater
      exact ⟨hduration, rfl, show 1 + 2 ≤ 5 by omega⟩
    · cases hlater
      exact ⟨by omega, rfl, Nat.le_refl 5⟩
  | fire loader batch =>
    obtain ⟨hduration, dispatched, results, rfl⟩ := fire_later hlater
    exact ⟨hduration, rfl, Nat.le_refl 3⟩
  | start loader batch =>
    obtain ⟨hduration, results, rfl⟩ := start_later hlater
    exact ⟨hduration, rfl, Nat.le_refl 3⟩
  | finish loader batch results => cases hlater

end

/-- A job answers only tickets that its loader had, and adds none. -/
theorem ofJob_ticketsBelow {bound : Nat} {state : State String Json} (hbelow : state.TicketsBelow bound)
    (definition : Option Definition) (count : Nat) (job : Job) :
    let effect := ofJob definition count state job
    effect.state.TicketsBelow bound ∧ ∀ answer ∈ effect.answers, answer.1 < bound := by
  have hraise (f : Nat → Nat) (hf : ∀ ticket < bound, f ticket = ticket) := by
    have hraise := ofJob_raise f 0 definition count state job
    rw [hbelow f hf, show job.raise 0 = job by cases job <;> rfl] at hraise
    exact hraise
  refine ⟨fun f hf => ?_, lt_of_mem_answers fun f hf => ?_⟩
  · exact (congrArg Effect.state (hraise f hf)).symm
  · exact (congrArg Effect.answers (hraise f hf)).symm

end Effect

namespace Timeline

variable {timeline : Timeline} {user : Instance} {loader batch dispatched : Nat} {job : Job} {definition : Definition}

def absorb (loader : Nat) (user : Instance) (effect : Effect) (timeline : Timeline) : Timeline :=
  { timeline with
    instances := timeline.instances.set loader { user with state := effect.state }
    answers := timeline.answers ++ effect.answers
    sleeping := effect.later.elim timeline.sleeping fun (duration, job) =>
      insertSleeping (timeline.now + duration) job timeline.sleeping }

/-- An effect that leaves the state as it is at most sets a job to sleep. -/
theorem absorb_unchanged (huser : timeline.instances[loader]? = some user) (later : Option (Nat × Job)) :
    timeline.absorb loader user { state := user.state, later } =
      later.elim timeline fun (duration, job) => timeline.sleep duration job := by
  obtain ⟨hloader, rfl⟩ := List.getElem?_eq_some_iff.1 huser
  rw [absorb, List.set_getElem_self hloader, List.append_nil]
  cases later <;> rfl

theorem finish_eq (huser : timeline.instances[loader]? = some user) (batch : Nat)
    (results : Option (List (Except LoadError Json))) :
    timeline.finish loader batch results = timeline.absorb loader user (.conclude batch results user.state) := by
  rw [finish, step, huser]
  cases results <;> rfl

def callsWith (user : Instance) (keys : List String) (timeline : Timeline) : List (List Call) :=
  timeline.calls.set user.definition (timeline.calls[user.definition]?.getD [] ++ [Call.mk timeline.now keys])

theorem start_of_definition (huser : timeline.instances[loader]? = some user)
    (hdefinition : timeline.definitions[user.definition]? = some definition) (batch : Nat) :
    timeline.start loader batch =
      { timeline.absorb loader user (.start (some definition) (timeline.calls[user.definition]?.getD []).length loader
          batch user.state) with
        calls := timeline.callsWith user (user.state.keysOf batch) } := by
  have hkeys : timeline.keysOf loader batch = user.state.keysOf batch := by
    rw [keysOf, huser]
    rfl
  rw [start, huser]
  dsimp only
  rw [hdefinition]
  dsimp only [Effect.start]
  rw [hkeys]
  split
  · rw [finish_eq (by exact huser)]
    rfl
  · rw [absorb_unchanged huser]
    rfl

theorem start_of_no_definition (huser : timeline.instances[loader]? = some user)
    (hdefinition : timeline.definitions[user.definition]? = none) (batch : Nat) :
    timeline.start loader batch = timeline := by
  rw [start, huser]
  dsimp only
  rw [hdefinition]

theorem start_eq (huser : timeline.instances[loader]? = some user) (batch : Nat) :
    ∃ count calls, timeline.start loader batch =
      { timeline.absorb loader user
          (.start timeline.definitions[user.definition]? count loader batch user.state) with calls } := by
  cases hdefinition : timeline.definitions[user.definition]? with
  | none =>
    refine ⟨0, timeline.calls, ?_⟩
    rw [start_of_no_definition huser hdefinition, Effect.start, absorb_unchanged huser]
    rfl
  | some definition => exact ⟨_, _, start_of_definition huser hdefinition batch⟩

theorem instance_set (huser : timeline.instances[loader]? = some user) (state : State String Json) :
    (timeline.instances.set loader { user with state })[loader]? = some { user with state } := by
  obtain ⟨hloader, -⟩ := List.getElem?_eq_some_iff.1 huser
  exact List.getElem?_set_self hloader

/-- A timer that finds its batch under way already changes no more than the loader's state. -/
theorem fire_of_none (huser : timeline.instances[loader]? = some user) (hfire : (user.state.fire batch).1 = none) :
    timeline.fire loader batch = timeline.absorb loader user { state := (user.state.fire batch).2 } := by
  rw [fire, step, huser]
  dsimp only
  rw [hfire, absorb, List.append_nil]
  rfl

/-- A timer that sends its batch off has it loaded at once. -/
theorem fire_of_some (huser : timeline.instances[loader]? = some user)
    (hfire : (user.state.fire batch).1 = some dispatched) :
    timeline.fire loader batch = start loader dispatched { timeline with
      instances := timeline.instances.set loader { user with state := (user.state.fire batch).2 } } := by
  rw [fire, step, huser]
  dsimp only
  rw [hfire]
  rfl

theorem fire_of_definition (huser : timeline.instances[loader]? = some user)
    (hdefinition : timeline.definitions[user.definition]? = some definition)
    (hfire : (user.state.fire batch).1 = some dispatched) :
    timeline.fire loader batch =
      { timeline.absorb loader user (.start (some definition) (timeline.calls[user.definition]?.getD []).length loader
          dispatched (user.state.fire batch).2) with
        calls := timeline.callsWith user ((user.state.fire batch).2.keysOf dispatched) } := by
  have hset := instance_set huser (user.state.fire batch).2
  have hstart := @start_of_definition { timeline with instances := _ } _ loader definition hset hdefinition dispatched
  refine (fire_of_some huser hfire).trans (hstart.trans ?_)
  simp only [absorb, List.set_set]
  rfl

theorem fire_eq (huser : timeline.instances[loader]? = some user) (batch : Nat) :
    ∃ count calls, timeline.fire loader batch =
      { timeline.absorb loader user
          (.fire timeline.definitions[user.definition]? count loader batch user.state) with calls } := by
  cases hfire : (user.state.fire batch).1 with
  | some dispatched =>
    have hset := instance_set huser (user.state.fire batch).2
    obtain ⟨count, calls, hstart⟩ := @start_eq { timeline with instances := _ } _ loader hset dispatched
    refine ⟨count, calls, (fire_of_some huser hfire).trans (hstart.trans ?_)⟩
    simp only [absorb, Effect.fire, hfire, List.set_set]
  | none =>
    refine ⟨0, timeline.calls, (fire_of_none huser hfire).trans ?_⟩
    rw [Effect.fire, hfire]
    rfl

theorem run_eq (huser : timeline.instances[job.loader]? = some user) :
    ∃ count calls, timeline.run job =
      { timeline.absorb job.loader user
          (.ofJob timeline.definitions[user.definition]? count user.state job) with calls } := by
  cases job with
  | timer loader batch =>
    have hdefinition : timeline.definitionOf? loader = timeline.definitions[user.definition]? := by
      rw [definitionOf?, show timeline.instances[loader]? = some user from huser]
      rfl
    rw [run, hdefinition]
    dsimp only [Effect.ofJob]
    split
    · exact fire_eq huser batch
    · refine ⟨0, timeline.calls, ?_⟩
      rw [absorb_unchanged huser]
      rfl
  | fire loader batch => exact fire_eq huser batch
  | start loader batch => exact start_eq huser batch
  | finish loader batch results => exact ⟨0, timeline.calls, finish_eq huser batch results⟩

theorem run_eq_self (hnone : timeline.instances[job.loader]? = none) : timeline.run job = timeline := by
  cases job with
  | timer loader batch =>
    have hnone : timeline.instances[loader]? = none := hnone
    simp [run, definitionOf?, fire, step, hnone]
  | fire loader batch =>
    have hnone : timeline.instances[loader]? = none := hnone
    simp [run, fire, step, hnone]
  | start loader batch =>
    have hnone : timeline.instances[loader]? = none := hnone
    simp [run, start, hnone]
  | finish loader batch results =>
    have hnone : timeline.instances[loader]? = none := hnone
    simp [run, finish, step, hnone]

theorem start_calls (huser : timeline.instances[loader]? = some user) (batch : Nat) :
    (timeline.start loader batch).calls = timeline.calls ∨
      ∃ keys, (timeline.start loader batch).calls = timeline.callsWith user keys := by
  cases hdefinition : timeline.definitions[user.definition]? with
  | none => exact .inl (congrArg calls (start_of_no_definition huser hdefinition batch))
  | some definition => exact .inr ⟨_, congrArg calls (start_of_definition huser hdefinition batch)⟩

theorem fire_calls (huser : timeline.instances[loader]? = some user) (batch : Nat) :
    (timeline.fire loader batch).calls = timeline.calls ∨
      ∃ keys, (timeline.fire loader batch).calls = timeline.callsWith user keys := by
  cases hfire : (user.state.fire batch).1 with
  | none =>
    rw [fire_of_none huser hfire]
    exact .inl rfl
  | some dispatched =>
    have hset := instance_set huser (user.state.fire batch).2
    rw [fire_of_some huser hfire]
    exact @start_calls { timeline with instances := _ } _ loader hset dispatched

/-- Of the batch functions a job calls at most that of its loader. -/
theorem run_calls (huser : timeline.instances[job.loader]? = some user) :
    (timeline.run job).calls = timeline.calls ∨
      ∃ keys, (timeline.run job).calls = timeline.callsWith user keys := by
  cases job with
  | timer loader batch =>
    rw [run]
    split
    · exact fire_calls huser batch
    · exact .inl rfl
  | fire loader batch => exact fire_calls huser batch
  | start loader batch => exact start_calls huser batch
  | finish loader batch results =>
    rw [run, finish_eq (by exact huser)]
    exact .inl rfl

theorem runReady_keeps (keeps : Timeline → Prop) (hrun : ∀ timeline job, keeps timeline → keeps (timeline.run job))
    (hkeeps : keeps { timeline with ready := [] }) : keeps timeline.runReady := by
  have hfold (jobs : List Job) : ∀ timeline, keeps timeline → keeps (jobs.foldl run timeline) := by
    induction jobs with
    | nil => exact fun _ hkeeps => hkeeps
    | cons job jobs ih => exact fun timeline hkeeps => ih _ (hrun timeline job hkeeps)
  exact hfold timeline.ready _ hkeeps

def maxBatchOf (timeline : Timeline) (user : Instance) : Nat :=
  (timeline.definitions[user.definition]?.map Definition.maxBatch).getD 0

/-- What asking a loader for a key comes to: an answer at once, or a ticket and what the loader demands. -/
inductive Requested (loader : Nat) (key : String) (timeline : Timeline) : Strand × Timeline → Prop where
  | missing (hnone : timeline.instances[loader]? = none) :
      Requested loader key timeline (.done (.error .dropped) timeline.now, timeline)
  | cached {user : Instance} {value : Json} (huser : timeline.instances[loader]? = some user)
      (hload : user.state.load (timeline.maxBatchOf user) key timeline.nextTicket = (.cached value, user.state)) :
      Requested loader key timeline (.done (.ok value) timeline.now, timeline)
  | waiting {user : Instance} {demand : Demand} {state : State String Json}
      (huser : timeline.instances[loader]? = some user)
      (hload : user.state.load (timeline.maxBatchOf user) key timeline.nextTicket = (.waiting demand, state)) :
      Requested loader key timeline (.waiting timeline.nextTicket,
        { timeline with
          instances := timeline.instances.set loader { user with state }
          nextTicket := timeline.nextTicket + 1
          ready := timeline.ready ++ demand.jobs loader })

theorem requested (loader : Nat) (key : String) (timeline : Timeline) :
    Requested loader key timeline (timeline.request loader key) := by
  rw [request, step]
  cases huser : timeline.instances[loader]? with
  | none => exact .missing huser
  | some user =>
    have hdefinition : timeline.definitionOf? loader = timeline.definitions[user.definition]? := by
      rw [definitionOf?, huser]
      rfl
    rw [hdefinition]
    dsimp only
    rw [← maxBatchOf]
    cases hload : user.state.load (timeline.maxBatchOf user) key timeline.nextTicket with
    | mk receipt state =>
      cases receipt with
      | cached value =>
        obtain ⟨hloader, rfl⟩ := List.getElem?_eq_some_iff.1 huser
        obtain rfl := State.load_cached hload
        dsimp only
        rw [List.set_getElem_self hloader]
        exact .cached huser hload
      | waiting demand =>
        cases demand <;> exact .waiting huser hload

theorem Requested.eq {key : String} {result : Strand × Timeline} (hrequested : Requested loader key timeline result) :
    timeline.request loader key = result := by
  have hrequest := requested loader key timeline
  generalize timeline.request loader key = other at hrequest
  cases hrequested <;> cases hrequest <;> simp_all

end Timeline

end RelationalGraphQL.Loader
