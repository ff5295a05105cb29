import RelationalGraphQL.Json.Basic
import RelationalGraphQL.Loader.Basic

/-!
Loaders in virtual time. The clock stands still while anything can run. At each instant whoever waits looks first, then
the timers and batches that are due run in the order in which they were set, and when nothing can run the clock moves
to the next instant at which something is due.
-/

namespace RelationalGraphQL.Loader

/-- What a batch function does with a call: how long it takes, and its results, or none if it breaks down. -/
structure Reply where
  duration : Nat := 0
  results : Option (List (Except LoadError Json))

/-- A loader that can be asked for by name. The batch function is given the number of calls made before and the
keys. -/
structure Definition where
  name : String := ""
  maxBatch : Nat := 100
  delay : Nat := 1
  batch : Nat → List String → Reply

/-- A call of a batch function. -/
structure Call where
  time : Nat
  keys : List String
  deriving DecidableEq, Repr

/-- A loader in use by one owner. -/
structure Instance where
  owner : Nat
  definition : Nat
  state : State String Json := {}

/-- Something that runs when it is due, for a batch of an instance. -/
inductive Job where
  /-- Set the timer of a batch. -/
  | timer (loader batch : Nat)
  | fire (loader batch : Nat)
  /-- Call the batch function. -/
  | start (loader batch : Nat)
  | finish (loader batch : Nat) (results : Option (List (Except LoadError Json)))

structure Timeline where
  now : Nat := 0
  definitions : List Definition := []
  /-- The calls of each definition's batch function so far. -/
  calls : List (List Call) := []
  instances : List Instance := []
  /-- Jobs to run now, in order. -/
  ready : List Job := []
  /-- Jobs to run later, by time; jobs of one instant in the order in which they were set. -/
  sleeping : List (Nat × Job) := []
  nextTicket : Nat := 0
  answers : List (Nat × Except LoadError Json) := []

namespace Timeline

def ofDefinitions (definitions : List Definition) : Timeline :=
  { definitions, calls := definitions.map fun _ => [] }

/-- Puts a job behind those that are due no later. -/
def insertSleeping (due : Nat) (job : Job) : List (Nat × Job) → List (Nat × Job)
  | [] => [(due, job)]
  | (time, other) :: rest =>
    if time ≤ due then (time, other) :: insertSleeping due job rest else (due, job) :: (time, other) :: rest

def sleep (duration : Nat) (job : Job) (timeline : Timeline) : Timeline :=
  { timeline with sleeping := insertSleeping (timeline.now + duration) job timeline.sleeping }

def definitionOf? (loader : Nat) (timeline : Timeline) : Option Definition := do
  let user ← timeline.instances[loader]?
  timeline.definitions[user.definition]?

def step {α : Type} (loader : Nat) (action : State String Json → α × State String Json) (timeline : Timeline) :
    Option α × Timeline :=
  match timeline.instances[loader]? with
  | none => (none, timeline)
  | some user =>
    let (result, state) := action user.state
    (some result, { timeline with instances := timeline.instances.set loader { user with state } })

/-- Ends a batch and keeps the answers. -/
def finish (loader batch : Nat) (results : Option (List (Except LoadError Json))) (timeline : Timeline) : Timeline :=
  let (answers, timeline) := timeline.step loader fun state =>
    match results with
    | some results => state.settle batch results
    | none => state.crash batch
  { timeline with answers := timeline.answers ++ answers.getD [] }

def keysOf (loader batch : Nat) (timeline : Timeline) : List String :=
  match timeline.instances[loader]? with
  | none => []
  | some user => ((user.state.dispatched.find? (·.id = batch)).map Batch.keys).getD []

/-- Calls the batch function. A call that takes no time ends at once. -/
def start (loader batch : Nat) (timeline : Timeline) : Timeline :=
  match timeline.instances[loader]? with
  | none => timeline
  | some user =>
    match timeline.definitions[user.definition]? with
    | none => timeline
    | some definition =>
      let keys := timeline.keysOf loader batch
      let before := timeline.calls[user.definition]?.getD []
      let reply := definition.batch before.length keys
      let timeline := { timeline with
        calls := timeline.calls.set user.definition (before ++ [Call.mk timeline.now keys]) }
      if reply.duration = 0 then timeline.finish loader batch reply.results
      else timeline.sleep reply.duration (.finish loader batch reply.results)

/-- A batch's timer fires. -/
def fire (loader batch : Nat) (timeline : Timeline) : Timeline :=
  let (dispatched, timeline) := timeline.step loader fun state => state.fire batch
  match dispatched.join with
  | some batch => timeline.start loader batch
  | none => timeline

def run (timeline : Timeline) : Job → Timeline
  | .timer loader batch =>
    let delay := ((timeline.definitionOf? loader).map Definition.delay).getD 0
    if delay = 0 then timeline.fire loader batch else timeline.sleep delay (.fire loader batch)
  | .fire loader batch => timeline.fire loader batch
  | .start loader batch => timeline.start loader batch
  | .finish loader batch results => timeline.finish loader batch results

/-- Runs everything that can run now. -/
def runReady (timeline : Timeline) : Timeline := timeline.ready.foldl run { timeline with ready := [] }

/-- Moves the clock, and makes the jobs ready that are due then. -/
def moveTo (time : Nat) (timeline : Timeline) : Timeline :=
  { timeline with
    now := time
    ready := timeline.ready ++ (timeline.sleeping.takeWhile fun (due, _) => due ≤ time).map Prod.snd
    sleeping := timeline.sleeping.dropWhile fun (due, _) => due ≤ time }

/-- The next instant at which a job, or one of the given alarms, is due. -/
def nextInstant? (alarms : List Nat) (timeline : Timeline) : Option Nat :=
  (timeline.sleeping.map Prod.fst ++ alarms.filter fun time => timeline.now < time).min?

/-- The instance of a named loader that belongs to an owner, made when it is first asked for. Of two definitions of a
name the later counts. -/
def instance? (owner : Nat) (name : String) (timeline : Timeline) : Option Nat × Timeline :=
  let named (place : Nat) : Bool := (timeline.definitions[place]?.map Definition.name) = some name
  match timeline.instances.findIdx? fun user => user.owner = owner && named user.definition with
  | some loader => (some loader, timeline)
  | none =>
    match (List.range timeline.definitions.length).reverse.find? named with
    | none => (none, timeline)
    | some definition =>
      (some timeline.instances.length,
        { timeline with instances := timeline.instances ++ [{ owner, definition }] })

/-- A load that may still have to wait for its turn. -/
inductive Strand where
  /-- To be started at a time. -/
  | idle (start loader : Nat) (key : String)
  | waiting (ticket : Nat)
  | done (outcome : Except LoadError Json) (time : Nat)

def request (loader : Nat) (key : String) (timeline : Timeline) : Strand × Timeline :=
  let maxBatch := ((timeline.definitionOf? loader).map Definition.maxBatch).getD 0
  let ticket := timeline.nextTicket
  let (receipt, timeline) := timeline.step loader fun state => state.load maxBatch key ticket
  match receipt with
  | some (.cached value) => (.done (.ok value) timeline.now, timeline)
  | some (.waiting demand) =>
    let jobs := match demand with
      | .nothing => []
      | .timer batch => [Job.timer loader batch]
      | .dispatch batch => [Job.start loader batch]
    (.waiting ticket, { timeline with nextTicket := ticket + 1, ready := timeline.ready ++ jobs })
  | none => (.done (.error .dropped) timeline.now, timeline)

/-- Looks after a strand: starts it when its time has come, and takes its answer when there is one. -/
def poll (strand : Strand) (timeline : Timeline) : Strand × Timeline :=
  match strand with
  | .idle start loader key =>
    if start ≤ timeline.now then timeline.request loader key else (.idle start loader key, timeline)
  | .waiting ticket =>
    match timeline.answers.lookup ticket with
    | some outcome => (.done outcome timeline.now, timeline)
    | none => (.waiting ticket, timeline)
  | .done outcome time => (.done outcome time, timeline)

def pollAll : List Strand → Timeline → List Strand × Timeline
  | [], timeline => ([], timeline)
  | strand :: rest, timeline =>
    let (strand, timeline) := timeline.poll strand
    let (rest, timeline) := pollAll rest timeline
    (strand :: rest, timeline)

def Strand.isDone : Strand → Bool
  | .done _ _ => true
  | _ => false

def Strand.result? : Strand → Option (Except LoadError Json × Nat)
  | .done outcome time => some (outcome, time)
  | _ => none

def Strand.alarm? : Strand → Option Nat
  | .idle start _ _ => some start
  | _ => none

/-- How a wait ended. -/
inductive Waited (α ε : Type) where
  | finished (result : α)
  | interrupted (reason : ε)
  /-- Nothing is left that could end the wait. -/
  | stalled

variable {ε : Type}

/-- Waits until all strands are done and a time is reached. Whoever waits looks before anything else runs at an
instant, and gives up if it is not done and something interrupts it then. -/
def wait (interruption? : Nat → Option ε) (alarms : List Nat) (wake : Nat) :
    Nat → List Strand → Timeline → Waited (List Strand) ε × Timeline
  | 0, _, timeline => (.stalled, timeline)
  | fuel + 1, strands, timeline =>
    let (strands, timeline) := pollAll strands timeline
    if strands.all Strand.isDone && wake ≤ timeline.now then (.finished strands, timeline)
    else
      match interruption? timeline.now with
      | some reason => (.interrupted reason, timeline)
      | none =>
        if timeline.ready.isEmpty then
          match timeline.nextInstant? (wake :: alarms ++ strands.filterMap Strand.alarm?) with
          | some time => wait interruption? alarms wake fuel strands (timeline.moveTo time)
          | none => (.stalled, timeline)
        else wait interruption? alarms wake fuel strands timeline.runReady

/-- Bounds the turns of a wait: every job sleeps at most twice, and every strand starts at most one job. -/
def turns (strands alarms : Nat) (timeline : Timeline) : Nat :=
  8 * (timeline.ready.length + timeline.sleeping.length + strands + alarms) + 16

/-- Waits for strands and a time, unless interrupted. -/
def await (interruption? : Nat → Option ε) (alarms : List Nat) (wake : Nat) (strands : List Strand)
    (timeline : Timeline) : Waited (List Strand) ε × Timeline :=
  wait interruption? alarms wake (timeline.turns strands.length alarms.length) strands timeline

end Timeline

end RelationalGraphQL.Loader
