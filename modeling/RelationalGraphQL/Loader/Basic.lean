/-!
A loader gathers requested keys into batches, loads each batch once and remembers what it loaded. A batch is
dispatched when it is full or when its timer fires. A key of a dispatched batch is not requested again: whoever asks
for it waits for that batch.

Whoever waits is known by a ticket. Every step is a function of the loader's state; the steps that end a batch answer
the tickets that waited for it.
-/

namespace RelationalGraphQL.Loader

inductive LoadError where
  | failed (message : String)
  /-- A batch answered with another number of results than it had keys. -/
  | mismatch (results keys : Nat)
  /-- A batch ended without an answer. -/
  | dropped
  deriving DecidableEq, Repr

def LoadError.message : LoadError → String
  | .failed message => message
  | .mismatch results keys =>
    "batch function returned " ++ toString results ++ " results for " ++ toString keys ++ " keys"
  | .dropped => "data loader batch was dropped"

variable {κ ν : Type}

/-- Keys in the order in which they were first requested, with the tickets that wait for each. -/
structure Batch (κ : Type) where
  id : Nat
  keys : List κ := []
  waiters : List (κ × List Nat) := []

structure State (κ ν : Type) where
  cache : List (κ × ν) := []
  /-- The batch that still takes keys. -/
  pending : Option (Batch κ) := none
  /-- The batches whose timer is running. -/
  timers : List Nat := []
  /-- The batches being loaded. -/
  dispatched : List (Batch κ) := []
  /-- The keys being loaded, with the tickets that came after the dispatch. -/
  inFlight : List (κ × List Nat) := []
  nextBatch : Nat := 0

/-- What a load asks of the outside. -/
inductive Demand where
  | nothing
  /-- Start the timer of a batch. -/
  | timer (batch : Nat)
  /-- Load a batch. -/
  | dispatch (batch : Nat)
  deriving DecidableEq, Repr

/-- How a load was received: answered at once, or waiting. -/
inductive Receipt (ν : Type) where
  | cached (value : ν)
  | waiting (demand : Demand)

section

variable [DecidableEq κ]

def addWaiter (key : κ) (ticket : Nat) : List (κ × List Nat) → List (κ × List Nat)
  | [] => [(key, [ticket])]
  | (k, tickets) :: rest =>
    if k = key then (k, tickets ++ [ticket]) :: rest else (k, tickets) :: addWaiter key ticket rest

def openKey (key : κ) (waiters : List (κ × List Nat)) : List (κ × List Nat) :=
  if (waiters.lookup key).isSome then waiters else waiters ++ [(key, [])]

def setCached (key : κ) (value : ν) (cache : List (κ × ν)) : List (κ × ν) :=
  (key, value) :: cache.filter fun (k, _) => k ≠ key

namespace Batch

/-- Adds a ticket for a key, which joins the batch if it is new. -/
def add (key : κ) (ticket : Nat) (batch : Batch κ) : Batch κ :=
  { batch with
    keys := if (batch.waiters.lookup key).isSome then batch.keys else batch.keys ++ [key]
    waiters := addWaiter key ticket batch.waiters }

end Batch

namespace State

/-- Moves the pending batch to those being loaded. -/
def dispatch (batch : Batch κ) (state : State κ ν) : State κ ν :=
  { state with
    pending := none
    dispatched := state.dispatched ++ [batch]
    inFlight := batch.keys.foldl (fun waiters key => openKey key waiters) state.inFlight }

/-- Receives a ticket for a key. -/
def load (maxBatch : Nat) (key : κ) (ticket : Nat) (state : State κ ν) : Receipt ν × State κ ν :=
  match state.cache.lookup key with
  | some value => (.cached value, state)
  | none =>
    if (state.inFlight.lookup key).isSome then
      (.waiting .nothing, { state with inFlight := addWaiter key ticket state.inFlight })
    else
      let fresh := state.pending.isNone
      let batch := (state.pending.getD { id := state.nextBatch }).add key ticket
      let state := if fresh then { state with nextBatch := state.nextBatch + 1 } else state
      if max 1 maxBatch ≤ batch.keys.length then (.waiting (.dispatch batch.id), state.dispatch batch)
      else if fresh then
        (.waiting (.timer batch.id),
          { state with pending := some batch, timers := state.timers ++ [batch.id] })
      else (.waiting .nothing, { state with pending := some batch })

/-- The timer of a batch fires. It dispatches the batch unless that is under way already. -/
def fire (id : Nat) (state : State κ ν) : Option Nat × State κ ν :=
  let state := { state with timers := state.timers.erase id }
  match state.pending with
  | some batch => if batch.id = id then (some id, state.dispatch batch) else (none, state)
  | none => (none, state)

/-- One result for each key; a reply of another length fails them all. -/
def aligned (keys : List κ) (results : List (Except LoadError ν)) : List (Except LoadError ν) :=
  if results.length = keys.length then results
  else keys.map fun _ => .error (.mismatch results.length keys.length)

/-- The tickets that wait for a key of a batch: those of the batch, then those that came later. -/
def ticketsFor (batch : Batch κ) (state : State κ ν) (key : κ) : List Nat :=
  (batch.waiters.lookup key).getD [] ++ (state.inFlight.lookup key).getD []

def release (batch : Batch κ) (state : State κ ν) : State κ ν :=
  { state with
    dispatched := state.dispatched.filter fun other => other.id ≠ batch.id
    inFlight := state.inFlight.filter fun (key, _) => key ∉ batch.keys }

/-- A batch ends with a reply. What was loaded is remembered, and every ticket that waits is answered. -/
def settle (id : Nat) (results : List (Except LoadError ν)) (state : State κ ν) :
    List (Nat × Except LoadError ν) × State κ ν :=
  match state.dispatched.find? fun batch => batch.id = id with
  | none => ([], state)
  | some batch =>
    let outcomes := batch.keys.zip (aligned batch.keys results)
    let cache := outcomes.foldl
      (fun cache (key, outcome) => match outcome with
        | .ok value => setCached key value cache
        | .error _ => cache)
      state.cache
    let answers := outcomes.flatMap fun (key, outcome) =>
      (ticketsFor batch state key).map fun ticket => (ticket, outcome)
    (answers, { state.release batch with cache })

/-- A batch ends without a reply. Every ticket that waits is told so. -/
def crash (id : Nat) (state : State κ ν) : List (Nat × Except LoadError ν) × State κ ν :=
  match state.dispatched.find? fun batch => batch.id = id with
  | none => ([], state)
  | some batch =>
    (batch.keys.flatMap fun key => (ticketsFor batch state key).map fun ticket => (ticket, .error .dropped),
      state.release batch)

/-- Remembers a value unless the key has one. -/
def prime (key : κ) (value : ν) (state : State κ ν) : State κ ν :=
  if (state.cache.lookup key).isSome then state else { state with cache := setCached key value state.cache }

def clear (key : κ) (state : State κ ν) : State κ ν :=
  { state with cache := state.cache.filter fun (k, _) => k ≠ key }

def clearAll (state : State κ ν) : State κ ν := { state with cache := [] }

end State

end

end RelationalGraphQL.Loader
