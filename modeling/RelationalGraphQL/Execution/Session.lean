import RelationalGraphQL.Error
import RelationalGraphQL.Execution.Program
import RelationalGraphQL.Loader.Timeline

/-!
A session runs the programs of a request in virtual time, against the request's deadline and cancellation.
-/

namespace RelationalGraphQL.Execution

open Loader (Timeline)

/-- When a request ends whether it is finished or not. -/
structure Limits where
  deadline : Option Nat := none
  /-- Whether the request can be cancelled at all. -/
  cancellable : Bool := false
  /-- The instant at which it is cancelled from outside. -/
  cancelAt : Option Nat := none

structure Session where
  timeline : Timeline := {}
  limits : Limits := {}
  /-- Whose loaders are used. -/
  owner : Nat := 0
  cancelled : Bool := false
  log : List Json := []
  /-- The value kept for the rest of the request. -/
  kept : Option Json := none

namespace Session

def cancelledAt (session : Session) (time : Nat) : Bool :=
  session.cancelled || session.limits.cancelAt.any (· ≤ time)

def expiredAt (session : Session) (time : Nat) : Bool := session.limits.deadline.any (· ≤ time)

/-- What ends the request at an instant. Cancellation goes before the deadline. -/
def interruptionAt? (session : Session) (time : Nat) : Option ExecutionError :=
  if session.cancelledAt time then some .cancelled
  else if session.expiredAt time then some .timeout
  else none

def interruption? (session : Session) : Option ExecutionError := session.interruptionAt? session.timeline.now

def status (session : Session) : Status :=
  { cancelled := session.cancelledAt session.timeline.now
    expired := session.expiredAt session.timeline.now
    limited := session.limits.deadline.isSome }

/-- Waits for loads and for a time, unless the request ends before. -/
def await (wake : Nat) (strands : List Timeline.Strand) (session : Session) :
    Timeline.Waited (List Timeline.Strand) ExecutionError × Session :=
  let alarms := session.limits.deadline.toList ++ session.limits.cancelAt.toList
  let (waited, timeline) := session.timeline.await session.interruptionAt? alarms wake strands
  (waited, { session with timeline })

/-- Starts loads on an instance of a loader, at a time. -/
def strandsAt (start loader : Nat) (keys : List String) : List Timeline.Strand :=
  keys.map fun key => .idle start loader key

/-- Performs an action, unless the request ends while it waits. -/
def perform (action : Action) (session : Session) : Except ExecutionError action.Answer × Session :=
  match action with
  | .wait duration =>
    match session.await (session.timeline.now + duration) [] with
    | (.finished _, session) => (.ok (), session)
    | (.interrupted error, session) => (.error error, session)
    | (.stalled, session) => (.error .timeout, session)
  | .cancel => (.ok (), if session.limits.cancellable then { session with cancelled := true } else session)
  | .log value => (.ok (), { session with log := session.log ++ [value] })
  | .keep value => (.ok (), { session with kept := some value })
  | .recall => (.ok session.kept, session)
  | .status => (.ok session.status, session)
  | .load name keys =>
    match session.timeline.instance? session.owner name with
    | (none, timeline) => (.ok none, { session with timeline })
    | (some loader, timeline) =>
      let session := { session with timeline }
      match session.await timeline.now (strandsAt timeline.now loader keys) with
      | (.finished strands, session) =>
        (.ok (some (strands.filterMap fun strand => strand.result?.map Prod.fst)), session)
      | (.interrupted error, session) => (.error error, session)
      | (.stalled, session) => (.error .timeout, session)

/-- Runs a program to its end or to the end of the request. -/
def run {α : Type} : Program α → Session → Except ExecutionError α × Session
  | .done result, session => (.ok result, session)
  | .act action next, session =>
    match session.perform action with
    | (.ok answer, session) => run (next answer) session
    | (.error error, session) => (.error error, session)

end Session

end RelationalGraphQL.Execution
