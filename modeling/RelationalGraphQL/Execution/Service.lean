import RelationalGraphQL.Execution.Executor

/-!
Serving requests one after another. What outlives a request is the clock with what its loaders still have to do, and the
documents read so far.
-/

namespace RelationalGraphQL.Execution

open Loader (Timeline)

/-- A request with its limits, counted from when it is served. -/
structure Submission where
  request : Request
  timeout : Option Nat := none
  /-- Whether the request itself can cancel. -/
  cancellable : Bool := false
  cancelAfter : Option Nat := none

/-- What is left of the requests served so far. -/
structure Service where
  timeline : Timeline
  documents : Executor.DocumentCache := []
  served : Nat := 0

def Service.fresh (definitions : List Loader.Definition) : Service := { timeline := .ofDefinitions definitions }

namespace Executor

/-- The session in which a submission is served: its loaders are its own. -/
def sessionFor (executor : Executor) (service : Service) (submission : Submission) : Session :=
  let cancelAt := submission.cancelAfter.map (service.timeline.now + ·)
  executor.session submission.timeout { cancellable := submission.cancellable || cancelAt.isSome, cancelAt }
    service.served service.timeline

/-- Serves a submission, with the session it ends in. -/
def serve (executor : Executor) (service : Service) (submission : Submission) : Response × Session × Service :=
  let (response, documents, session) :=
    executor.execute submission.request service.documents (executor.sessionFor service submission)
  (response, session, { timeline := session.timeline, documents, served := service.served + 1 })

end Executor

end RelationalGraphQL.Execution
