import RelationalGraphQL.Execution.Executor
import Mathlib.Order.Basic

/-!
A program that neither asks for its surroundings nor changes what others see of them takes some time and gives some
result (`Program.Takes`). A session runs it to its end if nothing ends the request before; if something does, the run
stops at that instant and does nothing later. What ends exactly when the request does is still finished, since whoever
waits looks before anything else happens at an instant.
-/

namespace RelationalGraphQL

namespace Loader.Timeline

/-! ### Waiting while nothing else happens -/

/-- Nothing is to be run, now or later. -/
def Idle (timeline : Timeline) : Prop := timeline.ready = [] ∧ timeline.sleeping = []

section

variable {ε : Type} {interruption? : Nat → Option ε} {alarms : List Nat} {wake : Nat} {timeline : Timeline}

theorem Idle.moveTo (hidle : timeline.Idle) (time : Nat) : timeline.moveTo time = { timeline with now := time } := by
  simp [Timeline.moveTo, hidle.1, hidle.2]

theorem Idle.nextInstant? (hidle : timeline.Idle) (times : List Nat) :
    timeline.nextInstant? times = (times.filter fun time => timeline.now < time).min? := by
  simp [Timeline.nextInstant?, hidle.2]

/-- One turn of a wait that is not over: the clock moves to the next alarm, or to the end of the wait. -/
theorem Idle.wait_succ (hidle : timeline.Idle) (hlater : timeline.now < wake)
    (hnone : interruption? timeline.now = none) (alarms : List Nat) (fuel : Nat) :
    ∃ time, timeline.now < time ∧ time ≤ wake ∧ (time = wake ∨ time ∈ alarms) ∧
      (∀ alarm ∈ alarms, timeline.now < alarm → time ≤ alarm) ∧
      wait interruption? alarms wake (fuel + 1) [] timeline =
        wait interruption? alarms wake fuel [] { timeline with now := time } := by
  have hnext := hidle.nextInstant? (wake :: alarms)
  cases hmin : ((wake :: alarms).filter fun time => timeline.now < time).min? with
  | none =>
    rw [List.min?_eq_none_iff] at hmin
    simp [hlater] at hmin
  | some time =>
    rw [hmin] at hnext
    rw [List.min?_eq_some_iff] at hmin
    obtain ⟨hmem, hleast⟩ := hmin
    rw [List.mem_filter] at hmem
    refine ⟨time, by simpa using hmem.2, ?_, by simpa using hmem.1, ?_, ?_⟩
    · exact hleast wake (by simp [hlater])
    · intro alarm halarm hafter
      exact hleast alarm (by simp [halarm, hafter])
    · have hwake : ¬ wake ≤ timeline.now := by omega
      simp [wait, pollAll, hwake, hnone, hidle.1, hnext, hidle.moveTo]

theorem turns_eq (strands alarms : Nat) (timeline : Timeline) : ∃ fuel, timeline.turns strands alarms = fuel + 2 :=
  ⟨_, rfl⟩

theorem wait_over (fuel : Nat) (hover : wake ≤ timeline.now) :
    wait interruption? alarms wake (fuel + 1) [] timeline = (.finished [], timeline) := by
  simp [wait, pollAll, hover]

theorem wait_interrupted (fuel : Nat) (hlater : timeline.now < wake) {reason : ε}
    (hreason : interruption? timeline.now = some reason) :
    wait interruption? alarms wake (fuel + 1) [] timeline = (.interrupted reason, timeline) := by
  have hwake : ¬ wake ≤ timeline.now := by omega
  simp [wait, pollAll, hwake, hreason]

theorem Idle.await_finished (hidle : timeline.Idle) (hlater : timeline.now ≤ wake)
    (halarms : ∀ alarm ∈ alarms, (interruption? alarm).isSome)
    (hquiet : ∀ time, timeline.now ≤ time → time < wake → interruption? time = none) :
    timeline.await interruption? alarms wake [] = (.finished [], { timeline with now := wake }) := by
  obtain ⟨fuel, hfuel⟩ := turns_eq ([] : List Strand).length alarms.length timeline
  rw [await, hfuel]
  rcases Nat.eq_or_lt_of_le hlater with hnow | hlater
  · rw [wait_over _ (by omega), ← hnow]
  · obtain ⟨time, hafter, hbefore, htime, -, hturn⟩ :=
      hidle.wait_succ hlater (hquiet _ (Nat.le_refl _) hlater) alarms (fuel + 1)
    have heq : time = wake := by
      rcases htime with heq | halarm
      · exact heq
      · by_contra hne
        have hnone := hquiet time (by omega) (by omega)
        have hsome := halarms time halarm
        rw [hnone] at hsome
        cases hsome
    subst heq
    rw [hturn, wait_over]
    exact Nat.le_refl _

theorem Idle.await_interrupted (hidle : timeline.Idle) (halarms : ∀ alarm ∈ alarms, (interruption? alarm).isSome)
    (hcauses : ∀ time, (interruption? time).isSome →
      (interruption? timeline.now).isSome ∨ ∃ alarm ∈ alarms, timeline.now < alarm ∧ alarm ≤ time)
    {time : Nat} (hfrom : timeline.now ≤ time) (hbefore : time < wake) (hfires : (interruption? time).isSome) :
    ∃ reason stop, timeline.await interruption? alarms wake [] = (.interrupted reason, { timeline with now := stop }) ∧
      interruption? stop = some reason ∧
      ∀ time, timeline.now ≤ time → (interruption? time).isSome → stop ≤ time := by
  obtain ⟨fuel, hfuel⟩ := turns_eq ([] : List Strand).length alarms.length timeline
  rw [await, hfuel]
  have hlater : timeline.now < wake := by omega
  cases hnow : interruption? timeline.now with
  | some reason => exact ⟨reason, timeline.now, wait_interrupted _ hlater hnow, hnow, fun _ hfrom _ => hfrom⟩
  | none =>
    obtain ⟨stop, hafter, -, hstop, hleast, hturn⟩ := hidle.wait_succ hlater hnow alarms (fuel + 1)
    have hfirst (time : Nat) (hsome : (interruption? time).isSome) : stop ≤ time := by
      rcases hcauses time hsome with hpast | ⟨alarm, halarm, hlate, hearly⟩
      · rw [hnow] at hpast
        cases hpast
      · exact Nat.le_trans (hleast alarm halarm hlate) hearly
    have hle := hfirst time hfires
    have hmem : stop ∈ alarms := by
      rcases hstop with rfl | hmem
      · omega
      · exact hmem
    obtain ⟨reason, hreason⟩ := Option.isSome_iff_exists.1 (halarms stop hmem)
    refine ⟨reason, stop, ?_, hreason, fun time _ => hfirst time⟩
    rw [hturn, wait_interrupted fuel (by dsimp only; omega) hreason]

end

end Loader.Timeline

namespace Execution

/-! ### Sessions -/

namespace Session

variable {session : Session} {time span : Nat}

theorem interruptionAt?_isSome :
    (session.interruptionAt? time).isSome ↔
      session.cancelled ∨ (∃ instant ∈ session.limits.cancelAt, instant ≤ time) ∨
        ∃ instant ∈ session.limits.deadline, instant ≤ time := by
  have hcancelled : session.cancelledAt time ↔
      session.cancelled ∨ ∃ instant ∈ session.limits.cancelAt, instant ≤ time := by
    simp [cancelledAt, Option.any_eq_true]
  have hexpired : session.expiredAt time ↔ ∃ instant ∈ session.limits.deadline, instant ≤ time := by
    simp [expiredAt, Option.any_eq_true]
  rw [← or_assoc, ← hcancelled, ← hexpired, interruptionAt?]
  cases session.cancelledAt time <;> cases session.expiredAt time <;> decide

theorem interruptionAt?_eq_some {error : ExecutionError} (hsome : session.interruptionAt? time = some error) :
    error = .cancelled ∨ error = .timeout := by
  unfold interruptionAt? at hsome
  split at hsome
  · exact .inl (Option.some.inj hsome).symm
  · split at hsome
    · exact .inr (Option.some.inj hsome).symm
    · cases hsome

/-- A session after some time in which nothing else happened to it. -/
def atTime (session : Session) (time : Nat) : Session :=
  { session with timeline := { session.timeline with now := time } }

theorem alarms_fire : ∀ alarm ∈ session.limits.deadline.toList ++ session.limits.cancelAt.toList,
    (session.interruptionAt? alarm).isSome := by
  intro alarm halarm
  rw [List.mem_append, Option.mem_toList, Option.mem_toList] at halarm
  rw [interruptionAt?_isSome]
  rcases halarm with hdeadline | hcancel
  · exact .inr (.inr ⟨alarm, hdeadline, Nat.le_refl _⟩)
  · exact .inr (.inl ⟨alarm, hcancel, Nat.le_refl _⟩)

theorem interruption_has_alarm (hsome : (session.interruptionAt? time).isSome) :
    (session.interruptionAt? session.timeline.now).isSome ∨
      ∃ alarm ∈ session.limits.deadline.toList ++ session.limits.cancelAt.toList,
        session.timeline.now < alarm ∧ alarm ≤ time := by
  rw [interruptionAt?_isSome] at hsome ⊢
  have hlater (instant : Nat) (hinstant : instant ≤ time) :
      instant ≤ session.timeline.now ∨ (session.timeline.now < instant ∧ instant ≤ time) := by omega
  rcases hsome with hcancelled | ⟨instant, hcancel, hinstant⟩ | ⟨instant, hdeadline, hinstant⟩
  · exact .inl (.inl hcancelled)
  · rcases hlater instant hinstant with hpast | hfuture
    · exact .inl (.inr (.inl ⟨instant, hcancel, hpast⟩))
    · exact .inr ⟨instant, by simpa using .inr hcancel, hfuture⟩
  · rcases hlater instant hinstant with hpast | hfuture
    · exact .inl (.inr (.inr ⟨instant, hdeadline, hpast⟩))
    · exact .inr ⟨instant, by simpa using .inl hdeadline, hfuture⟩

theorem interrupted_or_quiet (session : Session) (duration : Nat) :
    (∃ time, session.timeline.now ≤ time ∧ time < session.timeline.now + duration ∧
        (session.interruptionAt? time).isSome) ∨
      ∀ time, session.timeline.now ≤ time → time < session.timeline.now + duration →
        session.interruptionAt? time = none := by
  by_cases hsome : ∃ time, session.timeline.now ≤ time ∧ time < session.timeline.now + duration ∧
      (session.interruptionAt? time).isSome
  · exact .inl hsome
  · refine .inr fun time hfrom hbefore => ?_
    rw [← Option.not_isSome_iff_eq_none]
    exact fun htime => hsome ⟨time, hfrom, hbefore, htime⟩

theorem perform_wait_finished (hidle : session.timeline.Idle)
    (hquiet : ∀ time, session.timeline.now ≤ time → time < session.timeline.now + span →
      session.interruptionAt? time = none) :
    session.perform (.wait span) = (.ok (), session.atTime (session.timeline.now + span)) := by
  rw [perform, await, hidle.await_finished (Nat.le_add_right _ _) alarms_fire hquiet]
  rfl

theorem perform_wait_interrupted (hidle : session.timeline.Idle) (hfrom : session.timeline.now ≤ time)
    (hbefore : time < session.timeline.now + span) (hfires : (session.interruptionAt? time).isSome) :
    ∃ error stop, session.perform (.wait span) = (.error error, session.atTime stop) ∧
      session.interruptionAt? stop = some error ∧
      ∀ time, session.timeline.now ≤ time → (session.interruptionAt? time).isSome → stop ≤ time := by
  obtain ⟨error, stop, hawait, hstop⟩ := hidle.await_interrupted alarms_fire
    (fun _ hsome => interruption_has_alarm hsome) hfrom hbefore hfires
  refine ⟨error, stop, ?_, hstop⟩
  rw [perform, await, hawait]
  rfl

end Session

/-! ### Programs -/

/-- A program that takes a time and gives a result, whatever its surroundings. It may leave notes. -/
inductive Program.Takes {α : Type} : Program α → Nat → α → Prop where
  | done (result : α) : Takes (.done result) 0 result
  | wait {span duration : Nat} {next : Unit → Program α} {result : α} (hnext : Takes (next ()) duration result) :
      Takes (.act (.wait span) next) (span + duration) result
  | log {value : Json} {next : Unit → Program α} {duration : Nat} {result : α}
      (hnext : Takes (next ()) duration result) : Takes (.act (.log value) next) duration result
  | keep {value : Json} {next : Unit → Program α} {duration : Nat} {result : α}
      (hnext : Takes (next ()) duration result) : Takes (.act (.keep value) next) duration result

/-- A session that waits for nothing, in the same request. -/
structure Session.Quiet (session later : Session) : Prop where
  idle : later.timeline.Idle
  limits : later.limits = session.limits
  cancelled : later.cancelled = session.cancelled

section

variable {α : Type} {program : Program α} {duration : Nat} {result : α} {session : Session}

theorem Program.Takes.run_finished (htakes : program.Takes duration result) (hidle : session.timeline.Idle)
    (hquiet : ∀ time, session.timeline.now ≤ time → time < session.timeline.now + duration →
      session.interruptionAt? time = none) :
    ∃ later, session.run program = (.ok result, later) ∧ later.timeline.now = session.timeline.now + duration ∧
      session.Quiet later := by
  induction htakes generalizing session with
  | done result => exact ⟨session, rfl, rfl, hidle, rfl, rfl⟩
  | @wait span duration next result _ ih =>
    have hspan : ∀ time, session.timeline.now ≤ time → time < session.timeline.now + span →
        session.interruptionAt? time = none := by
      intro time hfrom hbefore
      exact hquiet time hfrom (by omega)
    obtain ⟨later, hrun, hnow, hafter⟩ := @ih (session.atTime (session.timeline.now + span)) hidle (by
      intro time hfrom hbefore
      dsimp only [Session.atTime] at hfrom hbefore
      exact hquiet time (by omega) (by omega))
    refine ⟨later, ?_, ?_, hafter.idle, hafter.limits, hafter.cancelled⟩
    · rw [Session.run, Session.perform_wait_finished hidle hspan]
      exact hrun
    · rw [hnow]
      dsimp only [Session.atTime]
      omega
  | @log value _ _ _ _ ih =>
    obtain ⟨later, hrun, hnow, hafter⟩ := @ih { session with log := session.log ++ [value] } hidle hquiet
    exact ⟨later, hrun, hnow, hafter.idle, hafter.limits, hafter.cancelled⟩
  | @keep value _ _ _ _ ih =>
    obtain ⟨later, hrun, hnow, hafter⟩ := @ih { session with kept := some value } hidle hquiet
    exact ⟨later, hrun, hnow, hafter.idle, hafter.limits, hafter.cancelled⟩

theorem Program.Takes.run_interrupted (htakes : program.Takes duration result) (hidle : session.timeline.Idle)
    {time : Nat} (hfrom : session.timeline.now ≤ time) (hbefore : time < session.timeline.now + duration)
    (hfires : (session.interruptionAt? time).isSome) :
    ∃ error later, session.run program = (.error error, later) ∧ later.interruption? = some error ∧
      ∀ time, session.timeline.now ≤ time → (session.interruptionAt? time).isSome → later.timeline.now ≤ time := by
  induction htakes generalizing session with
  | done result => omega
  | @wait span duration next result _ ih =>
    rcases session.interrupted_or_quiet span with ⟨instant, hlate, hearly, hsome⟩ | hquiet
    · obtain ⟨error, stop, hperform, hstop⟩ := Session.perform_wait_interrupted hidle hlate hearly hsome
      refine ⟨error, session.atTime stop, ?_, hstop⟩
      rw [Session.run, hperform]
    · have hpast (time : Nat) (hfrom : session.timeline.now ≤ time) (hfires : (session.interruptionAt? time).isSome) :
          session.timeline.now + span ≤ time := by
        by_contra hearly
        rw [hquiet time hfrom (by omega)] at hfires
        cases hfires
      obtain ⟨error, later, hrun, hlater, hfirst⟩ := @ih (session.atTime (session.timeline.now + span)) hidle
        (hpast time hfrom hfires) (by dsimp only [Session.atTime]; omega) hfires
      refine ⟨error, later, ?_, hlater, fun time hfrom hfires => hfirst time (hpast time hfrom hfires) hfires⟩
      rw [Session.run, Session.perform_wait_finished hidle hquiet]
      exact hrun
  | @log value _ _ _ _ ih =>
    exact @ih { session with log := session.log ++ [value] } hidle hfrom hbefore hfires
  | @keep value _ _ _ _ ih => exact @ih { session with kept := some value } hidle hfrom hbefore hfires

end

theorem Program.Takes.bind {α β : Type} {program : Program α} {next : α → Program β} {duration delay : Nat}
    {middle : α} {result : β} (htakes : program.Takes duration middle) (hnext : (next middle).Takes delay result) :
    (program.bind next).Takes (duration + delay) result := by
  induction htakes with
  | done _ => simpa [Program.bind] using hnext
  | wait _ ih => simpa [Program.bind, Nat.add_assoc] using .wait (ih hnext)
  | log _ ih => exact .log (ih hnext)
  | keep _ ih => exact .keep (ih hnext)

/-- A program of a fixed duration. -/
def Program.Timed {α : Type} (program : Program α) : Prop := ∃ duration result, program.Takes duration result

/-! ### Executors -/

/-- A middleware that has a fixed duration around what has one. -/
def Middleware.Timed (middleware : Middleware) : Prop :=
  ∀ extensions (next : FieldCall → Program Resolution), (∀ call, (next call).Timed) →
    ∀ call, (middleware extensions call next).Timed

/-- An executor whose resolvers and middleware are functions of their parameters, of fixed durations. -/
structure Executor.Timed (executor : Executor) : Prop where
  resolvers : ∀ entry ∈ executor.resolvers, ∀ extensions call, (entry.2 extensions call).Timed
  middleware : ∀ middleware ∈ executor.middleware, middleware.Timed

theorem Executor.Timed.fieldProgram {executor : Executor} (htimed : executor.Timed) (extensions : List (String × Json))
    (call : FieldCall) : (executor.fieldProgram extensions call).Timed := by
  rw [Executor.fieldProgram]
  have hmiddleware := htimed.middleware
  generalize executor.middleware = middleware at hmiddleware ⊢
  induction middleware generalizing call with
  | nil =>
    dsimp only [List.foldr_nil]
    cases hlookup : executor.resolvers.lookup (call.parentType, call.field.name) with
    | some resolver =>
      obtain ⟨front, back, hresolvers, -⟩ := List.lookup_eq_some_iff.1 hlookup
      have hmem : ((call.parentType, call.field.name), resolver) ∈ executor.resolvers := by simp [hresolvers]
      exact htimed.resolvers _ hmem extensions call
    | none =>
      dsimp only
      cases executor.bindings.resolve call.parentType call.field.name call.parent with
      | ok value => exact ⟨0, _, .done _⟩
      | error message => exact ⟨0, _, .done _⟩
  | cons outer inner ih =>
    rw [List.foldr_cons]
    apply hmiddleware outer List.mem_cons_self
    intro call
    exact ih call fun other hother => hmiddleware other (List.mem_cons_of_mem _ hother)

end Execution

end RelationalGraphQL
