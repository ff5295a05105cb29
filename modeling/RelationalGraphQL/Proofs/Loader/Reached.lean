import RelationalGraphQL.Proofs.Loader.Serving

/-!
# Timelines that come about

A batch that is being loaded is in the hands of at most one job, which calls the batch function for it or ends it, and
no job is of a batch that was not sent off. A loader that has nothing in flight has therefore no such job
(`Attended.at_rest`). This holds of every timeline that comes about by loads, by jobs that run, by the clock and by
changes to what is remembered (`Reached`).
-/

namespace RelationalGraphQL.Loader

/-- Whether a job calls the batch function for a batch, or ends it. -/
def Job.carries (loader batch : Nat) : Job → Bool
  | .timer _ _ | .fire _ _ => false
  | .start other id | .finish other id _ => other = loader && id = batch

/-- Whether a job, if it is a timer, is that of a batch numbered below a bound. -/
def Job.TimesBelow (bound : Nat) : Job → Prop
  | .timer _ batch | .fire _ batch => batch < bound
  | .start _ _ | .finish _ _ _ => True

theorem Job.TimesBelow.mono {bound larger : Nat} {job : Job} (hbelow : job.TimesBelow bound) (hle : bound ≤ larger) :
    job.TimesBelow larger := by
  cases job with
  | timer | fire => exact Nat.lt_of_lt_of_le hbelow hle
  | start | finish => trivial

theorem Job.carries_eq_false {loader : Nat} {job : Job} (hne : job.loader ≠ loader) (batch : Nat) :
    job.carries loader batch = false := by
  cases job with
  | timer | fire => rfl
  | start other id | finish other id =>
    have hne : other ≠ loader := hne
    simp [carries, hne]

/-- A job that carries a batch carries no other. -/
theorem Job.carries_eq {loader batch : Nat} {job : Job} (hcarries : job.carries loader batch) (other : Nat) :
    job.carries loader other = decide (batch = other) := by
  cases job with
  | timer | fire => cases hcarries
  | start place id | finish place id =>
    simp only [carries, Bool.and_eq_true, decide_eq_true_eq] at hcarries
    obtain ⟨rfl, rfl⟩ := hcarries
    simp [carries]

def Effect.jobs (effect : Effect) : List Job := (effect.later.map Prod.snd).toList

/-- What the jobs of a loader have to do with its state. -/
structure Attended (loader : Nat) (jobs : List Job) (state : State String Json) : Prop where
  coherent : state.Coherent
  nonempty : ∀ batch ∈ state.batches, batch.keys ≠ []
  timers : ∀ job ∈ jobs, job.loader = loader → job.TimesBelow state.nextBatch
  carried : ∀ batch, jobs.countP (Job.carries loader batch) ≤ if batch ∈ state.dispatched.map Batch.id then 1 else 0

namespace Attended

variable {loader id : Nat} {job next : Job} {jobs jobs' : List Job} {state : State String Json}

theorem perm (h : Attended loader jobs state) (hperm : jobs.Perm jobs') : Attended loader jobs' state where
  coherent := h.coherent
  nonempty := h.nonempty
  timers := fun job hjob => h.timers job (hperm.mem_iff.2 hjob)
  carried := fun batch => hperm.countP_eq _ ▸ h.carried batch

theorem tail (h : Attended loader (job :: jobs) state) : Attended loader jobs state where
  coherent := h.coherent
  nonempty := h.nonempty
  timers := fun other hother => h.timers other (List.mem_cons_of_mem _ hother)
  carried := by
    intro batch
    have hcount := h.carried batch
    rw [List.countP_cons] at hcount
    omega

/-- A job that carries no batch of the loader. -/
theorem cons (h : Attended loader jobs state) (hcarries : ∀ batch, job.carries loader batch = false)
    (htimer : job.loader = loader → job.TimesBelow state.nextBatch) : Attended loader (job :: jobs) state where
  coherent := h.coherent
  nonempty := h.nonempty
  timers := by
    intro other hother
    rcases List.mem_cons.1 hother with rfl | hother
    · exact htimer
    · exact h.timers other hother
  carried := by
    intro batch
    rw [List.countP_cons_of_neg (by simp [hcarries batch])]
    exact h.carried batch

theorem rest (h : Attended loader jobs state) (cache : List (String × Json)) (timers : List Nat) :
    Attended loader jobs { state with cache, timers } where
  coherent := (State.Move.rest cache timers).coherent h.coherent
  nonempty := h.nonempty
  timers := h.timers
  carried := h.carried

/-- A job hands its batch over to the one that ends it. -/
theorem hand (h : Attended loader (job :: jobs) state) (hcarries : job.carries loader id)
    (results : Option (List (Except LoadError Json))) :
    Attended loader (.finish loader id results :: jobs) state where
  coherent := h.coherent
  nonempty := h.nonempty
  timers := by
    intro other hother hloader
    rcases List.mem_cons.1 hother with rfl | hother
    · trivial
    · exact h.timers other (List.mem_cons_of_mem _ hother) hloader
  carried := by
    intro batch
    have hcount := h.carried batch
    have hnew : (Job.finish loader id results).carries loader id := by simp [Job.carries]
    rw [List.countP_cons, Job.carries_eq hcarries] at hcount
    rwa [List.countP_cons, Job.carries_eq hnew]

/-- The job that carries a batch ends it. -/
theorem conclude (h : Attended loader (job :: jobs) state) (hcarries : job.carries loader id)
    (results : Option (List (Except LoadError Json))) : Attended loader jobs (state.conclude id results).2 := by
  cases hfound : state.dispatched.find? (fun batch => batch.id = id) with
  | none =>
    rw [State.conclude_of_find?_eq_none hfound]
    exact h.tail
  | some batch =>
    obtain ⟨-, cache, hstate⟩ := State.conclude_of_find? hfound results
    have hmoves := State.release_moves hfound cache
    obtain ⟨hsubset, hnext⟩ := hmoves.batches_subset (by simp)
    have hid : batch.id = id := by simpa using List.find?_some hfound
    rw [hstate]
    refine ⟨hmoves.coherent h.coherent, fun other hother => h.nonempty other (hsubset hother), ?_, ?_⟩
    · rw [hnext]
      exact h.tail.timers
    · intro other
      by_cases heq : id = other
      · -- the job was the only one to carry the batch
        have hcount := h.carried other
        rw [List.countP_cons_of_pos (by simp [Job.carries_eq hcarries, heq])] at hcount
        split at hcount <;> omega
      · have hmem :
            other ∈ ((state.release batch).dispatched).map Batch.id ↔ other ∈ state.dispatched.map Batch.id := by
          simp only [State.release, List.mem_map, List.mem_filter, hid]
          grind
        change _ ≤ if other ∈ ((state.release batch).dispatched).map Batch.id then 1 else 0
        simp only [hmem]
        exact h.tail.carried other

/-- The pending batch is sent off with a job that calls the batch function for it. -/
theorem send (h : Attended loader jobs state) {batch : Batch String} (hpending : state.pending = some batch) :
    Attended loader (.start loader batch.id :: jobs) (state.dispatch batch) := by
  have hmoves : State.Moves (· = .nothing) state (state.dispatch batch) := .single ⟨_, rfl, .dispatch batch hpending⟩
  obtain ⟨hsubset, hnext⟩ := hmoves.batches_subset (by simp)
  have hstart : (Job.start loader batch.id).carries loader batch.id := by simp [Job.carries]
  refine ⟨hmoves.coherent h.coherent, fun other hother => h.nonempty other (hsubset hother), ?_, ?_⟩
  · rw [hnext]
    intro other hother hloader
    rcases List.mem_cons.1 hother with rfl | hother
    · trivial
    · exact h.timers other hother hloader
  · intro other
    have hcount := h.carried other
    have hmem : other ∈ (state.dispatch batch).dispatched.map Batch.id ↔
        other ∈ state.dispatched.map Batch.id ∨ other = batch.id := by
      simp [State.dispatch, eq_comm]
    simp only [List.countP_cons, Job.carries_eq hstart, hmem, decide_eq_true_eq]
    by_cases heq : batch.id = other
    · -- the number of the pending batch is not that of a batch under way
      have hnew : other ∉ state.dispatched.map Batch.id := by
        rw [← heq, List.mem_map]
        rintro ⟨earlier, hearlier, hid⟩
        have hne := h.coherent.pendingBatch_id_ne hearlier
        rw [State.pendingBatch, hpending] at hne
        exact hne hid.symm
      rw [if_neg hnew] at hcount
      rw [if_pos heq, if_pos (.inr heq.symm)]
      omega
    · simpa only [heq, Ne.symm heq, or_false, if_false, Nat.add_zero] using hcount

variable {definition : Option Definition} {count : Nat}

theorem start (h : Attended loader (job :: jobs) state) (hcarries : job.carries loader id) :
    let effect := Effect.start definition count loader id state
    Attended loader (effect.jobs ++ jobs) effect.state := by
  cases definition with
  | none => exact h.tail
  | some definition =>
    unfold Effect.start
    dsimp only
    split
    · exact h.conclude hcarries _
    · exact h.hand hcarries _

theorem fire (h : Attended loader jobs state) (id : Nat) :
    let effect := Effect.fire definition count loader id state
    Attended loader (effect.jobs ++ jobs) effect.state := by
  unfold Effect.fire
  dsimp only
  rcases State.fire_cases id state with ⟨batch, hpending, rfl, hfire⟩ | ⟨-, hfire⟩
  · have hcarries : (Job.start loader batch.id).carries loader batch.id := by simp [Job.carries]
    rw [hfire]
    exact ((h.rest state.cache (state.timers.erase batch.id)).send hpending).start hcarries
  · rw [hfire]
    exact h.rest _ _

theorem ofJob (h : Attended job.loader (job :: jobs) state) :
    let effect := Effect.ofJob definition count state job
    Attended job.loader (effect.jobs ++ jobs) effect.state := by
  cases job with
  | timer loader batch =>
    dsimp only [Effect.ofJob]
    split
    · exact h.tail.fire batch
    · have htimer : batch < state.nextBatch := h.timers (.timer loader batch) List.mem_cons_self rfl
      exact h.tail.cons (fun _ => rfl) fun _ => htimer
  | fire loader batch => exact h.tail.fire batch
  | start loader batch => exact h.start (by simp [Job.carries, Job.loader])
  | finish loader batch results => exact h.conclude (by simp [Job.carries, Job.loader]) results

theorem foreign (h : Attended loader jobs state) {more : List Job} (hmore : ∀ job ∈ more, job.loader ≠ loader) :
    Attended loader (more ++ jobs) state := by
  induction more with
  | nil => exact h
  | cons job more ih =>
    have hne := hmore job List.mem_cons_self
    exact (ih fun other hother => hmore other (List.mem_cons_of_mem _ hother)).cons (Job.carries_eq_false hne)
      fun heq => absurd heq hne

theorem empty (loader : Nat) : Attended loader [] {} where
  coherent := History.coherent_after 0 []
  nonempty := by simp [State.batches]
  timers := by simp
  carried := by simp

theorem join (h : Attended loader jobs state) {key : String} (hkey : key ∉ state.inFlight.map Prod.fst) (ticket : Nat) :
    Attended loader jobs (state.join key ticket) where
  coherent := (State.Move.register key ticket (.join hkey)).coherent h.coherent
  nonempty := by
    intro batch hbatch
    rcases List.mem_append.1 hbatch with hbatch | hbatch
    · exact h.nonempty batch (List.mem_append_left _ hbatch)
    · obtain rfl := List.mem_singleton.1 hbatch
      exact List.ne_nil_of_mem ((Batch.mem_keys_add h.coherent.waiters_pendingBatch).2 (.inr rfl))
  timers := fun job hjob hloader => (h.timers job hjob hloader).mono (State.nextBatch_le_join key ticket state)
  carried := h.carried

/-- A load is received, and what it demands is to be done. -/
theorem load (h : Attended loader jobs state) {maxBatch ticket : Nat} {key : String} {demand : Demand}
    {later : State String Json} (hload : state.load maxBatch key ticket = (.waiting demand, later)) :
    Attended loader (demand.jobs loader ++ jobs) later := by
  cases hcache : state.cache.lookup key with
  | some value =>
    rw [State.load_of_lookup_eq_some hcache] at hload
    cases hload
  | none =>
    obtain ⟨_, _, hwaiting, hreceived⟩ := State.received hcache maxBatch ticket
    rw [hload] at hwaiting
    cases hwaiting
    cases hreceived with
    | late hkey =>
      have hcoherent := (State.Move.register key ticket (.late hkey)).coherent h.coherent
      exact ⟨hcoherent, h.nonempty, h.timers, h.carried⟩
    | joined hkey => exact h.join hkey ticket
    | opened hkey _ timers =>
      have hnumber := h.coherent.pendingBatch_id_lt key ticket
      exact ((h.join hkey ticket).rest state.cache timers).cons (fun _ => rfl) fun _ => hnumber
    | filled hkey => exact (h.join hkey ticket).send rfl

/-- A loader with nothing pending and nothing in flight has no batch, and of its jobs only timers are left, which come
too late. -/
theorem at_rest (h : Attended loader jobs state) (hinFlight : state.inFlight = []) : state.dispatched = [] ∧
    ∀ job ∈ jobs, job.loader = loader →
      ∃ batch < state.nextBatch, job = .timer loader batch ∨ job = .fire loader batch := by
  have hdispatched : state.dispatched = [] := by
    have hkeys := h.coherent.inFlight
    rw [hinFlight, List.map_nil, eq_comm, List.flatMap_eq_nil_iff] at hkeys
    rw [List.eq_nil_iff_forall_not_mem]
    exact fun batch hbatch => h.nonempty batch (List.mem_append_left _ hbatch) (hkeys batch hbatch)
  refine ⟨hdispatched, fun job hjob hloader => ?_⟩
  have hidle (batch : Nat) : ¬ job.carries loader batch := by
    have hcount := h.carried batch
    rw [hdispatched, List.map_nil, if_neg List.not_mem_nil, Nat.le_zero, List.countP_eq_zero] at hcount
    exact hcount job hjob
  have htimer := h.timers job hjob hloader
  cases job with
  | timer other batch =>
    obtain rfl : other = loader := hloader
    exact ⟨batch, htimer, .inl rfl⟩
  | fire other batch =>
    obtain rfl : other = loader := hloader
    exact ⟨batch, htimer, .inr rfl⟩
  | start other batch | finish other batch =>
    obtain rfl : other = loader := hloader
    exact absurd (by simp [Job.carries]) (hidle batch)

end Attended

namespace Timeline

variable {timeline : Timeline} {job : Job} {queue : List Job} {definitions : List Definition} {owners : Nat}
  {action : State String Json → State String Json}

def jobsBehind (queue : List Job) (timeline : Timeline) : List Job := queue ++ timeline.sleeping.map Prod.snd

theorem jobsBehind_absorb (queue : List Job) (loader : Nat) (user : Instance) (effect : Effect) :
    (jobsBehind queue (timeline.absorb loader user effect)).Perm (effect.jobs ++ timeline.jobsBehind queue) := by
  rw [jobsBehind, jobsBehind, absorb, Effect.jobs]
  cases effect.later with
  | none => exact .refl _
  | some left => exact (((insertSleeping_perm _ _ _).map Prod.snd).append_left queue).trans List.perm_middle

/-- Every batch of every loader is taken care of. -/
structure Tended (queue : List Job) (timeline : Timeline) : Prop where
  calls : timeline.calls.length = timeline.definitions.length
  attended : ∀ loader user, timeline.instances[loader]? = some user →
    Attended loader (timeline.jobsBehind queue) user.state

theorem Tended.run (h : timeline.Tended (job :: queue)) : (timeline.run job).Tended queue := by
  cases huser : timeline.instances[job.loader]? with
  | none =>
    rw [run_eq_self huser]
    exact ⟨h.calls, fun loader user huser => (h.attended loader user huser).tail⟩
  | some user =>
    have hcalls : (timeline.run job).calls.length = timeline.calls.length := by
      rcases run_calls huser with hcalls | ⟨keys, hcalls⟩
      · rw [hcalls]
      · rw [hcalls, callsWith, List.length_set]
    obtain ⟨count, calls, hrun⟩ := run_eq huser
    have hperm := timeline.jobsBehind_absorb queue job.loader user
      (.ofJob timeline.definitions[user.definition]? count user.state job)
    rw [hrun] at hcalls ⊢
    refine ⟨hcalls.trans h.calls, fun loader other hother => ?_⟩
    by_cases heq : loader = job.loader
    · obtain rfl := heq
      obtain rfl := Option.some.inj ((instance_set huser _).symm.trans hother)
      exact ((h.attended job.loader user huser).ofJob).perm hperm.symm
    · have hother : timeline.instances[loader]? = some other :=
        (List.getElem?_set_ne (Ne.symm heq)).symm.trans hother
      refine ((h.attended loader other hother).tail.foreign fun next hnext => ?_).perm hperm.symm
      obtain ⟨⟨duration, left⟩, hleft, rfl⟩ := Option.map_eq_some_iff.1 (Option.mem_toList.1 hnext)
      exact (Effect.ofJob_later hleft).2.1 ▸ Ne.symm heq

theorem Tended.runAll (h : timeline.Tended queue) : (queue.foldl Timeline.run timeline).Tended [] := by
  induction queue generalizing timeline with
  | nil => exact h
  | cons job queue ih => exact ih h.run

theorem Tended.runReady (h : timeline.Tended timeline.ready) : timeline.runReady.Tended timeline.runReady.ready := by
  have hbegun : Tended timeline.ready { timeline with ready := [] } := ⟨h.calls, h.attended⟩
  rw [runReady_ready]
  exact hbegun.runAll

theorem Tended.moveTo (h : timeline.Tended timeline.ready) (time : Nat) :
    (timeline.moveTo time).Tended (timeline.moveTo time).ready := by
  have hjobs : (timeline.moveTo time).jobsBehind (timeline.moveTo time).ready = timeline.jobsBehind timeline.ready := by
    rw [jobsBehind, jobsBehind, Timeline.moveTo, List.append_assoc, ← List.map_append,
      List.takeWhile_append_dropWhile]
  exact ⟨h.calls, fun loader user huser => hjobs ▸ h.attended loader user huser⟩

theorem Tended.request (h : timeline.Tended timeline.ready) (loader : Nat) (key : String) :
    let later := (timeline.request loader key).2
    later.Tended later.ready := by
  have hrequested := requested loader key timeline
  generalize timeline.request loader key = result at hrequested ⊢
  cases hrequested with
  | missing _ => exact h
  | cached _ _ => exact h
  | @waiting user demand state huser hload =>
    refine ⟨h.calls, fun other another hanother => ?_⟩
    have hperm : (demand.jobs loader ++ timeline.jobsBehind timeline.ready).Perm
        ((timeline.ready ++ demand.jobs loader) ++ timeline.sleeping.map Prod.snd) := by
      rw [jobsBehind, ← List.append_assoc]
      exact List.perm_append_comm.append_right _
    by_cases heq : other = loader
    · obtain rfl := heq
      obtain rfl := Option.some.inj ((instance_set huser _).symm.trans hanother)
      exact ((h.attended other user huser).load hload).perm hperm
    · have hanother : timeline.instances[other]? = some another :=
        (List.getElem?_set_ne (Ne.symm heq)).symm.trans hanother
      refine ((h.attended other another hanother).foreign fun job hjob => ?_).perm hperm
      exact Demand.loader_of_mem_jobs hjob ▸ Ne.symm heq

theorem Tended.poll (h : timeline.Tended timeline.ready) (strand : Strand) :
    let later := (timeline.poll strand).2
    later.Tended later.ready := pollAll_preserves (fun later => later.Tended later.ready) Tended.request h [strand]

theorem Tended.change (h : timeline.Tended timeline.ready) (loader : Nat)
    (haction : ∀ state, ∃ cache, action state = { state with cache }) :
    let later := (timeline.step loader fun state => ((), action state)).2
    later.Tended later.ready := by
  dsimp only
  rw [step]
  cases huser : timeline.instances[loader]? with
  | none => exact h
  | some user =>
    refine ⟨h.calls, fun other another hanother => ?_⟩
    by_cases heq : other = loader
    · obtain rfl := heq
      obtain rfl := Option.some.inj ((instance_set huser _).symm.trans hanother)
      obtain ⟨cache, hcache⟩ := haction user.state
      dsimp only
      rw [hcache]
      exact (h.attended other user huser).rest cache user.state.timers
    · exact h.attended other another ((List.getElem?_set_ne (Ne.symm heq)).symm.trans hanother)

theorem Tended.instance? (h : timeline.Tended timeline.ready) (hsound : timeline.Sound definitions owners) (owner : Nat)
    (name : String) : let later := (timeline.instance? owner name).2
    later.Tended later.ready := by
  rw [Timeline.instance?]
  dsimp only
  split
  · exact h
  · split
    · exact h
    · refine ⟨h.calls, fun loader user huser => ?_⟩
      by_cases hloader : loader < timeline.instances.length
      · exact h.attended loader user ((List.getElem?_append_left hloader).symm.trans huser)
      · -- the new loader has done nothing yet, and no job is its own
        have hjobs : ∀ job ∈ timeline.jobsBehind timeline.ready, job.loader ≠ loader := by
          intro job hjob
          rcases List.mem_append.1 hjob with hjob | hjob
          · have hlt := hsound.ready job hjob
            omega
          · obtain ⟨entry, hentry, rfl⟩ := List.mem_map.1 hjob
            have hlt := hsound.sleeping entry hentry
            omega
        have hlast := (List.getElem?_append_right (Nat.le_of_not_lt hloader)).symm.trans huser
        obtain rfl := List.mem_singleton.1 (List.mem_of_getElem? hlast)
        have hattended := (Attended.empty loader).foreign hjobs
        rwa [List.append_nil] at hattended

theorem Sound.mono (hsound : timeline.Sound definitions owners) {more : Nat} (hle : owners ≤ more) :
    timeline.Sound definitions more :=
  { hsound with instances := hsound.instances.mono hle (Nat.le_refl _) }

theorem Sound.change (hsound : timeline.Sound definitions owners) (loader : Nat)
    (haction : ∀ state, ∃ cache, action state = { state with cache }) :
    (timeline.step loader fun state => ((), action state)).2.Sound definitions owners := by
  rw [step]
  cases huser : timeline.instances[loader]? with
  | none => exact hsound
  | some user =>
    have hbelow := (hsound.instances user (List.mem_of_getElem? huser)).2
    have hstate : (action user.state).TicketsBelow timeline.nextTicket := by
      obtain ⟨cache, hcache⟩ := haction user.state
      rw [hcache]
      exact fun f hf => congrArg (fun state : State String Json => { state with cache }) (hbelow f hf)
    refine { hsound with instances := hsound.instances.set huser hstate, ready := ?_, sleeping := ?_ }
    · simpa using hsound.ready
    · simpa using hsound.sleeping

/-- A timeline that comes about from the start on: loaders are asked for by name and for keys, what is ready runs, the
clock moves, and what a loader remembers is changed. -/
inductive Reached : Timeline → Prop where
  | start (definitions : List Definition) : Reached (ofDefinitions definitions)
  | adopt {timeline : Timeline} (hreached : Reached timeline) (owner : Nat) (name : String) :
      Reached (timeline.instance? owner name).2
  | look {timeline : Timeline} (hreached : Reached timeline) (strand : Strand) : Reached (timeline.poll strand).2
  | run {timeline : Timeline} (hreached : Reached timeline) : Reached timeline.runReady
  | move {timeline : Timeline} (hreached : Reached timeline) (time : Nat) : Reached (timeline.moveTo time)
  | change {timeline : Timeline} (hreached : Reached timeline) (loader : Nat)
      {action : State String Json → State String Json}
      (haction : ∀ state, ∃ cache, action state = { state with cache }) :
      Reached (timeline.step loader fun state => ((), action state)).2

theorem Reached.tended (hreached : timeline.Reached) :
    (∃ definitions owners, timeline.Sound definitions owners) ∧ timeline.Tended timeline.ready := by
  induction hreached with
  | start definitions =>
    refine ⟨⟨definitions, 0, sound_ofDefinitions definitions 0⟩, List.length_map _, fun loader user huser => ?_⟩
    cases huser
  | adopt _ owner name ih =>
    obtain ⟨⟨definitions, owners, hsound⟩, htended⟩ := ih
    have hmore := hsound.mono (Nat.le_add_right owners (owner + 1))
    exact ⟨⟨definitions, _, hmore.instance? (by omega) name⟩, htended.instance? hsound owner name⟩
  | look _ strand ih =>
    obtain ⟨⟨definitions, owners, hsound⟩, htended⟩ := ih
    exact ⟨⟨definitions, owners, hsound.poll strand⟩, htended.poll strand⟩
  | run _ ih =>
    obtain ⟨⟨definitions, owners, hsound⟩, htended⟩ := ih
    exact ⟨⟨definitions, owners, hsound.runReady⟩, htended.runReady⟩
  | move _ time ih =>
    obtain ⟨⟨definitions, owners, hsound⟩, htended⟩ := ih
    exact ⟨⟨definitions, owners, hsound.moveTo time⟩, htended.moveTo time⟩
  | change _ loader haction ih =>
    obtain ⟨⟨definitions, owners, hsound⟩, htended⟩ := ih
    exact ⟨⟨definitions, owners, hsound.change loader haction⟩, htended.change loader haction⟩

end Timeline

end RelationalGraphQL.Loader
