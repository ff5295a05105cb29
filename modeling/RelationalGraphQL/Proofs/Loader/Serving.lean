import RelationalGraphQL.Proofs.Loader.Gathering
import RelationalGraphQL.Proofs.Loader.Turns

/-!
# How gathered requests are served

The keys asked of a loader at rest make a round: their chunks stand in batches of consecutive numbers, some sent off
already, the last perhaps still pending. Whatever runs meanwhile, the chunks are called in order, each once
(`Round.Lined`), and every ticket waits for the batch of its chunk or has the answer which its key got there
(`Round.Tracks`). `Serving.run` says that each job keeps this, one case for each kind of job and one for the jobs of
other loaders. As long as a ticket waits, something is due (`Serving.exists_due`).
-/

namespace RelationalGraphQL.Loader

variable {κ ν : Type}

/-! ### The end of a batch -/

/-- What the keys of a batch get when it ends with some results, or with none. -/
def outcomesFor (keys : List κ) : Option (List (Except LoadError ν)) → List (Except LoadError ν)
  | some results => State.aligned keys results
  | none => keys.map fun _ => .error .dropped

theorem length_outcomesFor (keys : List κ) (results : Option (List (Except LoadError ν))) :
    (outcomesFor keys results).length = keys.length := by
  cases results with
  | some results => exact State.length_aligned keys results
  | none => exact List.length_map _

theorem lookup_eq_head?_answersTo {α : Type} (ticket : Nat) (answers : List (Nat × α)) :
    answers.lookup ticket = (answersTo ticket answers).head? := by
  induction answers with
  | nil => rfl
  | cons answer answers ih =>
    obtain ⟨other, outcome⟩ := answer
    rw [List.lookup_cons, ih, ← List.singleton_append, answersTo_append]
    by_cases heq : ticket = other
    · simp [answersTo, heq]
    · rw [beq_eq_false_iff_ne.2 heq]
      simp [answersTo, Ne.symm heq]

theorem lookup_eq_none_of_lt {α : Type} {bound ticket : Nat} {answers : List (Nat × α)}
    (hbelow : ∀ answer ∈ answers, answer.1 < bound) (hle : bound ≤ ticket) : answers.lookup ticket = none := by
  rw [List.lookup_eq_none_iff]
  intro answer hanswer
  have hlt := hbelow answer hanswer
  rw [bne_iff_ne]
  omega

namespace State

variable [DecidableEq κ] {state : State κ ν} {id : Nat} {batch : Batch κ}

theorem conclude_of_find? (hfound : state.dispatched.find? (fun batch => batch.id = id) = some batch)
    (results : Option (List (Except LoadError ν))) :
    (state.conclude id results).1 = deliver (ticketsFor batch state) batch.keys (outcomesFor batch.keys results) ∧
      ∃ cache, (state.conclude id results).2 = { state.release batch with cache } := by
  cases results with
  | some results => exact settle_of_find? hfound results
  | none =>
    obtain ⟨hanswers, hstate⟩ := crash_of_find? hfound
    exact ⟨hanswers, state.cache, hstate⟩

theorem conclude_of_find?_eq_none (hnone : state.dispatched.find? (fun batch => batch.id = id) = none)
    (results : Option (List (Except LoadError ν))) : state.conclude id results = ([], state) := by
  cases results with
  | some results =>
    rw [conclude, settle, hnone]
  | none =>
    rw [conclude, crash, hnone]

theorem conclude_pending (id : Nat) (results : Option (List (Except LoadError ν))) (state : State κ ν) :
    (state.conclude id results).2.pending = state.pending := by
  cases hfound : state.dispatched.find? (fun batch => batch.id = id) with
  | none => rw [conclude_of_find?_eq_none hfound]
  | some batch =>
    obtain ⟨-, cache, hstate⟩ := conclude_of_find? hfound results
    rw [hstate]
    rfl

theorem Waits.exists_batch {ticket : Nat} {key : κ} (hwaits : state.Waits ticket key id) :
    ∃ batch ∈ state.batches, batch.id = id ∧ key ∈ batch.keys := by
  obtain ⟨place, hserves, -⟩ := hwaits
  cases place with
  | pending k =>
    obtain ⟨-, batch, hpending, hbatch⟩ := hserves
    exact ⟨batch, List.mem_append_right _ (Option.mem_toList.2 hpending), hbatch⟩
  | early i k =>
    obtain ⟨-, -, batch, hdispatched, hbatch⟩ := hserves
    exact ⟨batch, List.mem_append_left _ hdispatched, hbatch⟩
  | late k =>
    obtain ⟨-, batch, hdispatched, hbatch⟩ := hserves
    exact ⟨batch, List.mem_append_left _ hdispatched, hbatch⟩

/-- A timer sends its batch off if that is pending, and does nothing else. -/
theorem fire_cases (id : Nat) (state : State κ ν) :
    (∃ batch, state.pending = some batch ∧ batch.id = id ∧
      state.fire id = (some id, dispatch batch { state with timers := state.timers.erase id })) ∨
    (∀ batch ∈ state.pending, batch.id ≠ id) ∧
      state.fire id = (none, { state with timers := state.timers.erase id }) := by
  rw [fire]
  dsimp only
  cases hpending : state.pending with
  | none => exact .inr ⟨by simp, rfl⟩
  | some batch =>
    dsimp only
    by_cases hid : batch.id = id
    · rw [if_pos hid]
      exact .inl ⟨batch, rfl, hid, rfl⟩
    · rw [if_neg hid]
      refine .inr ⟨?_, rfl⟩
      rintro other ⟨⟩
      exact hid

end State

/-! ### A round of requests -/

/-- Keys asked of a loader at rest, and what was there before. -/
structure Round where
  loader : Nat
  /-- The place of the loader's definition. -/
  place : Nat
  definition : Definition
  /-- The keys of the calls before. -/
  calls : List (List String)
  /-- The number of the first batch. -/
  first : Nat
  /-- The ticket of the first key. -/
  ticket : Nat
  keys : List String

namespace Round

variable {round : Round} {called sent more place : Nat} {job : Job} {queue : List Job} {chunk : List String}

def chunks (round : Round) : List (List String) :=
  Loader.chunks (max 1 round.definition.maxBatch) round.keys.eraseDups

def results (round : Round) (place : Nat) (chunk : List String) : Option (List (Except LoadError Json)) :=
  (round.definition.batch (round.calls.length + place) chunk).results

/-- What may be due, other than a call of this round, once so many chunks were called: timers of batches up to the next
one, the ends of calls, and anything that is another loader's. -/
def Allows (round : Round) (called : Nat) : Job → Prop
  | .timer loader batch | .fire loader batch => loader = round.loader → batch ≤ round.first + called
  | .start loader _ => loader ≠ round.loader
  | .finish loader batch results => loader = round.loader →
      ∃ place < called, ∃ chunk, round.chunks[place]? = some chunk ∧ batch = round.first + place ∧
        results = round.results place chunk

theorem Allows.mono (hallows : round.Allows called job) (hle : called ≤ more) : round.Allows more job := by
  cases job with
  | timer loader batch | fire loader batch =>
    intro hloader
    have hbatch := hallows hloader
    omega
  | start loader batch => exact hallows
  | finish loader batch results =>
    intro hloader
    obtain ⟨place, hplace, hchunk⟩ := hallows hloader
    exact ⟨place, by omega, hchunk⟩

theorem allows_of_ne (hloader : job.loader ≠ round.loader) : round.Allows called job := by
  cases job with
  | start loader batch => exact hloader
  | _ => exact fun heq => absurd heq hloader

/-- A queue in which the calls that are still to be made stand in order, up to those of the batches that were sent
off. -/
inductive Lined (round : Round) : Nat → List Job → Nat → Prop where
  | nil {called : Nat} : Lined round called [] called
  | pass {called sent : Nat} {job : Job} {queue : List Job} (hallows : round.Allows called job)
      (hrest : Lined round called queue sent) : Lined round called (job :: queue) sent
  | start {called sent : Nat} {queue : List Job} (hrest : Lined round (called + 1) queue sent) :
      Lined round called (.start round.loader (round.first + called) :: queue) sent

theorem Lined.le (hlined : round.Lined called queue sent) : called ≤ sent := by
  induction hlined with
  | nil => exact Nat.le_refl _
  | pass _ _ ih => exact ih
  | start _ ih => omega

theorem Lined.allow (hlined : round.Lined called queue sent) (hallows : round.Allows sent job) :
    round.Lined called (queue ++ [job]) sent := by
  induction hlined with
  | nil => exact .pass hallows .nil
  | pass hfirst _ ih => exact .pass hfirst (ih hallows)
  | start _ ih => exact .start (ih hallows)

theorem Lined.send (hlined : round.Lined called queue sent) :
    round.Lined called (queue ++ [.start round.loader (round.first + sent)]) (sent + 1) := by
  induction hlined with
  | nil => exact .start .nil
  | pass hfirst _ ih => exact .pass hfirst ih
  | start _ ih => exact .start ih

theorem lined_of_allows (hallows : ∀ job ∈ queue, round.Allows called job) : round.Lined called queue called := by
  induction queue with
  | nil => exact .nil
  | cons job queue ih =>
    exact .pass (hallows job List.mem_cons_self) (ih fun other hother => hallows other (List.mem_cons_of_mem _ hother))

/-- When every batch that was sent off was called, another may be sent off and called at once. -/
theorem Lined.next (hlined : round.Lined called queue sent) (hdone : sent ≤ called) :
    round.Lined (called + 1) queue (called + 1) := by
  induction hlined with
  | nil => exact .nil
  | pass hallows _ ih => exact .pass (hallows.mono (Nat.le_succ _)) (ih hdone)
  | start hrest _ =>
    have hle := hrest.le
    omega

/-! ### What the loader holds -/

/-- The batches of a round that have not ended, when some were sent off and some of those called. -/
structure Held (round : Round) (called sent : Nat) (state : State String Json) : Prop where
  coherent : state.Coherent
  known : ∀ batch ∈ state.batches, ∃ place, batch.id = round.first + place ∧ round.chunks[place]? = some batch.keys
  pending : ∀ batch ∈ state.pending, batch.id = round.first + sent
  dispatched : ∀ batch ∈ state.dispatched, batch.id < round.first + sent
  queued : ∀ place, called ≤ place → place < sent → round.first + place ∈ state.dispatched.map Batch.id
  le : called ≤ sent
  bound : sent ≤ round.chunks.length

/-- A ticket that waits for its key, or has the answer that the key got in its chunk. A chunk that was called, and has
not ended, is carried by some job. -/
inductive Tracks (round : Round) (called : Nat) (carried : Nat → Prop) (state : State String Json)
    (answers : List (Nat × Except LoadError Json)) (ticket : Nat) (key : String) : Prop where
  | waiting {place : Nat} (hwaits : state.Waits ticket key (round.first + place))
      (hnone : answers.lookup ticket = none) (hcarried : place < called → carried place)
  | answered {place : Nat} {chunk : List String} {outcome : Except LoadError Json} (hplace : place < called)
      (hchunk : round.chunks[place]? = some chunk) (hkey : key ∈ chunk)
      (houtcome : (outcomesFor chunk (round.results place chunk))[chunk.idxOf key]? = some outcome)
      (hsome : answers.lookup ticket = some outcome)

variable {state : State String Json} {carried carried' : Nat → Prop} {answers more : List (Nat × Except LoadError Json)}
  {ticket : Nat} {key : String} {batch : Batch String} {state' : State String Json}

theorem Held.keys_eq (hheld : round.Held called sent state) (hbatch : batch ∈ state.batches)
    (hid : batch.id = round.first + place) : round.chunks[place]? = some batch.keys := by
  obtain ⟨other, hother, hchunk⟩ := hheld.known batch hbatch
  obtain rfl : place = other := by omega
  exact hchunk

theorem Held.mem_dispatched (hheld : round.Held called sent state) (hbatch : batch ∈ state.batches)
    (hid : batch.id = round.first + place) (hlt : place < sent) : batch ∈ state.dispatched := by
  refine (List.mem_append.1 hbatch).resolve_right fun hpending => ?_
  have hlast := hheld.pending batch (Option.mem_toList.1 hpending)
  omega

theorem Held.advance (hheld : round.Held called sent state) (hlt : called < sent) :
    round.Held (called + 1) sent state where
  coherent := hheld.coherent
  known := hheld.known
  pending := hheld.pending
  dispatched := hheld.dispatched
  queued := fun place hle => hheld.queued place (by omega)
  le := hlt
  bound := hheld.bound

/-- The next batch to call is that of the next chunk. -/
theorem Held.keysOf_eq (hheld : round.Held called sent state) (hlt : called < sent) :
    round.chunks[called]? = some (state.keysOf (round.first + called)) := by
  obtain ⟨batch, hbatch, hid, hfound⟩ :=
    History.exists_find?_of_mem_ids (hheld.queued called (Nat.le_refl _) hlt)
  rw [State.keysOf, hfound]
  exact hheld.keys_eq (List.mem_append_left _ hbatch) hid

/-- Steps that take no ticket and end at most the batch of one chunk that was called. -/
theorem Held.moves {allowed : State.Change → Prop} (hheld : round.Held called sent state)
    (hmoves : State.Moves allowed state state') (hregister : ∀ ticket, ¬ allowed (.register ticket))
    (hpending : state'.pending = state.pending) (hdispatched : state'.dispatched ⊆ state.dispatched)
    (hkept : ∀ batch ∈ state.dispatched, round.first + called ≤ batch.id → batch ∈ state'.dispatched) :
    round.Held called sent state' where
  coherent := hmoves.coherent hheld.coherent
  known := fun batch hbatch => hheld.known batch ((hmoves.batches_subset hregister).1 hbatch)
  pending := hpending ▸ hheld.pending
  dispatched := fun batch hbatch => hheld.dispatched batch (hdispatched hbatch)
  queued := by
    intro place hle hlt
    obtain ⟨batch, hbatch, hid⟩ := List.mem_map.1 (hheld.queued place hle hlt)
    exact List.mem_map.2 ⟨batch, hkept batch hbatch (by omega), hid⟩
  le := hheld.le
  bound := hheld.bound

theorem Held.rest (hheld : round.Held called sent state) (timers : List Nat) :
    round.Held called sent { state with timers } :=
  hheld.moves (.single ⟨.nothing, rfl, .rest state.cache timers⟩ : State.Moves (· = .nothing) state _) (by simp) rfl
    (List.Subset.refl _) fun _ hbatch _ => hbatch

theorem Held.send (hheld : round.Held called sent state) (hpending : state.pending = some batch) :
    round.Held called (sent + 1) (state.dispatch batch) := by
  have hmoves : State.Moves (· = .nothing) state (state.dispatch batch) := .single ⟨_, rfl, .dispatch batch hpending⟩
  have hid := hheld.pending batch hpending
  have hbatch : batch ∈ state.batches := List.mem_append_right _ (Option.mem_toList.2 hpending)
  obtain ⟨hbound, -⟩ := List.getElem?_eq_some_iff.1 (hheld.keys_eq hbatch hid)
  refine ⟨hmoves.coherent hheld.coherent, ?_, by simp [State.dispatch], ?_, ?_, Nat.le_succ_of_le hheld.le, hbound⟩
  · exact fun other hother => hheld.known other ((hmoves.batches_subset (by simp)).1 hother)
  · refine List.forall_mem_append.2 ⟨fun other hother => ?_, List.forall_mem_singleton.2 (by omega)⟩
    have hlt := hheld.dispatched other hother
    omega
  · intro place hle hlt
    change _ ∈ (state.dispatched ++ [batch]).map Batch.id
    rw [List.map_append, List.mem_append]
    by_cases hplace : place < sent
    · exact .inl (hheld.queued place hle hplace)
    · obtain rfl : place = sent := by omega
      exact .inr (List.mem_singleton.2 hid.symm)

theorem Tracks.mono (htracks : round.Tracks called carried state answers ticket key) {further : Nat}
    (hle : called ≤ further) (carried' : Nat → Prop)
    (hcarried : ∀ place < further, (place < called → carried place) → carried' place) :
    round.Tracks further carried' state answers ticket key := by
  cases htracks with
  | waiting hwaits hnone hplace => exact .waiting hwaits hnone fun hlt => hcarried _ hlt hplace
  | answered hplace hchunk hkey houtcome hsome => exact .answered (by omega) hchunk hkey houtcome hsome

theorem Tracks.append (htracks : round.Tracks called carried state answers ticket key) {bound : Nat}
    (hbelow : ∀ answer ∈ more, answer.1 < bound) (hle : bound ≤ ticket) :
    round.Tracks called carried state (answers ++ more) ticket key := by
  cases htracks with
  | waiting hwaits hnone hplace =>
    refine .waiting hwaits ?_ hplace
    rw [List.lookup_append, hnone, Option.none_or, lookup_eq_none_of_lt hbelow hle]
  | answered hplace hchunk hkey houtcome hsome =>
    refine .answered hplace hchunk hkey houtcome ?_
    rw [List.lookup_append, hsome, Option.some_or]

/-- Steps that take no ticket and end no batch leave a ticket where it is. -/
theorem Tracks.moves (htracks : round.Tracks called carried state answers ticket key) (hcoherent : state.Coherent)
    (hmoves : State.Moves (· = .nothing) state state') : round.Tracks called carried state' answers ticket key := by
  cases htracks with
  | waiting hwaits hnone hplace => exact .waiting (hmoves.waits hcoherent (by simp) (by simp) hwaits) hnone hplace
  | answered hplace hchunk hkey houtcome hsome => exact .answered hplace hchunk hkey houtcome hsome

theorem Held.conclude (hheld : round.Held called sent state) (hplace : place < called)
    (results : Option (List (Except LoadError Json))) :
    round.Held called sent (state.conclude (round.first + place) results).2 := by
  cases hfound : state.dispatched.find? (fun batch => batch.id = round.first + place) with
  | none => rwa [State.conclude_of_find?_eq_none hfound]
  | some batch =>
    obtain ⟨-, cache, hstate⟩ := State.conclude_of_find? hfound results
    have hid : batch.id = round.first + place := by simpa using List.find?_some hfound
    rw [hstate]
    refine hheld.moves (State.release_moves hfound cache) (by simp) rfl List.filter_sublist.subset ?_
    intro other hother hle
    exact List.mem_filter.2 ⟨hother, by simpa using (by omega : other.id ≠ batch.id)⟩

/-- When the batch of a chunk ends, whoever waits for one of its keys is answered, and all others wait on. -/
theorem Tracks.conclude (htracks : round.Tracks called carried state answers ticket key)
    (hheld : round.Held called sent state) (hplace : place < called) (hchunk : round.chunks[place]? = some chunk)
    (hcarried : ∀ other, other ≠ place → carried other → carried' other) :
    let ended := state.conclude (round.first + place) (round.results place chunk)
    round.Tracks called carried' ended.2 (answers ++ ended.1) ticket key := by
  intro ended
  cases htracks with
  | answered hplace hchunk hkey houtcome hsome =>
    refine .answered hplace hchunk hkey houtcome ?_
    rw [List.lookup_append, hsome, Option.some_or]
  | @waiting other hwaits hnone hother =>
    cases hfound : state.dispatched.find? (fun batch => batch.id = round.first + place) with
    | none =>
      -- the batch was answered before, so whoever still waits, waits for another one
      have heq : other ≠ place := by
        rintro rfl
        obtain ⟨batch, hbatch, hid, -⟩ := hwaits.exists_batch
        have hdispatched := hheld.mem_dispatched hbatch hid (Nat.lt_of_lt_of_le hplace hheld.le)
        simpa [hid] using List.find?_eq_none.1 hfound batch hdispatched
      have hended : ended = ([], state) := State.conclude_of_find?_eq_none hfound _
      rw [hended, List.append_nil]
      exact .waiting hwaits hnone fun hlt => hcarried other heq (hother hlt)
    | some batch =>
      have hbatch := List.mem_of_find?_eq_some hfound
      have hid : batch.id = round.first + place := by simpa using List.find?_some hfound
      obtain rfl : chunk = batch.keys :=
        Option.some.inj (hchunk.symm.trans (hheld.keys_eq (List.mem_append_left _ hbatch) hid))
      obtain ⟨hanswers, cache, hstate⟩ := State.conclude_of_find? hfound (round.results place batch.keys)
      have hlookup : (answers ++ ended.1).lookup ticket = (answersTo ticket ended.1).head? := by
        rw [List.lookup_append, hnone, Option.none_or, lookup_eq_head?_answersTo]
      by_cases heq : other = place
      · obtain rfl := heq
        rw [← hid] at hwaits
        obtain ⟨outcome, houtcome, hsome⟩ :=
          hwaits.answersTo_deliver hheld.coherent hbatch (length_outcomesFor _ (round.results other batch.keys))
        refine .answered hplace hchunk (hwaits.place_of_dispatched hheld.coherent hbatch).1 houtcome ?_
        rw [hlookup, hanswers, hsome, List.head?_cons]
      · have hne : batch.id ≠ round.first + other := by omega
        refine .waiting ?_ ?_ fun hlt => hcarried other heq (hother hlt)
        · rw [hstate]
          refine (State.release_moves hfound cache).waits hheld.coherent (by simp) ?_ hwaits
          simpa using heq
        · rw [hlookup, hanswers,
            answersTo_deliver_eq_nil fun key hkey => hwaits.count_other hheld.coherent hbatch hne hkey]
          rfl

end Round

/-! ### Jobs that are due -/

namespace Timeline

variable {timeline : Timeline} {loader : Nat} {user : Instance} {effect : Effect} {job other : Job} {queue : List Job}

/-- A job that is to run, now or later. -/
def Due (queue : List Job) (sleeping : List (Nat × Job)) (job : Job) : Prop :=
  job ∈ queue ∨ ∃ time, (time, job) ∈ sleeping

theorem mem_sleeping_absorb_of_mem {entry : Nat × Job} (hentry : entry ∈ timeline.sleeping) :
    entry ∈ (timeline.absorb loader user effect).sleeping := by
  rw [absorb]
  cases effect.later with
  | none => exact hentry
  | some left => exact (insertSleeping_perm _ _ _).mem_iff.2 (List.mem_cons_of_mem _ hentry)

theorem Due.tail (hdue : Due (job :: queue) timeline.sleeping other) (hne : other ≠ job) :
    Due queue timeline.sleeping other :=
  hdue.imp_left fun hqueue => (List.mem_cons.1 hqueue).resolve_left hne

theorem Due.absorb (hdue : Due queue timeline.sleeping other) (loader : Nat) (user : Instance) (effect : Effect) :
    Due queue (timeline.absorb loader user effect).sleeping other := by
  rcases hdue with hqueue | ⟨time, hsleeping⟩
  · exact .inl hqueue
  · exact .inr ⟨time, mem_sleeping_absorb_of_mem hsleeping⟩

theorem mem_insertSleeping_self (due : Nat) (job : Job) (entries : List (Nat × Job)) :
    (due, job) ∈ insertSleeping due job entries := (insertSleeping_perm due job entries).mem_iff.2 List.mem_cons_self

theorem due_absorb_cases (hdue : Due queue (timeline.absorb loader user effect).sleeping other) :
    Due queue timeline.sleeping other ∨ ∃ duration, effect.later = some (duration, other) := by
  rcases hdue with hqueue | ⟨time, hsleeping⟩
  · exact .inl (.inl hqueue)
  · rcases mem_sleeping_absorb hsleeping with hsleeping | ⟨duration, next, hlater, hentry⟩
    · exact .inl (.inr ⟨time, hsleeping⟩)
    · cases hentry
      exact .inr ⟨duration, hlater⟩

theorem runReady_ready (timeline : Timeline) : timeline.runReady.ready = [] := by
  apply runReady_keeps fun later => later.ready = []
  · exact fun later job hready => (later.run_now_ready job).2.trans hready
  · rfl

/-- When the clock moves, what sleeps becomes ready or sleeps on. -/
theorem due_moveTo (hready : timeline.ready = []) (time : Nat) (job : Job) :
    Due (timeline.moveTo time).ready (timeline.moveTo time).sleeping job ↔
      Due timeline.ready timeline.sleeping job := by
  have hsplit (entry : Nat × Job) : entry ∈ timeline.sleeping ↔
      entry ∈ timeline.sleeping.takeWhile (fun entry => entry.1 ≤ time) ∨
        entry ∈ timeline.sleeping.dropWhile fun entry => entry.1 ≤ time := by
    rw [← List.mem_append, List.takeWhile_append_dropWhile]
  simp only [Due, moveTo, hready, hsplit, List.nil_append, List.not_mem_nil, false_or, List.mem_map, exists_or]
  refine or_congr_left ⟨?_, ?_⟩
  · rintro ⟨⟨due, other⟩, hentry, rfl⟩
    exact ⟨due, hentry⟩
  · rintro ⟨due, hentry⟩
    exact ⟨(due, job), hentry, rfl⟩

end Timeline

/-! ### A round on the timeline -/

namespace Round

open Timeline

/-- Where a round stands on a timeline when some jobs are still to run now: which calls were made, which jobs of its
loader are due, and that nothing else calls the batch function or answers the round's tickets. -/
structure Stage (round : Round) (called sent : Nat) (queue : List Job) (user : Instance) (timeline : Timeline) :
    Prop where
  definition : timeline.definitions[round.place]? = some round.definition
  found : timeline.instances[round.loader]? = some user
  place : user.definition = round.place
  calls : ∃ calls, timeline.calls[round.place]? = some calls ∧
    calls.map Call.keys = round.calls ++ round.chunks.take called
  lined : round.Lined called queue sent
  sleeping : ∀ entry ∈ timeline.sleeping, round.Allows called entry.2
  armed : ∀ batch ∈ user.state.pending,
    Due queue timeline.sleeping (.timer round.loader batch.id) ∨
      Due queue timeline.sleeping (.fire round.loader batch.id)
  others : ∀ loader other, loader ≠ round.loader → timeline.instances[loader]? = some other →
    other.state.TicketsBelow round.ticket
  alone : ∀ job, Due queue timeline.sleeping job → job.loader ≠ round.loader →
    ∀ other, timeline.instances[job.loader]? = some other → other.definition ≠ round.place

def Finishing (round : Round) (queue : List Job) (timeline : Timeline) (place : Nat) : Prop :=
  ∃ results, Due queue timeline.sleeping (.finish round.loader (round.first + place) results)

section

variable {round : Round} {job : Job} {queue : List Job} {timeline : Timeline} {place : Nat}

theorem Finishing.tail (hfinishing : round.Finishing (job :: queue) timeline place)
    (hfinish : ∀ batch results, .finish round.loader batch results ≠ job) : round.Finishing queue timeline place := by
  obtain ⟨results, hdue⟩ := hfinishing
  exact ⟨results, hdue.tail (hfinish _ _)⟩

theorem Finishing.absorb (hfinishing : round.Finishing queue timeline place) {loader : Nat} {user : Instance}
    {effect : Effect} {calls : List (List Call)} :
    round.Finishing queue { timeline.absorb loader user effect with calls } place := by
  obtain ⟨results, hdue⟩ := hfinishing
  exact ⟨results, hdue.absorb loader user effect⟩

end

/-- A round whose keys were all asked for. -/
structure Serving (round : Round) (called sent : Nat) (queue : List Job) (user : Instance) (timeline : Timeline) :
    Prop extends Stage round called sent queue user timeline where
  held : round.Held called sent user.state
  tracks : ∀ index key, round.keys[index]? = some key →
    round.Tracks called (round.Finishing queue timeline) user.state timeline.answers (round.ticket + index) key

variable {round : Round} {called sent called' sent' : Nat} {job : Job} {queue : List Job} {user : Instance}
  {timeline : Timeline} {batch : Nat} {effect : Effect} {calls : List (List Call)} {state : State String Json}
  {key : String} {other : Instance}

/-- A job of the round's own loader. -/
theorem Stage.absorb (hstage : round.Stage called sent (job :: queue) user timeline) (hle : called ≤ called')
    (hlined : round.Lined called' queue sent') (hcalls : ∃ made, calls[round.place]? = some made ∧
      made.map Call.keys = round.calls ++ round.chunks.take called')
    (hlater : ∀ duration next, effect.later = some (duration, next) →
      next.loader = round.loader ∧ round.Allows called' next) (harmed : ∀ batch ∈ effect.state.pending,
      Due queue timeline.sleeping (.timer round.loader batch.id) ∨
        Due queue (timeline.absorb round.loader user effect).sleeping (.fire round.loader batch.id)) :
    round.Stage called' sent' queue { user with state := effect.state }
      { timeline.absorb round.loader user effect with calls } := by
  obtain ⟨hloader, -⟩ := List.getElem?_eq_some_iff.1 hstage.found
  constructor
  · exact hstage.definition
  · exact List.getElem?_set_self hloader
  · exact hstage.place
  · exact hcalls
  · exact hlined
  · intro entry hentry
    have hentry : entry ∈ (timeline.absorb round.loader user effect).sleeping := hentry
    rcases mem_sleeping_absorb hentry with hentry | ⟨duration, next, hnext, rfl⟩
    · exact (hstage.sleeping entry hentry).mono hle
    · exact (hlater duration next hnext).2
  · exact fun batch hbatch => (harmed batch hbatch).imp_left fun hdue => hdue.absorb round.loader user effect
  · intro loader other hne hother
    refine hstage.others loader other hne ?_
    rwa [← List.getElem?_set_ne (Ne.symm hne)]
  · intro next hdue hne other hother
    have hdue : Due queue (timeline.absorb round.loader user effect).sleeping next := hdue
    rcases due_absorb_cases hdue with hdue | ⟨duration, hnext⟩
    · refine hstage.alone next (hdue.imp_left (List.mem_cons_of_mem _)) hne other ?_
      rwa [← List.getElem?_set_ne (Ne.symm hne)]
    · exact absurd (hlater duration next hnext).1 hne

/-- What is due for the pending batch stays so, unless it is what runs. -/
theorem Stage.armed_tail (hstage : round.Stage called sent (job :: queue) user timeline)
    (hother : ∀ batch ∈ user.state.pending,
      .timer round.loader batch.id ≠ job ∧ .fire round.loader batch.id ≠ job) :
    ∀ batch ∈ user.state.pending,
      Due queue timeline.sleeping (.timer round.loader batch.id) ∨
        Due queue timeline.sleeping (.fire round.loader batch.id) := by
  intro batch hbatch
  obtain ⟨htimer, hfire⟩ := hother batch hbatch
  exact (hstage.armed batch hbatch).imp (fun hdue => hdue.tail htimer) fun hdue => hdue.tail hfire

/-- What is tracked stays so when a job runs that ends no batch of the round. -/
theorem Tracks.absorb {answers : List (Nat × Except LoadError Json)} {ticket : Nat}
    (htracks : round.Tracks called (round.Finishing (job :: queue) timeline) state answers ticket key)
    (hfinish : ∀ batch results, .finish round.loader batch results ≠ job) {loader : Nat} :
    round.Tracks called (round.Finishing queue { timeline.absorb loader other effect with calls }) state answers ticket
      key :=
  htracks.mono (Nat.le_refl _) _ fun _ hplace hcarried => ((hcarried hplace).tail hfinish).absorb

/-- A job of another loader is nothing that the round waits for. -/
theorem Stage.skip (hstage : round.Stage called sent (job :: queue) user timeline)
    (hloader : job.loader ≠ round.loader) : round.Stage called sent queue user timeline := by
  have hrest : round.Lined called queue sent := by
    cases hstage.lined with
    | pass _ hrest => exact hrest
    | start _ => exact absurd rfl hloader
  have harmed := hstage.armed_tail fun _ _ => ⟨by rintro rfl; exact hloader rfl, by rintro rfl; exact hloader rfl⟩
  refine { hstage with lined := hrest, armed := harmed, alone := ?_ }
  exact fun next hdue => hstage.alone next (hdue.imp_left (List.mem_cons_of_mem _))

/-- What a job of another loader does, which calls another batch function and holds earlier tickets. -/
theorem Stage.absorb_other (hstage : round.Stage called sent queue user timeline) {place : Nat}
    (hloader : place ≠ round.loader) (hother : timeline.instances[place]? = some other)
    (hdefinition : other.definition ≠ round.place) (hcalls : calls[round.place]? = timeline.calls[round.place]?)
    (hlater : ∀ duration next, effect.later = some (duration, next) → next.loader = place)
    (hbelow : effect.state.TicketsBelow round.ticket) :
    round.Stage called sent queue user { timeline.absorb place other effect with calls } := by
  have hset {loader : Nat} (hne : loader ≠ place) :
      (timeline.instances.set place { other with state := effect.state })[loader]? = timeline.instances[loader]? :=
    List.getElem?_set_ne (Ne.symm hne)
  have hself := instance_set hother effect.state
  constructor
  · exact hstage.definition
  · exact (hset (Ne.symm hloader)).trans hstage.found
  · exact hstage.place
  · exact hcalls ▸ hstage.calls
  · exact hstage.lined
  · intro entry hentry
    have hentry : entry ∈ (timeline.absorb place other effect).sleeping := hentry
    rcases mem_sleeping_absorb hentry with hentry | ⟨duration, next, hnext, rfl⟩
    · exact hstage.sleeping entry hentry
    · exact allows_of_ne (hlater duration next hnext ▸ hloader)
  · exact fun batch hbatch => (hstage.armed batch hbatch).imp (fun hdue => hdue.absorb place other effect)
      fun hdue => hdue.absorb place other effect
  · intro loader another hne hanother
    by_cases heq : loader = place
    · obtain rfl := heq
      obtain rfl := Option.some.inj (hself.symm.trans hanother)
      exact hbelow
    · exact hstage.others loader another hne ((hset heq).symm.trans hanother)
  · intro next hdue hne another hanother
    by_cases heq : next.loader = place
    · rw [heq] at hanother
      obtain rfl := Option.some.inj (hself.symm.trans hanother)
      exact hdefinition
    · have hdue : Due queue (timeline.absorb place other effect).sleeping next := hdue
      rcases due_absorb_cases hdue with hdue | ⟨duration, hnext⟩
      · exact hstage.alone next hdue hne another ((hset heq).symm.trans hanother)
      · exact absurd (hlater duration next hnext) heq

theorem Stage.count_calls (hstage : round.Stage called sent queue user timeline)
    (hbound : called ≤ round.chunks.length) :
    (timeline.calls[user.definition]?.getD []).length = round.calls.length + called := by
  obtain ⟨calls, hcalls, hkeys⟩ := hstage.calls
  have hlength := congrArg List.length hkeys
  rw [List.length_map, List.length_append, List.length_take, Nat.min_eq_left hbound] at hlength
  rw [hstage.place, hcalls, Option.getD_some, hlength]

/-- One more call, for the next chunk. -/
theorem Stage.calls_next (hstage : round.Stage called sent queue user timeline) {chunk : List String}
    (hchunk : round.chunks[called]? = some chunk) :
    ∃ made, (timeline.callsWith user chunk)[round.place]? = some made ∧
      made.map Call.keys = round.calls ++ round.chunks.take (called + 1) := by
  obtain ⟨calls, hcalls, hkeys⟩ := hstage.calls
  obtain ⟨hplace, -⟩ := List.getElem?_eq_some_iff.1 hcalls
  refine ⟨calls ++ [⟨timeline.now, chunk⟩], ?_, ?_⟩
  · rw [callsWith, hstage.place, hcalls]
    exact List.getElem?_set_self hplace
  · rw [List.map_append, hkeys, List.take_add_one, hchunk, List.append_assoc]
    rfl

theorem Serving.run_finish {results : Option (List (Except LoadError Json))}
    (hserving : round.Serving called sent (.finish round.loader batch results :: queue) user timeline) :
    ∃ user, round.Serving called sent queue user (timeline.run (.finish round.loader batch results)) := by
  cases hserving.lined with
  | pass hallows hrest =>
    obtain ⟨place, hplace, chunk, hchunk, rfl, rfl⟩ := hallows rfl
    rw [run, finish_eq hserving.found]
    have hheld := hserving.held.conclude hplace (round.results place chunk)
    refine ⟨_, hserving.toStage.absorb (Nat.le_refl _) hrest hserving.calls ?_ ?_, hheld, ?_⟩
    · rintro duration next ⟨⟩
    · intro batch hbatch
      have hpending := State.conclude_pending (round.first + place) (round.results place chunk) user.state
      have harmed := hserving.armed_tail (by simp) batch (hpending ▸ hbatch)
      exact harmed.imp_right fun hdue => hdue.absorb round.loader user _
    · intro index key hkey
      refine (hserving.tracks index key hkey).conclude hserving.held hplace hchunk ?_
      rintro other hne ⟨results, hdue⟩
      refine ⟨results, (hdue.tail ?_).absorb round.loader user _⟩
      intro heq
      injection heq with _ hbatch
      omega

theorem Stage.call (hstage : round.Stage called sent (job :: queue) user timeline)
    (hheld : round.Held called sent' state) (hlt : called < sent') (hlined : round.Lined (called + 1) queue sent')
    (hfinish : ∀ batch results, .finish round.loader batch results ≠ job) (harmed : ∀ batch ∈ state.pending,
      Due queue timeline.sleeping (.timer round.loader batch.id) ∨
        Due queue timeline.sleeping (.fire round.loader batch.id))
    (htracks : ∀ index key, round.keys[index]? = some key →
      round.Tracks called (round.Finishing (job :: queue) timeline) state timeline.answers (round.ticket + index) key) :
    ∃ user', round.Serving (called + 1) sent' queue user'
      { timeline.absorb round.loader user (.start (some round.definition) (round.calls.length + called) round.loader
          (round.first + called) state) with
        calls := timeline.callsWith user (state.keysOf (round.first + called)) } := by
  have hchunk := hheld.keysOf_eq hlt
  have hcalls := hstage.calls_next hchunk
  have hended := (hheld.advance hlt).conclude (Nat.lt_succ_self called)
    (round.results called (state.keysOf (round.first + called)))
  unfold Effect.start
  dsimp only
  split
  · -- the call takes no time: the batch ends at once
    refine ⟨_, hstage.absorb (Nat.le_succ called) hlined hcalls ?_ ?_, hended, ?_⟩
    · rintro duration next ⟨⟩
    · intro batch hbatch
      have hpending := State.conclude_pending (round.first + called)
        (round.results called (state.keysOf (round.first + called))) state
      exact (harmed batch (hpending ▸ hbatch)).imp_right fun hdue => hdue.absorb round.loader user _
    · intro index key hkey
      have hadvanced := (htracks index key hkey).mono (Nat.le_succ called)
        (fun place => place ≠ called → round.Finishing queue timeline place)
        fun place hplace hcarried hne => (hcarried (by omega)).tail hfinish
      refine hadvanced.conclude (hheld.advance hlt) (Nat.lt_succ_self called) hchunk ?_
      exact fun place hne hcarried => (hcarried hne).absorb
  · refine ⟨_, hstage.absorb (Nat.le_succ called) hlined hcalls ?_ ?_, hheld.advance hlt, ?_⟩
    · rintro duration next ⟨⟩
      exact ⟨rfl, fun _ => ⟨called, Nat.lt_succ_self called, _, hchunk, rfl, rfl⟩⟩
    · exact fun batch hbatch => (harmed batch hbatch).imp_right fun hdue => hdue.absorb round.loader user _
    · intro index key hkey
      change round.Tracks _ _ state (timeline.answers ++ []) _ _
      rw [List.append_nil]
      refine (htracks index key hkey).mono (Nat.le_succ called) _ fun place hplace hcarried => ?_
      by_cases heq : place = called
      · obtain rfl := heq
        exact ⟨_, .inr ⟨_, mem_insertSleeping_self _ _ timeline.sleeping⟩⟩
      · exact ((hcarried (by omega)).tail hfinish).absorb

theorem Stage.definitionOf?_eq (hstage : round.Stage called sent queue user timeline) :
    timeline.definitions[user.definition]? = some round.definition := hstage.place ▸ hstage.definition

theorem Serving.run_start (hserving : round.Serving called sent (.start round.loader batch :: queue) user timeline) :
    ∃ user, round.Serving (called + 1) sent queue user (timeline.run (.start round.loader batch)) := by
  cases hserving.lined with
  | pass hallows _ => exact absurd rfl hallows
  | start hrest =>
    have hbound := Nat.le_trans hserving.held.le hserving.held.bound
    rw [run, start_of_definition hserving.found hserving.definitionOf?_eq, hserving.count_calls hbound]
    exact hserving.call hserving.held hrest.le hrest (by simp) (hserving.armed_tail (by simp)) hserving.tracks

/-- A timer fires: it sends the pending batch off and has it called, or it comes too late. -/
theorem Serving.fire (hserving : round.Serving called sent (job :: queue) user timeline)
    (hjob : job = .timer round.loader batch ∨ job = .fire round.loader batch) :
    ∃ called sent user, round.Serving called sent queue user (timeline.fire round.loader batch) := by
  have hlined : batch ≤ round.first + called ∧ round.Lined called queue sent := by
    rcases hjob with rfl | rfl
    all_goals
      cases hserving.lined with
      | pass hallows hrest => exact ⟨hallows rfl, hrest⟩
  obtain ⟨hbatch, hrest⟩ := hlined
  have hfinish (other : Nat) (results : Option (List (Except LoadError Json))) :
      .finish round.loader other results ≠ job := by
    rcases hjob with rfl | rfl <;> simp
  have hmoves := State.fire_moves batch user.state
  have htracks (index : Nat) (key : String) (hkey : round.keys[index]? = some key) :=
    (hserving.tracks index key hkey).moves hserving.held.coherent hmoves
  rcases State.fire_cases batch user.state with ⟨pending, hpending, hid, hfire⟩ | ⟨hother, hfire⟩
  · -- a pending batch has the last id, so no call is left in the queue and its own is the next
    have hlast := hserving.held.pending pending hpending
    have hle := hrest.le
    obtain rfl : called = sent := by omega
    obtain rfl : batch = round.first + called := by omega
    rw [fire_of_definition hserving.found hserving.definitionOf?_eq (congrArg Prod.fst hfire),
      hserving.count_calls (Nat.le_trans hserving.held.le hserving.held.bound)]
    rw [hfire] at htracks ⊢
    exact ⟨_, _, hserving.call ((hserving.held.rest _).send hpending) (Nat.lt_succ_self _) (hrest.next (Nat.le_refl _))
      hfinish (by simp [State.dispatch]) htracks⟩
  · rw [fire_of_none hserving.found (congrArg Prod.fst hfire)]
    rw [hfire] at htracks ⊢
    refine ⟨called, sent, _, hserving.toStage.absorb (Nat.le_refl _) hrest hserving.calls ?_ ?_,
      hserving.held.rest _, ?_⟩
    · rintro duration next ⟨⟩
    · have harmed := hserving.armed_tail fun other hpending => by
        rcases hjob with rfl | rfl <;> simp [hother other hpending]
      exact fun other hpending => (harmed other hpending).imp_right fun hdue => hdue.absorb round.loader user _
    · intro index key hkey
      change round.Tracks _ _ _ (timeline.answers ++ []) _ _
      rw [List.append_nil]
      exact (htracks index key hkey).absorb hfinish

theorem Serving.run_timer (hserving : round.Serving called sent (.timer round.loader batch :: queue) user timeline) :
    ∃ called sent user, round.Serving called sent queue user (timeline.run (.timer round.loader batch)) := by
  rw [run]
  generalize ((timeline.definitionOf? round.loader).map Definition.delay).getD 0 = delay
  split
  · exact hserving.fire (.inl rfl)
  · have hsleep : timeline.absorb round.loader user
        { state := user.state, later := some (delay, .fire round.loader batch) } =
          timeline.sleep delay (.fire round.loader batch) := absorb_unchanged hserving.found _
    rw [← hsleep]
    cases hserving.lined with
    | pass hallows hrest =>
      refine ⟨called, sent, _, hserving.toStage.absorb (Nat.le_refl _) hrest hserving.calls ?_ ?_, hserving.held, ?_⟩
      · rintro duration next ⟨⟩
        exact ⟨rfl, hallows⟩
      · -- the timer of the pending batch is set, and fires when its time has come
        intro pending hpending
        rcases hserving.armed pending hpending with hdue | hdue
        · by_cases hid : pending.id = batch
          · rw [hid]
            exact .inr (.inr ⟨_, mem_insertSleeping_self _ _ timeline.sleeping⟩)
          · exact .inl (hdue.tail (by simp [hid]))
        · exact .inr ((hdue.tail (by simp)).absorb round.loader user _)
      · intro index key hkey
        change round.Tracks _ _ _ (timeline.answers ++ []) _ _
        rw [List.append_nil]
        exact (hserving.tracks index key hkey).absorb (by simp)

/-- A job of another loader neither calls the batch function nor answers a ticket of the round. -/
theorem Serving.run_other (hserving : round.Serving called sent (job :: queue) user timeline)
    (hloader : job.loader ≠ round.loader) : round.Serving called sent queue user (timeline.run job) := by
  have hstage := hserving.toStage.skip hloader
  have hfinish (batch : Nat) (results : Option (List (Except LoadError Json))) :
      .finish round.loader batch results ≠ job := by
    rintro rfl
    exact hloader rfl
  cases huser : timeline.instances[job.loader]? with
  | none =>
    rw [run_eq_self huser]
    refine ⟨hstage, hserving.held, fun index key hkey => ?_⟩
    exact (hserving.tracks index key hkey).mono (Nat.le_refl _) _ fun place hplace hcarried =>
      (hcarried hplace).tail hfinish
  | some other =>
    have hplace : other.definition ≠ round.place :=
      hserving.alone job (.inl List.mem_cons_self) hloader other huser
    have hcalls : (timeline.run job).calls[round.place]? = timeline.calls[round.place]? := by
      rcases run_calls huser with hcalls | ⟨keys, hcalls⟩
      · rw [hcalls]
      · rw [hcalls, callsWith, List.getElem?_set_ne hplace]
    obtain ⟨count, calls, hrun⟩ := run_eq huser
    obtain ⟨hbelow, hanswers⟩ := Effect.ofJob_ticketsBelow (hserving.others job.loader other hloader huser)
      timeline.definitions[other.definition]? count job
    rw [hrun] at hcalls ⊢
    refine ⟨hstage.absorb_other hloader huser hplace hcalls ?_ hbelow, hserving.held, fun index key hkey => ?_⟩
    · exact fun duration next hnext => (Effect.ofJob_later hnext).2.1
    · have htracks := (hserving.tracks index key hkey).append hanswers (Nat.le_add_right _ _)
      exact htracks.absorb hfinish

theorem Serving.run (hserving : round.Serving called sent (job :: queue) user timeline) :
    ∃ called sent user, round.Serving called sent queue user (timeline.run job) := by
  by_cases hloader : job.loader = round.loader
  · cases job with
    | timer loader batch =>
      obtain rfl : loader = round.loader := hloader
      exact hserving.run_timer
    | fire loader batch =>
      obtain rfl : loader = round.loader := hloader
      exact hserving.fire (.inr rfl)
    | start loader batch =>
      obtain rfl : loader = round.loader := hloader
      exact ⟨_, _, hserving.run_start⟩
    | finish loader batch results =>
      obtain rfl : loader = round.loader := hloader
      exact ⟨_, _, hserving.run_finish⟩
  · exact ⟨_, _, _, hserving.run_other hloader⟩

theorem Serving.runAll (hserving : round.Serving called sent queue user timeline) :
    ∃ called sent user, round.Serving called sent [] user (queue.foldl Timeline.run timeline) := by
  induction queue generalizing called sent user timeline with
  | nil => exact ⟨called, sent, user, hserving⟩
  | cons job queue ih =>
    obtain ⟨called, sent, user, hserving⟩ := hserving.run
    exact ih hserving

theorem Serving.runReady (hserving : round.Serving called sent timeline.ready user timeline) :
    ∃ called sent user, round.Serving called sent timeline.runReady.ready user timeline.runReady := by
  have hbegun : round.Serving called sent timeline.ready user { timeline with ready := [] } :=
    ⟨⟨hserving.definition, hserving.found, hserving.place, hserving.calls, hserving.lined, hserving.sleeping,
      hserving.armed, hserving.others, hserving.alone⟩, hserving.held, hserving.tracks⟩
  rw [runReady_ready]
  exact hbegun.runAll

theorem Serving.moveTo (hserving : round.Serving called sent timeline.ready user timeline)
    (hready : timeline.ready = []) (time : Nat) :
    round.Serving called sent (timeline.moveTo time).ready user (timeline.moveTo time) := by
  have hdue (job : Job) := due_moveTo hready time job
  have hlined := hserving.lined
  rw [hready] at hlined
  cases hlined with
  | nil =>
    refine ⟨⟨hserving.definition, hserving.found, hserving.place, hserving.calls, ?_, ?_, ?_, hserving.others, ?_⟩,
      hserving.held, ?_⟩
    · refine lined_of_allows fun job hjob => ?_
      rcases (hdue job).1 (.inl hjob) with hqueue | ⟨due, hentry⟩
      · rw [hready] at hqueue
        cases hqueue
      · exact hserving.sleeping (due, job) hentry
    · exact fun entry hentry => hserving.sleeping entry ((List.dropWhile_sublist _).subset hentry)
    · exact fun batch hbatch => (hserving.armed batch hbatch).imp (hdue _).2 (hdue _).2
    · exact fun job hjob => hserving.alone job ((hdue job).1 hjob)
    · intro index key hkey
      refine (hserving.tracks index key hkey).mono (Nat.le_refl _) _ fun place hplace hcarried => ?_
      obtain ⟨results, hfinish⟩ := hcarried hplace
      exact ⟨results, (hdue _).2 hfinish⟩

/-- As long as a ticket waits, something is due. -/
theorem Serving.exists_due (hserving : round.Serving called sent timeline.ready user timeline) {index : Nat}
    (hkey : round.keys[index]? = some key) (hnone : timeline.answers.lookup (round.ticket + index) = none) :
    timeline.ready ≠ [] ∨ timeline.sleeping ≠ [] := by
  have hjob {job : Job} (hdue : Due timeline.ready timeline.sleeping job) :
      timeline.ready ≠ [] ∨ timeline.sleeping ≠ [] := by
    rcases hdue with hready | ⟨time, hsleeping⟩
    · exact .inl (List.ne_nil_of_mem hready)
    · exact .inr (List.ne_nil_of_mem hsleeping)
  cases hserving.tracks index key hkey with
  | answered _ _ _ _ hsome =>
    rw [hnone] at hsome
    cases hsome
  | @waiting place hwaits _ hcarried =>
    obtain ⟨batch, hbatch, hid, -⟩ := hwaits.exists_batch
    rcases List.mem_append.1 hbatch with hdispatched | hpending
    · by_cases hplace : place < called
      · obtain ⟨results, hdue⟩ := hcarried hplace
        exact hjob hdue
      · -- the batch was sent off and is yet to be called, so its call is in the queue
        have hlt := hserving.held.dispatched batch hdispatched
        refine .inl fun hready => ?_
        have hlined := hserving.lined
        rw [hready] at hlined
        cases hlined
        omega
    · exact (hserving.armed batch (Option.mem_toList.1 hpending)).elim hjob hjob

end Round

end RelationalGraphQL.Loader
