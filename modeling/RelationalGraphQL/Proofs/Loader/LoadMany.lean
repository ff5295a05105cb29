import RelationalGraphQL.Proofs.Loader.Reached
import RelationalGraphQL.Proofs.Loader.Stability

/-!
# Many keys at once

Whoever asks a loader at rest for many keys at once registers them all before any batch is loaded (`Gathering`). The
wait that follows is that of a round being served, turn by turn (`Awaited`), and it ends when every load is done. By
then the batch function was called for the chunks of the distinct keys and nothing else, and each load has what its key
got in its chunk (`many_loaded_in_chunks`).
-/

namespace RelationalGraphQL.Loader

/-! ### What the keys of some calls get -/

/-- What the keys get when a batch function is called for some chunks, after so many calls before. -/
def Definition.serve (definition : Definition) (count : Nat) :
    List (List String) → List (String × Except LoadError Json)
  | [] => []
  | chunk :: rest =>
    chunk.zip (outcomesFor chunk (definition.batch count chunk).results) ++ definition.serve (count + 1) rest

/-- A key gets what it got in its chunk. -/
theorem Definition.lookup_serve (definition : Definition) {chunks : List (List String)} (hnodup : chunks.flatten.Nodup)
    {place : Nat} {chunk : List String} (hchunk : chunks[place]? = some chunk) {key : String} (hkey : key ∈ chunk)
    (count : Nat) :
    (definition.serve count chunks).lookup key =
      (outcomesFor chunk (definition.batch (count + place) chunk).results)[chunk.idxOf key]? := by
  induction chunks generalizing count place with
  | nil => cases hchunk
  | cons first rest ih =>
    rw [List.flatten_cons, List.nodup_append] at hnodup
    obtain ⟨-, hrest, hdisjoint⟩ := hnodup
    have hlength := length_outcomesFor first (definition.batch count first).results
    rw [serve, List.lookup_append, lookup_zip hlength]
    cases place with
    | zero =>
      obtain rfl := Option.some.inj hchunk
      have hlt : first.idxOf key < (outcomesFor first (definition.batch count first).results).length := by
        rw [hlength]
        exact List.idxOf_lt_length_of_mem hkey
      rw [List.getElem?_eq_getElem hlt, Option.some_or]
      exact (List.getElem?_eq_getElem hlt).symm
    | succ place =>
      have hmem : key ∈ rest.flatten := List.mem_flatten.2 ⟨chunk, List.mem_of_getElem? hchunk, hkey⟩
      have hnot : key ∉ first := fun hfirst => hdisjoint key hfirst key hmem rfl
      rw [List.idxOf_eq_length hnot, List.getElem?_eq_none (Nat.le_of_eq hlength), Option.none_or, ih hrest hchunk,
        Nat.add_right_comm, Nat.add_assoc]

/-! ### Strands of a round -/

namespace Timeline

variable {timeline : Timeline} {strands : List Strand}

theorem poll_started {strand : Strand} (hstarted : strand.alarm? = none) : (timeline.poll strand).2 = timeline := by
  cases strand with
  | idle start loader key => cases hstarted
  | waiting ticket =>
    rw [poll]
    split <;> rfl
  | done outcome time => rfl

theorem pollAll_started (hstarted : ∀ strand ∈ strands, strand.alarm? = none) :
    pollAll strands timeline = (strands.map fun strand => (timeline.poll strand).1, timeline) := by
  induction strands with
  | nil => rfl
  | cons strand rest ih =>
    rw [pollAll]
    dsimp only
    rw [poll_started (hstarted strand List.mem_cons_self), ih fun other hother => hstarted other (by simp [hother]),
      List.map_cons]

theorem outcomes_of_done (hdone : strands.all Strand.isDone) :
    (strands.filterMap fun strand => strand.result?.map Prod.fst).map some =
      strands.map fun strand => strand.result?.map Prod.fst := by
  induction strands with
  | nil => rfl
  | cons strand rest ih =>
    rw [List.all_cons, Bool.and_eq_true] at hdone
    cases strand with
    | idle | waiting => cases hdone.1
    | done outcome time => exact congrArg (List.cons (some outcome)) (ih hdone.2)

theorem length_outcomes (hdone : strands.all Strand.isDone) :
    (strands.filterMap fun strand => strand.result?.map Prod.fst).length = strands.length := by
  have hlength := congrArg List.length (outcomes_of_done hdone)
  rwa [List.length_map, List.length_map] at hlength

theorem outcome_of_done (hdone : strands.all Strand.isDone) {index time : Nat} {outcome : Except LoadError Json}
    (hstrand : strands[index]? = some (.done outcome time)) :
    (strands.filterMap fun strand => strand.result?.map Prod.fst)[index]? = some outcome := by
  have houtcome := congrArg (fun outcomes => outcomes[index]?) (outcomes_of_done hdone)
  rw [List.getElem?_map, List.getElem?_map, hstrand, Option.map_some, Option.map_eq_some_iff] at houtcome
  obtain ⟨found, hfound, heq⟩ := houtcome
  rw [hfound]
  exact heq

theorem lookup_runReady {ticket : Nat} {outcome : Except LoadError Json}
    (hsome : timeline.answers.lookup ticket = some outcome) :
    timeline.runReady.answers.lookup ticket = some outcome := by
  apply runReady_keeps fun later => later.answers.lookup ticket = some outcome
  · intro later job hlater
    cases huser : later.instances[job.loader]? with
    | none => rwa [run_eq_self huser]
    | some user =>
      obtain ⟨count, calls, hrun⟩ := run_eq huser
      rw [hrun]
      change (later.answers ++ _).lookup ticket = some outcome
      rw [List.lookup_append, hlater, Option.some_or]
  · exact hsome

end Timeline

namespace Round

open Timeline

variable {round : Round} {called sent : Nat} {user : Instance} {timeline : Timeline} {strands : List Strand}
  {key : String} {place index start : Nat} {chunk : List String}

/-- The loads of a round, each of which waits or has its answer. -/
structure Follows (round : Round) (strands : List Strand) (timeline : Timeline) : Prop where
  length : strands.length = round.keys.length
  strand : ∀ index strand, strands[index]? = some strand → strand = .waiting (round.ticket + index) ∨
    ∃ outcome time, strand = .done outcome time ∧ timeline.answers.lookup (round.ticket + index) = some outcome

theorem Follows.mono (hfollows : round.Follows strands timeline) {later : Timeline}
    (hlater : ∀ ticket outcome, timeline.answers.lookup ticket = some outcome →
      later.answers.lookup ticket = some outcome) : round.Follows strands later where
  length := hfollows.length
  strand := by
    intro index strand hstrand
    refine (hfollows.strand index strand hstrand).imp_right ?_
    rintro ⟨outcome, time, hdone, hsome⟩
    exact ⟨outcome, time, hdone, hlater _ _ hsome⟩

theorem Follows.pollAll (hfollows : round.Follows strands timeline) :
    ∃ polled, Timeline.pollAll strands timeline = (polled, timeline) ∧ round.Follows polled timeline := by
  have hstarted : ∀ strand ∈ strands, strand.alarm? = none := by
    intro strand hstrand
    obtain ⟨index, hindex⟩ := List.mem_iff_getElem?.1 hstrand
    obtain rfl | ⟨outcome, time, rfl, -⟩ := hfollows.strand index strand hindex <;> rfl
  refine ⟨_, pollAll_started hstarted, ?_, ?_⟩
  · rw [List.length_map, hfollows.length]
  · intro index strand hstrand
    rw [List.getElem?_map, Option.map_eq_some_iff] at hstrand
    obtain ⟨old, hold, rfl⟩ := hstrand
    obtain rfl | ⟨outcome, time, rfl, hsome⟩ := hfollows.strand index old hold
    · rw [poll]
      split
      · next outcome hsome => exact .inr ⟨outcome, timeline.now, rfl, hsome⟩
      · exact .inl rfl
    · exact .inr ⟨outcome, time, rfl, hsome⟩

/-- A round that is being served, and its loads. -/
structure Awaited (round : Round) (strands : List Strand) (timeline : Timeline) : Prop where
  follows : round.Follows strands timeline
  serving : ∃ called sent user, round.Serving called sent timeline.ready user timeline

section

variable {ε : Type} {watch : Watch ε} {definitions : List Definition} {owners : Nat}

/-- A wait for the loads of a round does not end before all of them are done. -/
theorem Awaited.ends (hawaited : round.Awaited strands timeline) (hrest : ∀ strand ∈ strands, strand.Rests timeline)
    (hquiet : ∀ time, watch.interruption? time = none) (hwake : watch.wake ≤ timeline.now)
    {waited : Waited (List Strand) ε} (hends : watch.advance strands timeline = .inl waited) :
    waited = .finished strands ∧ strands.all Strand.isDone := by
  cases watch.advance_eq_iff.1 hends with
  | finished hover =>
    rw [Bool.and_eq_true] at hover
    exact ⟨rfl, hover.1⟩
  | interrupted _ hreason =>
    rw [hquiet] at hreason
    cases hreason
  | stalled hopen _ hready hnext =>
    have hundone : ¬ strands.all Strand.isDone := by
      intro hdone
      exact hopen (by rw [hdone, decide_eq_true hwake]; rfl)
    rw [List.all_eq_true] at hundone
    push Not at hundone
    obtain ⟨strand, hstrand, hopen⟩ := hundone
    obtain ⟨index, hindex⟩ := List.mem_iff_getElem?.1 hstrand
    obtain rfl | ⟨outcome, time, rfl, -⟩ := hawaited.follows.strand index strand hindex
    · -- whoever is not done waits for a ticket, so something is still due
      obtain ⟨hlt, -⟩ := List.getElem?_eq_some_iff.1 hindex
      rw [hawaited.follows.length] at hlt
      obtain ⟨called, sent, user, hserving⟩ := hawaited.serving
      have hdue := hserving.exists_due (List.getElem?_eq_getElem hlt) (hrest _ hstrand)
      exact absurd (nextInstant?_eq_none_iff.1 hnext).1 (hdue.resolve_left (not_not_intro hready))
    · exact absurd rfl hopen

theorem Awaited.goes (hawaited : round.Awaited strands timeline) (hsound : timeline.Sound definitions owners)
    {next : Timeline} (hgoes : watch.advance strands timeline = .inr next) :
    round.Awaited strands next ∧ timeline.now ≤ next.now := by
  obtain ⟨called, sent, user, hserving⟩ := hawaited.serving
  cases watch.advance_eq_iff.1 hgoes with
  | ran _ _ _ =>
    exact ⟨⟨hawaited.follows.mono fun _ _ => lookup_runReady, hserving.runReady⟩, Nat.le_of_eq (runReady_now _).symm⟩
  | moved _ _ hready hnext =>
    exact ⟨⟨hawaited.follows.mono fun _ _ => id, called, sent, user, hserving.moveTo hready _⟩,
      Nat.le_of_lt (hsound.lt_of_nextInstant? hnext)⟩

theorem Awaited.waits {waited : Waited (List Strand) ε} {final : Timeline}
    (hwaits : watch.Waits strands timeline waited final) (hquiet : ∀ time, watch.interruption? time = none)
    (hsound : timeline.Sound definitions owners) (hwake : watch.wake ≤ timeline.now)
    (hawaited : round.Awaited (pollAll strands timeline).1 (pollAll strands timeline).2) :
    ∃ polled, waited = .finished polled ∧ polled.all Strand.isDone ∧ round.Awaited polled final := by
  induction hwaits with
  | @ends strands polled timeline looked waited hpoll hends =>
    have hrest := hsound.pollAll_rest strands
    have hnow := (pollAll_keeps strands timeline).1
    rw [hpoll] at hawaited hrest hnow
    obtain ⟨hwaited, hdone⟩ := hawaited.ends hrest hquiet (by omega) hends
    exact ⟨polled, hwaited, hdone, hawaited⟩
  | @goes strands polled timeline looked next final waited hpoll hgoes hwaits ih =>
    have hlooked := hsound.pollAll strands
    have hnow := (pollAll_keeps strands timeline).1
    rw [hpoll] at hawaited hlooked hnow
    obtain ⟨hnext, hlater⟩ := hawaited.goes hlooked hgoes
    obtain ⟨again, hagain, hfollows⟩ := hnext.follows.pollAll
    refine ih (Watch.advance_sound hlooked hgoes) (by omega) ?_
    rw [hagain]
    exact ⟨hfollows, hnext.serving⟩

end

theorem nodup_chunks (round : Round) : round.chunks.flatten.Nodup := by
  rw [chunks, flatten_chunks (by omega)]
  exact Selection.nodup_eraseDups _

theorem exists_key_of_chunk (hchunk : round.chunks[place]? = some chunk) : ∃ key ∈ chunk, key ∈ round.keys := by
  have hmem := List.mem_of_getElem? hchunk
  obtain ⟨key, hkey⟩ := List.exists_mem_of_ne_nil chunk (ne_nil_of_mem_chunks hmem)
  refine ⟨key, hkey, ?_⟩
  have hflatten := List.mem_flatten.2 ⟨chunk, hmem, hkey⟩
  rwa [chunks, flatten_chunks (by omega), List.mem_eraseDups] at hflatten

/-- No key is in two chunks. -/
theorem place_unique {other : Nat} {chunk' : List String} (hchunk : round.chunks[place]? = some chunk)
    (hchunk' : round.chunks[other]? = some chunk') (hkey : key ∈ chunk) (hkey' : key ∈ chunk') : place = other := by
  obtain ⟨hplace, rfl⟩ := List.getElem?_eq_some_iff.1 hchunk
  obtain ⟨hother, rfl⟩ := List.getElem?_eq_some_iff.1 hchunk'
  have hdisjoint := List.pairwise_iff_getElem.1 (List.nodup_flatten.1 round.nodup_chunks).2
  rcases Nat.lt_trichotomy place other with hlt | heq | hgt
  · exact absurd hkey' (hdisjoint place other hplace hother hlt hkey)
  · exact heq
  · exact absurd hkey (hdisjoint other place hother hplace hgt hkey')

/-- A load that is done was answered by the call for its chunk. -/
theorem Awaited.answered (hawaited : round.Awaited strands timeline) (hdone : strands.all Strand.isDone)
    (hserving : round.Serving called sent timeline.ready user timeline) (hkey : round.keys[index]? = some key) :
    ∃ place < called, ∃ chunk, round.chunks[place]? = some chunk ∧ key ∈ chunk ∧
      ∃ outcome time, (outcomesFor chunk (round.results place chunk))[chunk.idxOf key]? = some outcome ∧
        strands[index]? = some (.done outcome time) := by
  obtain ⟨hlt, -⟩ := List.getElem?_eq_some_iff.1 hkey
  rw [← hawaited.follows.length] at hlt
  have hstrand := List.getElem?_eq_getElem hlt
  have hisDone := List.all_eq_true.1 hdone _ (List.getElem_mem hlt)
  rcases hawaited.follows.strand index _ hstrand with hwaiting | ⟨outcome, time, hdone, hsome⟩
  · rw [hwaiting] at hisDone
    cases hisDone
  · cases hserving.tracks index key hkey with
    | waiting _ hnone _ =>
      rw [hnone] at hsome
      cases hsome
    | @answered place chunk other hplace hchunk hmem houtcome hother =>
      obtain rfl := Option.some.inj (hsome.symm.trans hother)
      exact ⟨place, hplace, chunk, hchunk, hmem, outcome, time, houtcome, hdone ▸ hstrand⟩

theorem Awaited.result (hawaited : round.Awaited strands timeline) (hdone : strands.all Strand.isDone)
    (hkey : round.keys[index]? = some key) :
    ∃ outcome time, strands[index]? = some (.done outcome time) ∧
      (round.definition.serve round.calls.length round.chunks).lookup key = some outcome := by
  obtain ⟨called, sent, user, hserving⟩ := hawaited.serving
  obtain ⟨place, -, chunk, hchunk, hmem, outcome, time, houtcome, hstrand⟩ := hawaited.answered hdone hserving hkey
  refine ⟨outcome, time, hstrand, ?_⟩
  rw [Definition.lookup_serve _ round.nodup_chunks hchunk hmem]
  exact houtcome

/-- Once all loads are done, every chunk was called. -/
theorem Awaited.calls (hawaited : round.Awaited strands timeline) (hdone : strands.all Strand.isDone) :
    ∃ calls, timeline.calls[round.place]? = some calls ∧ calls.map Call.keys = round.calls ++ round.chunks := by
  obtain ⟨called, sent, user, hserving⟩ := hawaited.serving
  obtain ⟨calls, hcalls, hkeys⟩ := hserving.calls
  refine ⟨calls, hcalls, ?_⟩
  rw [hkeys, List.take_of_length_le]
  by_contra hlt
  -- a chunk not called yet has a key, and the answer to that key came out of a call for the chunk
  have hchunk := List.getElem?_eq_getElem (Nat.lt_of_not_le hlt)
  obtain ⟨key, hkey, hmem⟩ := exists_key_of_chunk hchunk
  obtain ⟨index, hindex⟩ := List.mem_iff_getElem?.1 hmem
  obtain ⟨place, hplace, chunk, hchunk', hkey', -⟩ := hawaited.answered hdone hserving hindex
  exact Nat.lt_irrefl called (place_unique hchunk hchunk' hkey hkey' ▸ hplace)

/-! ### Asking for the keys -/

/-- A round of which some keys were asked for, and none of whose batches was called yet. -/
structure Gathering (round : Round) (keys : List String) (user : Instance) (timeline : Timeline) : Prop
    extends Stage round 0 user.state.dispatched.length timeline.ready user timeline where
  gathered : user.state.Gathered (max 1 round.definition.maxBatch) round.first keys
  ticket : timeline.nextTicket = round.ticket + keys.length
  waits : ∀ index key, keys[index]? = some key → ∃ id, user.state.Waits (round.ticket + index) key id
  absent : ∀ ticket, timeline.nextTicket ≤ ticket → user.state.Absent ticket
  answers : ∀ answer ∈ timeline.answers, answer.1 < round.ticket

variable {keys : List String}

theorem Gathering.serving (hgathering : round.Gathering round.keys user timeline) :
    round.Serving 0 user.state.dispatched.length timeline.ready user timeline := by
  have hgathered := hgathering.gathered
  have hchunks : round.chunks = user.state.batches.map Batch.keys := hgathered.chunks_eq (by omega)
  have hknown (batch : Batch String) (hbatch : batch ∈ user.state.batches) :
      ∃ place, batch.id = round.first + place ∧ round.chunks[place]? = some batch.keys := by
    obtain ⟨place, hplace⟩ := List.mem_iff_getElem?.1 hbatch
    refine ⟨place, hgathered.filled.id_of_getElem? hplace, ?_⟩
    rw [hchunks, List.getElem?_map, hplace, Option.map_some]
  have hsent {place : Nat} {batch : Batch String} (hplace : user.state.dispatched[place]? = some batch) :
      batch.id = round.first + place := by
    obtain ⟨hlt, -⟩ := List.getElem?_eq_some_iff.1 hplace
    refine hgathered.filled.id_of_getElem? ?_
    rwa [State.batches, List.getElem?_append_left hlt]
  refine ⟨hgathering.toStage, ⟨hgathered.coherent, hknown, ?_, ?_, ?_, Nat.zero_le _, ?_⟩, ?_⟩
  · exact fun batch hpending => hgathered.pending_id hpending
  · intro batch hbatch
    obtain ⟨place, hplace⟩ := List.mem_iff_getElem?.1 hbatch
    obtain ⟨hlt, -⟩ := List.getElem?_eq_some_iff.1 hplace
    rw [hsent hplace]
    omega
  · intro place _ hlt
    have hplace := List.getElem?_eq_getElem hlt
    rw [← hsent hplace]
    exact List.mem_map_of_mem (List.getElem_mem hlt)
  · rw [hchunks, List.length_map, State.batches, List.length_append]
    omega
  · intro index key hkey
    obtain ⟨id, hwaits⟩ := hgathering.waits index key hkey
    obtain ⟨batch, hbatch, hid, -⟩ := hwaits.exists_batch
    obtain ⟨place, hplace, -⟩ := hknown batch hbatch
    obtain rfl : id = round.first + place := by omega
    exact .waiting hwaits (lookup_eq_none_of_lt hgathering.answers (by omega)) (by omega)

/-- The jobs of a request come behind the others. -/
theorem Gathering.stage_request (hgathering : round.Gathering keys user timeline) {demand : Demand}
    {state : State String Json} {more : List String}
    (hgathered : state.Gathered (max 1 round.definition.maxBatch) round.first more)
    (hdemands : State.Demands round.first user.state state demand) (ticket : Nat) :
    round.Stage 0 state.dispatched.length (timeline.ready ++ demand.jobs round.loader) { user with state }
      { timeline with
        instances := timeline.instances.set round.loader { user with state }
        nextTicket := ticket
        ready := timeline.ready ++ demand.jobs round.loader } := by
  have hset {loader : Nat} (hne : loader ≠ round.loader) :
      (timeline.instances.set round.loader { user with state })[loader]? = timeline.instances[loader]? :=
    List.getElem?_set_ne (Ne.symm hne)
  refine ⟨hgathering.definition, instance_set hgathering.found state, hgathering.place, hgathering.calls, ?_,
    hgathering.sleeping, ?_, ?_, ?_⟩
  · cases hdemands with
    | nothing hsent _ =>
      rw [Demand.jobs, List.append_nil, hsent]
      exact hgathering.lined
    | timer hsent =>
      rw [Demand.jobs, hsent]
      exact hgathering.lined.allow fun _ => Nat.le_refl _
    | dispatch hsent _ =>
      rw [Demand.jobs, hsent]
      exact hgathering.lined.send
  · intro batch hbatch
    rw [hgathered.pending_id hbatch]
    cases hdemands with
    | nothing hsent hpending =>
      obtain ⟨old, hold⟩ := Option.isSome_iff_exists.1 (hpending (Option.isSome_of_mem hbatch))
      rw [Demand.jobs, List.append_nil, hsent, ← hgathering.gathered.pending_id hold]
      exact hgathering.armed old hold
    | timer hsent =>
      rw [hsent]
      exact .inl (.inl (List.mem_append_right _ (List.mem_singleton.2 rfl)))
    | dispatch _ hpending =>
      rw [Option.mem_def, hpending] at hbatch
      cases hbatch
  · exact fun loader other hne hother => hgathering.others loader other hne ((hset hne).symm.trans hother)
  · intro job hdue hne other hother
    refine hgathering.alone job (hdue.imp_left fun hqueue => ?_) hne other ((hset hne).symm.trans hother)
    exact (List.mem_append.1 hqueue).resolve_right fun hjob => hne (Demand.loader_of_mem_jobs hjob)

theorem Gathering.request (hgathering : round.Gathering keys user timeline) (key : String) :
    ∃ user' later, timeline.request round.loader key = (.waiting (round.ticket + keys.length), later) ∧
      round.Gathering (keys ++ [key]) user' later := by
  have hmaxBatch : timeline.maxBatchOf user = round.definition.maxBatch := by
    rw [maxBatchOf, hgathering.definitionOf?_eq]
    rfl
  obtain ⟨demand, state, hload, hgathered, hdemands⟩ := hgathering.gathered.load key timeline.nextTicket
  have hrequest := (Requested.waiting hgathering.found (hmaxBatch ▸ hload)).eq
  rw [hrequest]
  have hticket := hgathering.ticket
  have hcoherent := hgathering.gathered.coherent
  have hmoves := State.load_moves round.definition.maxBatch key timeline.nextTicket user.state
  have hwaits : ∃ id, (user.state.load round.definition.maxBatch key timeline.nextTicket).2.Waits
      timeline.nextTicket key id :=
    State.load_waits hcoherent (by rw [hgathering.gathered.cache]; rfl) (hgathering.absent _ (Nat.le_refl _)) _
  rw [hload] at hmoves hwaits
  refine ⟨{ user with state }, _, Prod.ext (congrArg Strand.waiting hticket) rfl,
    hgathering.stage_request hgathered hdemands _, hgathered, ?_, ?_, ?_, hgathering.answers⟩
  · change timeline.nextTicket + 1 = _
    rw [List.length_append, List.length_singleton]
    omega
  · intro index other hother
    by_cases hindex : index < keys.length
    · rw [List.getElem?_append_left hindex] at hother
      obtain ⟨id, hwaits⟩ := hgathering.waits index other hother
      have hne : round.ticket + index ≠ timeline.nextTicket := by omega
      exact ⟨id, hmoves.waits hcoherent (by simpa using hne) (by simp) hwaits⟩
    · obtain ⟨hlt, hlast⟩ := List.getElem?_eq_some_iff.1 hother
      rw [List.length_append, List.length_singleton] at hlt
      obtain rfl : index = keys.length := by omega
      rw [List.getElem_concat_length rfl] at hlast
      rwa [← hlast, ← hticket]
  · intro ticket hle
    have hle : timeline.nextTicket + 1 ≤ ticket := hle
    have hne : ticket ≠ timeline.nextTicket := by omega
    exact hmoves.absent hcoherent (by simpa using hne) (hgathering.absent ticket (by omega))

theorem Gathering.pollAll (hgathering : round.Gathering keys user timeline) (hstart : start ≤ timeline.now)
    (rest : List String) :
    ∃ user' later, Timeline.pollAll (rest.map (.idle start round.loader ·)) timeline =
        ((List.range' (round.ticket + keys.length) rest.length).map .waiting, later) ∧
      round.Gathering (keys ++ rest) user' later := by
  induction rest generalizing keys user timeline with
  | nil => exact ⟨user, timeline, rfl, by rwa [List.append_nil]⟩
  | cons key rest ih =>
    obtain ⟨user', later, hrequest, hlater⟩ := hgathering.request key
    have hnow := (request_keeps round.loader key timeline).1
    rw [hrequest] at hnow
    obtain ⟨user'', final, hpoll, hfinal⟩ := ih hlater (hnow ▸ hstart)
    refine ⟨user'', final, ?_, by rwa [List.append_assoc] at hfinal⟩
    rw [List.map_cons, Timeline.pollAll, Timeline.poll, if_pos hstart, hrequest]
    dsimp only
    rw [hpoll, List.length_append, List.length_singleton]
    rfl

/-- The round that begins when a loader at rest is asked for keys. -/
theorem Gathering.awaited (hgathering : round.Gathering [] user timeline) (hstart : start ≤ timeline.now) :
    let polled := Timeline.pollAll (round.keys.map (.idle start round.loader ·)) timeline
    round.Awaited polled.1 polled.2 := by
  obtain ⟨user', later, hpoll, hlater⟩ := hgathering.pollAll hstart round.keys
  rw [hpoll]
  refine ⟨⟨by rw [List.length_map, List.length_range'], fun index strand hstrand => ?_⟩, _, _, user', hlater.serving⟩
  rw [List.getElem?_map, Option.map_eq_some_iff] at hstrand
  obtain ⟨ticket, hticket, rfl⟩ := hstrand
  obtain ⟨hlt, rfl⟩ := List.getElem?_eq_some_iff.1 hticket
  rw [List.getElem_range', Nat.one_mul]
  exact .inl rfl

end Round

/-! ### A loader at rest -/

theorem State.absent_of_vacant {state : State String Json} (hpending : state.pending = none)
    (hdispatched : state.dispatched = []) (hinFlight : state.inFlight = []) (ticket : Nat) : state.Absent ticket := by
  rintro (key | ⟨batch, key⟩ | key)
  · rw [State.ticketsAt, hpending]
    rfl
  · rw [State.ticketsAt, hdispatched]
    rfl
  · rw [State.ticketsAt, hinFlight]
    rfl

theorem State.gathered_of_vacant {state : State String Json} (hcoherent : state.Coherent) (hcache : state.cache = [])
    (hpending : state.pending = none) (hdispatched : state.dispatched = []) (size : Nat) :
    state.Gathered size state.nextBatch [] := by
  have hbatches : state.batches = [] := by
    rw [State.batches, hpending, hdispatched]
    rfl
  refine ⟨hcoherent, hcache, ?_, ?_, ?_, ?_⟩
  · rw [hbatches]
    exact ⟨rfl, rfl⟩
  · rw [hbatches]
    rfl
  · simp [hdispatched]
  · simp [hpending]

namespace Timeline

variable {timeline : Timeline} {loader : Nat} {user : Instance} {definition : Definition}

/-- A loader at rest, of which nothing was asked yet in a new round. -/
theorem Reached.gathering (hreached : timeline.Reached) (huser : timeline.instances[loader]? = some user)
    (hdefinition : timeline.definitions[user.definition]? = some definition) (hcache : user.state.cache = [])
    (hpending : user.state.pending = none) (hinFlight : user.state.inFlight = [])
    (halone : ∀ job, Due timeline.ready timeline.sleeping job → job.loader ≠ loader →
      ∀ other, timeline.instances[job.loader]? = some other → other.definition ≠ user.definition)
    (keys : List String) :
    let round : Round :=
      { loader, place := user.definition, definition, keys, first := user.state.nextBatch, ticket := timeline.nextTicket
        calls := (timeline.calls[user.definition]?.getD []).map Call.keys }
    round.Gathering [] user timeline := by
  intro round
  obtain ⟨⟨definitions, owners, hsound⟩, htended⟩ := hreached.tended
  have hattended := htended.attended loader user huser
  obtain ⟨hdispatched, htimers⟩ := hattended.at_rest hinFlight
  have hallows (job : Job) (hjob : job ∈ timeline.jobsBehind timeline.ready) : round.Allows 0 job := by
    by_cases hloader : job.loader = loader
    · obtain ⟨batch, hbatch, rfl | rfl⟩ := htimers job hjob hloader
      · exact fun _ => Nat.le_of_lt hbatch
      · exact fun _ => Nat.le_of_lt hbatch
    · exact Round.allows_of_ne hloader
  have hcalls : timeline.calls[user.definition]? = some (timeline.calls[user.definition]?.getD []) := by
    obtain ⟨hplace, -⟩ := List.getElem?_eq_some_iff.1 hdefinition
    rw [← htended.calls] at hplace
    rw [List.getElem?_eq_getElem hplace, Option.getD_some]
  refine ⟨⟨hdefinition, huser, rfl, ⟨_, hcalls, (List.append_nil _).symm⟩, ?_, ?_, ?_, ?_, halone⟩,
    State.gathered_of_vacant hattended.coherent hcache hpending hdispatched _, rfl, ?_, ?_, hsound.answers⟩
  · rw [hdispatched]
    exact Round.lined_of_allows fun job hjob => hallows job (List.mem_append_left _ hjob)
  · exact fun entry hentry => hallows entry.2 (List.mem_append_right _ (List.mem_map_of_mem hentry))
  · simp [hpending]
  · exact fun other another _ hanother => (hsound.instances another (List.mem_of_getElem? hanother)).2
  · simp
  · exact fun ticket _ => State.absent_of_vacant hpending hdispatched hinFlight ticket

/-- Many keys asked at once of a loader at rest. Its batch function is called for the consecutive chunks of the distinct
keys, in order, and each load returns what its key got in its chunk. The order is that of the jobs, which are run first
in, first out. No other loader with this batch function may have a job left meanwhile, not even a timer that has become
stale. -/
theorem many_loaded_in_chunks {ε : Type} (hreached : timeline.Reached) (huser : timeline.instances[loader]? = some user)
    (hdefinition : timeline.definitions[user.definition]? = some definition) (hcache : user.state.cache = [])
    (hpending : user.state.pending = none) (hinFlight : user.state.inFlight = [])
    (halone : ∀ job, Due timeline.ready timeline.sleeping job → job.loader ≠ loader →
      ∀ other, timeline.instances[job.loader]? = some other → other.definition ≠ user.definition)
    (keys : List String) :
    let before := (timeline.calls[user.definition]?.getD []).map Call.keys
    let parts := chunks (max 1 definition.maxBatch) keys.eraseDups
    ∃ strands final,
      timeline.await (fun _ => (none : Option ε)) [] timeline.now (keys.map (.idle timeline.now loader ·)) =
        (.finished strands, final) ∧
      (final.calls[user.definition]?.getD []).map Call.keys = before ++ parts ∧
      let outcomes := strands.filterMap fun strand => strand.result?.map Prod.fst
      outcomes.length = keys.length ∧ ∀ (index : Nat) (key : String), keys[index]? = some key →
        outcomes[index]? = (definition.serve before.length parts).lookup key := by
  intro before parts
  obtain ⟨⟨definitions, owners, hsound⟩, -⟩ := hreached.tended
  have hgathering := hreached.gathering huser hdefinition hcache hpending hinFlight halone keys
  let watch : Watch ε := { interruption? := fun _ => none, alarms := [], wake := timeline.now }
  have hwaits := watch.await_waits hsound (keys.map (.idle timeline.now loader ·))
  obtain ⟨strands, hfinished, hdone, hawaited⟩ := Round.Awaited.waits hwaits (fun _ => rfl) hsound (Nat.le_refl _)
    (hgathering.awaited (Nat.le_refl _))
  obtain ⟨calls, hcalls, hkeys⟩ := hawaited.calls hdone
  refine ⟨strands, _, Prod.ext hfinished rfl, ?_, ?_, ?_⟩
  · rw [hcalls]
    exact hkeys
  · rw [length_outcomes hdone]
    exact hawaited.follows.length
  · intro index key hkey
    obtain ⟨outcome, time, hstrand, hserved⟩ := hawaited.result hdone hkey
    rw [outcome_of_done hdone hstrand]
    exact hserved.symm

/-- A loader of pairs of keys, whose timers are slower than its calls. -/
def pairs : Definition where
  name := "pairs"
  maxBatch := 2
  delay := 5
  batch := fun count keys =>
    { duration := 3, results := some (keys.map fun key => .ok (.arr [.str key, .ofNat count])) }

/-- Two keys were loaded and forgotten again, and the timer of their batch still runs. -/
def reused : Timeline :=
  let adopted := ((ofDefinitions [pairs]).instance? 0 "pairs").2
  let asked := ((adopted.poll (.idle 0 0 "x")).2.poll (.idle 0 0 "y")).2
  let loaded := (asked.runReady.moveTo 3).runReady
  (loaded.step 0 fun state => ((), state.clearAll)).2

/-- The key that is asked for again after its chunk was sent off gets the same. -/
theorem many_loaded_in_chunks_reused :
    reused.Reached ∧ reused.sleeping = [(5, .fire 0 0)] ∧
      ∃ strands final,
        reused.await (fun _ => (none : Option Unit)) [] 3 (["a", "b", "a", "c", "a"].map (.idle 3 0 ·)) =
          (.finished strands, final) ∧
        (final.calls[0]?.getD []).map Call.keys = [["x", "y"], ["a", "b"], ["c"]] ∧
        let outcomes := strands.filterMap fun strand => strand.result?.map Prod.fst
        outcomes.length = 5 ∧ outcomes[0]? = some (.ok (.arr [.str "a", .ofNat 1])) ∧
          outcomes[3]? = some (.ok (.arr [.str "c", .ofNat 2])) ∧ outcomes[4]? = outcomes[0]? := by
  have hreached : reused.Reached :=
    .change (.run (.move (.run (.look (.look (.adopt (.start [pairs]) 0 "pairs") _) _)) 3)) 0 fun _ => ⟨[], rfl⟩
  have huser : reused.instances[0]? =
      some { owner := 0, definition := 0, state := { nextBatch := 1, timers := [0] } } := rfl
  have halone (job : Job) (hdue : Due reused.ready reused.sleeping job) : job.loader = 0 := by
    rcases hdue with hready | ⟨time, hsleeping⟩
    · cases hready
    · cases List.mem_singleton.1 hsleeping
      rfl
  obtain ⟨strands, final, hawait, hcalls, hlength, houtcome⟩ := @many_loaded_in_chunks reused 0 _ pairs Unit hreached
    huser rfl rfl rfl rfl (fun job hdue hne => absurd (halone job hdue) hne) ["a", "b", "a", "c", "a"]
  have hfirst := houtcome 0 "a" rfl
  have hlast := houtcome 4 "a" rfl
  exact ⟨hreached, rfl, strands, final, hawait, hcalls, hlength, hfirst, houtcome 3 "c" rfl, hlast.trans hfirst.symm⟩

end Timeline

end RelationalGraphQL.Loader
