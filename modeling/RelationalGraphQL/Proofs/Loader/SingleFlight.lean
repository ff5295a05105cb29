import RelationalGraphQL.Proofs.Loader.Delivery
import RelationalGraphQL.Proofs.Selection.Merge

/-!
# No key is loaded twice at once

A key stands in one batch at most, so while it is being loaded nobody asks for it again (`single_flight`). That batches
share no key is part of `State.Coherent`. What this module adds is how long they are, which the guards of a load
decide, and what they owe to the loads: the keys of a batch are those requested for it, each once, in the order of the
first requests. A key that was loaded is remembered and stands in no batch, so it is not loaded again unless something
other than a batch changes what is remembered.
-/

namespace RelationalGraphQL.Loader

variable {κ ν : Type}

/-! ### The pending batch -/

namespace State

variable {state : State κ ν}

theorem Coherent.waiters_pendingBatch (h : state.Coherent) :
    state.pendingBatch.waiters.map Prod.fst = state.pendingBatch.keys :=
  h.opened.waiters _ (List.mem_append_right _ (by simp))

theorem Coherent.pendingBatch_id_ne (h : state.Coherent) {batch : Batch κ} (hbatch : batch ∈ state.dispatched) :
    state.pendingBatch.id ≠ batch.id := by
  have hids := h.opened.ids
  rw [batches, List.map_append, List.nodup_append] at hids
  exact (hids.2.2 _ (List.mem_map_of_mem hbatch) _ (by simp)).symm

/-- A number that was given to a batch which is no longer pending. -/
def Closed (id : Nat) (state : State κ ν) : Prop := id < state.nextBatch ∧ ∀ batch ∈ state.pending, batch.id ≠ id

theorem Closed.pendingBatch_id_ne {id : Nat} (hclosed : state.Closed id) : state.pendingBatch.id ≠ id := by
  unfold pendingBatch
  cases hpending : state.pending with
  | none => exact Nat.ne_of_gt hclosed.1
  | some batch => exact hclosed.2 batch hpending

theorem Coherent.closed (h : state.Coherent) {batch : Batch κ} (hbatch : batch ∈ state.dispatched) :
    state.Closed batch.id := by
  refine ⟨h.numbered batch (List.mem_append_left _ hbatch), ?_⟩
  intro pending hpending
  have hne := h.pendingBatch_id_ne hbatch
  rwa [pendingBatch, hpending] at hne

end State

variable [DecidableEq κ]

/-! ### Lengths -/

namespace State

variable {maxBatch : Nat} {state : State κ ν}

/-- What a load does to the batches: nothing, or its key joins the pending one, which is sent off once it is full. -/
theorem load_cases (maxBatch : Nat) (key : κ) (ticket : Nat) (state : State κ ν) :
    let batch := state.pendingBatch.add key ticket
    let later := (state.load maxBatch key ticket).2
    later.cache = state.cache ∧
      (later.pending = state.pending ∧ later.dispatched = state.dispatched ∨
        state.cache.lookup key = none ∧
          (max 1 maxBatch ≤ batch.keys.length ∧ later.pending = none ∧ later.dispatched = state.dispatched ++ [batch] ∨
            batch.keys.length < max 1 maxBatch ∧ later.pending = some batch ∧ later.dispatched = state.dispatched)) := by
  intro batch later
  unfold later load
  split
  · exact ⟨rfl, .inl ⟨rfl, rfl⟩⟩
  · rename_i hcache
    split
    · exact ⟨rfl, .inl ⟨rfl, rfl⟩⟩
    · have hbatch : (state.pending.getD { id := state.nextBatch }).add key ticket = batch := rfl
      rw [hbatch]
      by_cases hfull : max 1 maxBatch ≤ batch.keys.length
      · rw [if_pos hfull]
        cases state.pending <;> exact ⟨rfl, .inr ⟨hcache, .inl ⟨hfull, rfl, rfl⟩⟩⟩
      · rw [if_neg hfull]
        cases state.pending <;> exact ⟨rfl, .inr ⟨hcache, .inr ⟨Nat.lt_of_not_le hfull, rfl, rfl⟩⟩⟩

/-- The pending batch has room for another key, and no batch is empty or too long. -/
structure Sized (maxBatch : Nat) (state : State κ ν) : Prop where
  pending : ∀ batch ∈ state.pending, 1 ≤ batch.keys.length ∧ batch.keys.length < max 1 maxBatch
  dispatched : ∀ batch ∈ state.dispatched, 1 ≤ batch.keys.length ∧ batch.keys.length ≤ max 1 maxBatch

theorem Sized.length_add (hsized : state.Sized maxBatch) (h : state.Coherent) (key : κ) (ticket : Nat) :
    1 ≤ (state.pendingBatch.add key ticket).keys.length ∧
      (state.pendingBatch.add key ticket).keys.length ≤ max 1 maxBatch := by
  have hroom : state.pendingBatch.keys.length < max 1 maxBatch := by
    unfold pendingBatch
    cases hpending : state.pending with
    | none =>
      show 0 < max 1 maxBatch
      omega
    | some batch => exact (hsized.pending batch hpending).2
  have hkey : key ∈ (state.pendingBatch.add key ticket).keys := (Batch.mem_keys_add h.waiters_pendingBatch).2 (.inr rfl)
  refine ⟨List.length_pos_of_mem hkey, ?_⟩
  rw [Batch.keys_add h.waiters_pendingBatch]
  split
  · omega
  · rw [List.length_append, List.length_singleton]
    omega

theorem Sized.load (hsized : state.Sized maxBatch) (h : state.Coherent) (key : κ) (ticket : Nat) :
    (state.load maxBatch key ticket).2.Sized maxBatch := by
  have hlength := hsized.length_add h key ticket
  obtain ⟨-, ⟨hpending, hdispatched⟩ | ⟨-, ⟨-, hpending, hdispatched⟩ | ⟨hroom, hpending, hdispatched⟩⟩⟩ :=
    load_cases maxBatch key ticket state
  · exact ⟨hpending ▸ hsized.pending, hdispatched ▸ hsized.dispatched⟩
  · refine ⟨hpending ▸ nofun, ?_⟩
    rw [hdispatched]
    exact List.forall_mem_append.2 ⟨hsized.dispatched, List.forall_mem_singleton.2 hlength⟩
  · refine ⟨?_, hdispatched ▸ hsized.dispatched⟩
    rw [hpending]
    intro batch hbatch
    cases hbatch
    exact ⟨hlength.1, hroom⟩

theorem Sized.fire (hsized : state.Sized maxBatch) (id : Nat) : (state.fire id).2.Sized maxBatch := by
  unfold State.fire
  dsimp only
  split
  · rename_i batch hpending
    have hbatch := hsized.pending batch hpending
    split
    · refine ⟨nofun, ?_⟩
      show ∀ other ∈ state.dispatched ++ [batch], _
      rw [List.forall_mem_append]
      exact ⟨hsized.dispatched, List.forall_mem_singleton.2 ⟨hbatch.1, Nat.le_of_lt hbatch.2⟩⟩
    · exact ⟨hsized.pending, hsized.dispatched⟩
  · exact ⟨hsized.pending, hsized.dispatched⟩

theorem Sized.release (hsized : state.Sized maxBatch) (batch : Batch κ) (cache : List (κ × ν)) :
    Sized maxBatch { state.release batch with cache } :=
  ⟨hsized.pending, fun other hother => hsized.dispatched other (List.mem_of_mem_filter hother)⟩

end State

theorem History.sized_after (maxBatch : Nat) (events : List (Event κ ν)) :
    (after maxBatch events).state.Sized maxBatch := by
  induction events using List.reverseRecOn with
  | nil => exact ⟨nofun, nofun⟩
  | append_singleton events event ih =>
    rw [after_snoc]
    cases event with
    | load key => exact ih.load (coherent_after maxBatch events) key _
    | fire id => exact ih.fire id
    | settle id results =>
      simp only [step, State.settle]
      split
      · exact ih
      · exact ih.release _ _
    | crash id =>
      simp only [step, State.crash]
      split
      · exact ih
      · exact ih.release _ _
    | prime key value =>
      simp only [step, State.prime]
      split
      · exact ih
      · exact ⟨ih.pending, ih.dispatched⟩
    | clear key => exact ⟨ih.pending, ih.dispatched⟩
    | clearAll => exact ⟨ih.pending, ih.dispatched⟩

/-! ### Requests -/

namespace History

section

variable {α : Type}

/-- What is seen of events one after another, each in the history before it. -/
def observed (maxBatch : Nat) (observe : History κ ν → Event κ ν → List α) : History κ ν → List (Event κ ν) → List α
  | _, [] => []
  | history, event :: rest => observe history event ++ observed maxBatch observe (history.step maxBatch event) rest

theorem observed_snoc (maxBatch : Nat) (observe : History κ ν → Event κ ν → List α) (history : History κ ν)
    (events : List (Event κ ν)) (event : Event κ ν) :
    observed maxBatch observe history (events ++ [event]) =
      observed maxBatch observe history events ++ observe (events.foldl (step maxBatch) history) event := by
  induction events generalizing history with
  | nil => exact List.append_nil _
  | cons first rest ih => simp only [List.cons_append, observed, ih, List.foldl_cons, List.append_assoc]

end

/-- The key of a load that joins a batch: neither what is remembered nor a batch under way has it. -/
def joining (id : Nat) (history : History κ ν) : Event κ ν → List κ
  | .load key =>
    if history.state.cache.lookup key = none ∧ key ∉ history.state.inFlight.map Prod.fst ∧
        history.state.pendingBatch.id = id then [key]
    else []
  | _ => []

/-- The keys requested for a batch, request after request. -/
def requests (maxBatch : Nat) (id : Nat) (events : List (Event κ ν)) : List κ := observed maxBatch (joining id) {} events

/-- The batches that an event hands to the batch function: those it finds waiting and leaves under way. -/
def sending (maxBatch : Nat) (history : History κ ν) (event : Event κ ν) : List (Batch κ) :=
  (history.step maxBatch event).state.dispatched.filter fun batch => batch.id ∉ history.state.dispatched.map Batch.id

/-- All batches ever handed to the batch function. -/
def sent (maxBatch : Nat) (events : List (Event κ ν)) : List (Batch κ) :=
  observed maxBatch (sending maxBatch) {} events

end History

namespace State

variable {state state' : State κ ν} {allowed : Change → Prop} {requests : Nat → List κ}

/-- No batch changes, and none is numbered, unless a ticket is taken. -/
theorem Moves.batches_subset (hmoves : Moves allowed state state') (hregister : ∀ ticket, ¬ allowed (.register ticket)) :
    state'.batches ⊆ state.batches ∧ state'.nextBatch = state.nextBatch := by
  induction hmoves with
  | refl => exact ⟨List.Subset.refl _, rfl⟩
  | tail _ hmove ih =>
    obtain ⟨change, hallowed, hmove⟩ := hmove
    cases hmove with
    | rest cache timers => exact ih
    | register key ticket => exact absurd hallowed (hregister ticket)
    | dispatch batch hpending =>
      refine ⟨?_, ih.2⟩
      rw [batches_of_pending hpending] at ih
      show _ ++ [] ⊆ _
      rw [List.append_nil]
      exact ih.1
    | release batch =>
      refine ⟨List.Subset.trans ?_ ih.1, ih.2⟩
      exact (List.filter_sublist.append (List.Sublist.refl _)).subset

/-- The batches hold what was requested for them. -/
structure Holds (requests : Nat → List κ) (state : State κ ν) : Prop where
  keys : ∀ batch ∈ state.batches, batch.keys = (requests batch.id).eraseDups
  fresh : ∀ id, state.nextBatch ≤ id → requests id = []

theorem Holds.moves (hholds : state.Holds requests) (hmoves : Moves allowed state state')
    (hregister : ∀ ticket, ¬ allowed (.register ticket)) : state'.Holds requests := by
  obtain ⟨hsubset, hnext⟩ := hmoves.batches_subset hregister
  refine ⟨fun batch hbatch => hholds.keys batch (hsubset hbatch), ?_⟩
  rw [hnext]
  exact hholds.fresh

theorem Holds.keys_pendingBatch (hholds : state.Holds requests) :
    state.pendingBatch.keys = (requests state.pendingBatch.id).eraseDups := by
  unfold pendingBatch
  cases hpending : state.pending with
  | none =>
    rw [Option.getD_none, hholds.fresh state.nextBatch (Nat.le_refl _)]
    rfl
  | some batch =>
    apply hholds.keys batch
    rw [batches_of_pending hpending]
    simp

theorem Coherent.pendingBatch_id_lt (h : state.Coherent) (key : κ) (ticket : Nat) :
    state.pendingBatch.id < (state.join key ticket).nextBatch :=
  h.opened.numbered _ (List.mem_append_right _ (by simp))

theorem nextBatch_le_join (key : κ) (ticket : Nat) (state : State κ ν) :
    state.nextBatch ≤ (state.join key ticket).nextBatch := by
  unfold State.join
  dsimp only
  split <;> omega

/-- A key that joins the pending batch is requested for that batch and no other. -/
theorem Holds.join (hholds : state.Holds requests) (h : state.Coherent) (key : κ) (ticket : Nat) :
    (state.join key ticket).Holds fun id => requests id ++ if state.pendingBatch.id = id then [key] else [] := by
  refine ⟨fun batch hbatch => ?_, fun id hid => ?_⟩
  · rcases List.mem_append.1 hbatch with hbatch | hbatch
    · rw [if_neg (h.pendingBatch_id_ne hbatch), List.append_nil]
      exact hholds.keys batch (List.mem_append_left _ hbatch)
    · obtain rfl : batch = state.pendingBatch.add key ticket := List.mem_singleton.1 hbatch
      have hmem : key ∈ requests state.pendingBatch.id ↔ key ∈ state.pendingBatch.keys := by
        rw [hholds.keys_pendingBatch, List.mem_eraseDups]
      have hid : (state.pendingBatch.add key ticket).id = state.pendingBatch.id := rfl
      rw [hid, if_pos rfl, Selection.eraseDups_concat, ← hholds.keys_pendingBatch,
        Batch.keys_add h.waiters_pendingBatch]
      simp only [hmem]
  · have hnumber := h.pendingBatch_id_lt key ticket
    have hnext := state.nextBatch_le_join key ticket
    rw [hholds.fresh id (by omega), if_neg (by omega), List.append_nil]

end State

namespace History

variable {maxBatch : Nat} {history : History κ ν} {event : Event κ ν}

theorem joining_of_not_load (hload : ∀ key, event ≠ .load key) (history : History κ ν) (id : Nat) :
    history.joining id event = [] := by
  cases event with
  | load key => exact absurd rfl (hload key)
  | fire | settle | crash | prime | clear | clearAll => rfl

theorem step_holds {requests : Nat → List κ} (h : history.state.Coherent) (hholds : history.state.Holds requests)
    (event : Event κ ν) :
    (history.step maxBatch event).state.Holds fun id => requests id ++ history.joining id event := by
  by_cases hload : ∃ key, event = .load key
  · obtain ⟨key, rfl⟩ := hload
    cases hcache : history.state.cache.lookup key with
    | some value =>
      rw [step_load_cached maxBatch hcache]
      simpa [joining, hcache] using hholds
    | none =>
      obtain ⟨-, middle, hregisters, hmoves⟩ := State.load_of_lookup_eq_none hcache maxBatch history.loads
      refine State.Holds.moves ?_ hmoves nofun
      cases hregisters with
      | late hkey =>
        have hnone : ∀ id, history.joining id (.load key) = [] := fun id => if_neg fun hjoins => hjoins.2.1 hkey
        simp only [hnone, List.append_nil]
        exact ⟨hholds.keys, hholds.fresh⟩
      | join hkey => simpa [joining, hcache, hkey] using hholds.join h key history.loads
  · have hnone := joining_of_not_load (not_exists.1 hload) history
    simp only [hnone, List.append_nil]
    exact hholds.moves (step_moves maxBatch history event) fun ticket hallows => hload hallows.1

theorem holds_after (maxBatch : Nat) (events : List (Event κ ν)) :
    (after maxBatch events).state.Holds fun id => requests maxBatch id events := by
  induction events using List.reverseRecOn with
  | nil => exact ⟨nofun, fun _ _ => rfl⟩
  | append_singleton events event ih =>
    simp only [after_snoc, requests, observed_snoc]
    exact step_holds (coherent_after maxBatch events) ih event

end History

/-! ### Batches that take no more keys -/

namespace State

variable {state state' : State κ ν} {id : Nat}

theorem Closed.moves {allowed : Change → Prop} (hclosed : state.Closed id) (hmoves : Moves allowed state state') :
    state'.Closed id := by
  induction hmoves with
  | refl => exact hclosed
  | tail _ hmove ih =>
    obtain ⟨change, -, hmove⟩ := hmove
    cases hmove with
    | rest | release => exact ih
    | dispatch => exact ⟨ih.1, nofun⟩
    | register key ticket hregisters =>
      cases hregisters with
      | late => exact ih
      | join =>
        refine ⟨Nat.lt_of_lt_of_le ih.1 (nextBatch_le_join key ticket _), ?_⟩
        intro batch hbatch
        cases hbatch
        exact ih.pendingBatch_id_ne

end State

namespace History

variable {maxBatch : Nat}

/-- A batch that was handed over had a fair number of keys, and nothing was requested for it since. -/
theorem sent_after (maxBatch : Nat) (events : List (Event κ ν)) : ∀ batch ∈ sent maxBatch events,
    (after maxBatch events).state.Closed batch.id ∧ 1 ≤ batch.keys.length ∧ batch.keys.length ≤ max 1 maxBatch ∧
      batch.keys = (requests maxBatch batch.id events).eraseDups := by
  induction events using List.reverseRecOn with
  | nil => exact nofun
  | append_singleton events event ih =>
    intro batch hbatch
    rw [sent, observed_snoc] at hbatch
    rcases List.mem_append.1 hbatch with hbatch | hbatch
    · obtain ⟨hclosed, hlower, hupper, hkeys⟩ := ih batch hbatch
      have hnone : (after maxBatch events).joining batch.id event = [] := by
        cases event with
        | load key => exact if_neg fun ⟨_, _, hid⟩ => hclosed.pendingBatch_id_ne hid
        | fire | settle | crash | prime | clear | clearAll => rfl
      rw [after_snoc, requests, observed_snoc]
      refine ⟨hclosed.moves (step_moves maxBatch _ event), hlower, hupper, hkeys.trans ?_⟩
      change _ = (_ ++ (after maxBatch events).joining batch.id event).eraseDups
      rw [hnone, List.append_nil]
      rfl
    · have hdispatched : batch ∈ (after maxBatch (events ++ [event])).state.dispatched := by
        rw [after_snoc]
        exact List.mem_of_mem_filter hbatch
      have hlength := (sized_after maxBatch (events ++ [event])).dispatched batch hdispatched
      have hkeys := (holds_after maxBatch (events ++ [event])).keys batch (List.mem_append_left _ hdispatched)
      exact ⟨(coherent_after maxBatch _).closed hdispatched, hlength.1, hlength.2, hkeys⟩

end History

/-! ### Loaded keys -/

theorem mem_keys_setCached {key other : κ} {value : ν} {cache : List (κ × ν)} :
    other ∈ (setCached key value cache).map Prod.fst ↔ other = key ∨ other ∈ cache.map Prod.fst := by
  by_cases heq : other = key <;> simp [setCached, heq]

/-- After a batch, what was remembered before still is, and so are the keys that were loaded. -/
theorem mem_keys_remember {other : κ} {outcomes : List (κ × Except LoadError ν)} {cache : List (κ × ν)} :
    other ∈ (outcomes.foldl
      (fun cache (key, outcome) => match outcome with
        | .ok value => setCached key value cache
        | .error _ => cache) cache).map Prod.fst ↔
      other ∈ cache.map Prod.fst ∨ ∃ value, (other, Except.ok value) ∈ outcomes := by
  induction outcomes generalizing cache with
  | nil => simp
  | cons first rest ih =>
    obtain ⟨key, outcome⟩ := first
    rw [List.foldl_cons, ih]
    cases outcome with
    | error error => simp
    | ok value =>
      rw [mem_keys_setCached]
      simp only [List.mem_cons, Prod.mk.injEq, Except.ok.injEq]
      grind

/-- Events after which the loader remembers no less, and nothing new but what its batches loaded. -/
def Event.LeavesCache : Event κ ν → Prop
  | .prime _ _ | .clear _ | .clearAll => False
  | _ => True

/-- A key that is remembered and stands in no batch. -/
structure State.Kept (key : κ) (state : State κ ν) : Prop where
  cached : key ∈ state.cache.map Prod.fst
  absent : ∀ batch ∈ state.batches, key ∉ batch.keys

namespace History

variable {maxBatch : Nat} {history : History κ ν} {key : κ} {event : Event κ ν} {value : ν}

/-- The value that the batch function returns for a key when the event ends a batch with success for it. A reply that
has not one result for each key of the batch has none for this key. -/
def loading (key : κ) (history : History κ ν) : Event κ ν → List ν
  | .settle id results =>
    match history.state.dispatched.find? fun batch => batch.id = id with
    | some batch =>
      if results.length = batch.keys.length then (results[batch.keys.idxOf key]?.bind Except.toOption).toList else []
    | none => []
  | _ => []

/-- All values that the batch function ever returned for a key. -/
def loaded (maxBatch : Nat) (key : κ) (events : List (Event κ ν)) : List ν := observed maxBatch (loading key) {} events

theorem loading_length_le (key : κ) (history : History κ ν) (event : Event κ ν) :
    (history.loading key event).length ≤ 1 := by
  unfold loading
  split
  · split
    · split
      · exact Option.length_toList_le
      · exact Nat.zero_le _
    · exact Nat.zero_le _
  · exact Nat.zero_le _

theorem exists_of_mem_loading (hvalue : value ∈ history.loading key event) :
    ∃ id results batch, event = .settle id results ∧
      history.state.dispatched.find? (fun batch => batch.id = id) = some batch ∧ key ∈ batch.keys ∧
      (key, .ok value) ∈ batch.keys.zip (State.aligned batch.keys results) := by
  cases event with
  | load | fire | crash | prime | clear | clearAll => cases hvalue
  | settle id results =>
    unfold loading at hvalue
    dsimp only at hvalue
    split at hvalue
    · rename_i batch hfound
      split at hvalue
      · rename_i hlength
        obtain ⟨outcome, hresult, hoption⟩ := Option.bind_eq_some_iff.1 (Option.mem_toList.1 hvalue)
        obtain rfl : outcome = .ok value := by
          cases outcome with
          | ok other => exact congrArg Except.ok (Option.some.inj hoption)
          | error error => cases hoption
        have hindex : batch.keys.idxOf key < batch.keys.length := by
          rw [← hlength]
          exact (List.getElem?_eq_some_iff.1 hresult).1
        have hat : batch.keys[batch.keys.idxOf key]? = some key := by
          rw [List.getElem?_eq_getElem hindex, List.getElem_idxOf hindex]
        refine ⟨id, results, batch, rfl, hfound, List.idxOf_lt_length_iff.1 hindex, ?_⟩
        rw [State.aligned, if_pos hlength]
        exact List.mem_of_getElem? (List.getElem?_zip_eq_some.2 ⟨hat, hresult⟩)
      · cases hvalue
    · cases hvalue

theorem loading_of_kept (hkept : history.state.Kept key) (event : Event κ ν) : history.loading key event = [] := by
  apply List.eq_nil_iff_forall_not_mem.2
  intro value hvalue
  obtain ⟨_, _, batch, _, hfound, hkey, _⟩ := exists_of_mem_loading hvalue
  exact hkept.absent batch (List.mem_append_left _ (List.mem_of_find?_eq_some hfound)) hkey

theorem step_cached (hleaves : event.LeavesCache) (hcached : key ∈ history.state.cache.map Prod.fst) :
    key ∈ (history.step maxBatch event).state.cache.map Prod.fst := by
  cases event with
  | load other =>
    change key ∈ (history.state.load maxBatch other history.loads).2.cache.map Prod.fst
    rwa [(State.load_cases maxBatch other history.loads history.state).1]
  | fire id =>
    simp only [step, State.fire]
    split
    · split <;> exact hcached
    · exact hcached
  | settle id results =>
    simp only [step, State.settle]
    split
    · exact hcached
    · exact mem_keys_remember.2 (.inl hcached)
  | crash id =>
    simp only [step, State.crash]
    split <;> exact hcached
  | prime | clear | clearAll => exact hleaves.elim

theorem step_absent_key (h : history.state.Coherent) (hkept : history.state.Kept key) (event : Event κ ν) :
    ∀ batch ∈ (history.step maxBatch event).state.batches, key ∉ batch.keys := by
  by_cases hload : ∃ other, event = .load other
  · obtain ⟨other, rfl⟩ := hload
    change ∀ batch ∈ (history.state.load maxBatch other history.loads).2.batches, key ∉ batch.keys
    obtain ⟨-, ⟨hpending, hdispatched⟩ | ⟨hcache, hbatches⟩⟩ :=
      State.load_cases maxBatch other history.loads history.state
    · rw [State.batches, hpending, hdispatched]
      exact hkept.absent
    · have hbatches : (history.state.load maxBatch other history.loads).2.batches =
          history.state.dispatched ++ [history.state.pendingBatch.add other history.loads] := by
        rw [State.batches]
        obtain ⟨-, hpending, hdispatched⟩ | ⟨-, hpending, hdispatched⟩ := hbatches
        · rw [hpending, hdispatched]
          exact List.append_nil _
        · rw [hpending, hdispatched]
          rfl
      rw [hbatches, List.forall_mem_append]
      refine ⟨fun batch hbatch => hkept.absent batch (List.mem_append_left _ hbatch), ?_⟩
      rw [List.forall_mem_singleton, Batch.mem_keys_add h.waiters_pendingBatch, not_or]
      constructor
      · unfold State.pendingBatch
        cases hpending : history.state.pending with
        | none => exact List.not_mem_nil
        | some batch => exact hkept.absent batch (List.mem_append_right _ (by simp [hpending]))
      · -- the key is remembered, and a load of it would not have got as far as a batch
        intro heq
        have hsome := lookup_isSome_iff_mem.2 hkept.cached
        rw [heq, hcache] at hsome
        cases hsome
  · obtain ⟨hsubset, -⟩ := (step_moves maxBatch history event).batches_subset fun ticket hallows => hload hallows.1
    exact fun batch hbatch => hkept.absent batch (hsubset hbatch)

theorem step_kept_of_mem_loading (h : history.state.Coherent) (hvalue : value ∈ history.loading key event) :
    (history.step maxBatch event).state.Kept key := by
  obtain ⟨id, results, batch, rfl, hfound, hkey, houtcome⟩ := exists_of_mem_loading hvalue
  have hbatch : batch ∈ history.state.batches := List.mem_append_left _ (List.mem_of_find?_eq_some hfound)
  simp only [step, State.settle, hfound]
  refine ⟨mem_keys_remember.2 (.inr ⟨value, houtcome⟩), ?_⟩
  intro other hother hkey'
  have hmem : other ∈ history.state.batches :=
    (List.filter_sublist.append (List.Sublist.refl _)).subset hother
  obtain rfl := h.batch_of_key hbatch hmem hkey hkey'
  rcases List.mem_append.1 hother with hother | hother
  · simpa using List.of_mem_filter hother
  · have hclosed := h.closed (List.mem_of_find?_eq_some hfound)
    exact hclosed.2 batch (Option.mem_toList.1 hother) rfl

theorem loaded_length_le (maxBatch : Nat) (key : κ) (events : List (Event κ ν))
    (hleaves : ∀ event ∈ events, event.LeavesCache) :
    (loaded maxBatch key events).length ≤ 1 ∧
      (loaded maxBatch key events ≠ [] → (after maxBatch events).state.Kept key) := by
  induction events using List.reverseRecOn with
  | nil => exact ⟨Nat.zero_le _, fun hne => absurd rfl hne⟩
  | append_singleton events event ih =>
    obtain ⟨hlength, hkept⟩ := ih fun event hevent => hleaves event (List.mem_append_left _ hevent)
    have h := coherent_after maxBatch events
    have hsnoc : loaded maxBatch key (events ++ [event]) =
        loaded maxBatch key events ++ (after maxBatch events).loading key event := observed_snoc ..
    rw [hsnoc, after_snoc]
    by_cases hnone : loaded maxBatch key events = []
    · rw [hnone, List.nil_append]
      refine ⟨loading_length_le key _ event, ?_⟩
      intro hne
      obtain ⟨value, hvalue⟩ := List.exists_mem_of_ne_nil _ hne
      exact step_kept_of_mem_loading h hvalue
    · have hkept := hkept hnone
      rw [loading_of_kept hkept, List.append_nil]
      refine ⟨hlength, fun _ => ⟨step_cached (hleaves event (by simp)) hkept.cached, ?_⟩⟩
      exact step_absent_key h hkept event

/-! ### Single flight -/

/-- However the events of a loader interleave: the batches that have not ended hold no key twice and share none, and
the keys in flight are those of the batches under way. The pending batch has a key and room for another, and those
that wait for it wait for its keys. Every batch ever handed to the batch function has between one key and the maximum,
no key twice, and its keys stand in the order in which they were first requested for it. While nothing else touches
what is remembered, the batch function is successful for a key once at most. -/
theorem single_flight (maxBatch : Nat) (events : List (Event κ ν)) :
    let state := (after maxBatch events).state
    (∀ batch ∈ state.batches, batch.keys.Nodup) ∧
    state.batches.Pairwise (fun batch other => batch.keys.Disjoint other.keys) ∧
    state.inFlight.map Prod.fst = state.dispatched.flatMap Batch.keys ∧
    (∀ batch ∈ state.pending, 1 ≤ batch.keys.length ∧ batch.keys.length < max 1 maxBatch ∧
      batch.waiters.map Prod.fst = batch.keys) ∧
    (∀ batch ∈ sent maxBatch events, 1 ≤ batch.keys.length ∧ batch.keys.length ≤ max 1 maxBatch ∧
      batch.keys.Nodup ∧ batch.keys = (requests maxBatch batch.id events).eraseDups) ∧
    ((∀ event ∈ events, event.LeavesCache) → ∀ key, (loaded maxBatch key events).length ≤ 1) := by
  have h := coherent_after maxBatch events
  have hsized := sized_after maxBatch events
  obtain ⟨hnodup, hdisjoint⟩ := List.nodup_flatMap.1 h.keys
  refine ⟨hnodup, hdisjoint, h.inFlight, ?_, ?_, ?_⟩
  · intro batch hbatch
    obtain ⟨hlower, hupper⟩ := hsized.pending batch hbatch
    exact ⟨hlower, hupper, h.waiters batch (List.mem_append_right _ (Option.mem_toList.2 hbatch))⟩
  · intro batch hbatch
    obtain ⟨-, hlower, hupper, hkeys⟩ := sent_after maxBatch events batch hbatch
    exact ⟨hlower, hupper, hkeys ▸ Selection.nodup_eraseDups _, hkeys⟩
  · intro hleaves key
    exact (loaded_length_le maxBatch key events hleaves).1

/-- Loads that find their key in the pending batch, under way, loaded and failed. -/
def overlapping : List (Event Nat String) :=
  [.load 1, .load 1, .load 2, .load 1, .load 3, .settle 0 [.ok "one", .error (.failed "two")], .load 1, .load 2, .load 4]

theorem single_flight_overlapping :
    (∃ batch ∈ (after 2 overlapping).state.pending, batch.keys = [4] ∧ batch.keys.length < max 1 2) ∧
    (∃ batch ∈ sent 2 overlapping, batch.keys = [3, 2] ∧
      batch.keys = (requests 2 batch.id overlapping).eraseDups) ∧
    (∀ event ∈ overlapping, event.LeavesCache) ∧ loaded 2 1 overlapping = ["one"] ∧
      (loaded 2 1 overlapping).length ≤ 1 := by
  obtain ⟨-, -, -, hpending, hsent, hloaded⟩ := single_flight 2 overlapping
  have hmem : { id := 1, keys := [3, 2], waiters := [(3, [4]), (2, [6])] } ∈ sent 2 overlapping :=
    List.mem_of_getElem? (i := 1) rfl
  have hleaves : ∀ event ∈ overlapping, event.LeavesCache := by simp [overlapping, Event.LeavesCache]
  exact ⟨⟨_, rfl, rfl, (hpending _ rfl).2.1⟩, ⟨_, hmem, rfl, (hsent _ hmem).2.2.2⟩, hleaves, rfl, hloaded hleaves 1⟩

end History

end RelationalGraphQL.Loader
