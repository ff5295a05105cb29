import RelationalGraphQL.Proofs.Loader.SingleFlight

/-!
# How requests fall into batches

Keys that are asked for one after the other, while nothing is loaded yet, fall into consecutive chunks of the distinct
keys: a batch is sent off when it has as many keys as fit, and only the last may still be short (`Gathered`). Each
request adds its key at the end, and what it demands says whether it opened a batch, filled it or neither
(`Gathered.load`).
-/

namespace RelationalGraphQL.Loader

variable {κ ν : Type}

/-! ### Chunks -/

/-- The consecutive chunks of a size, of which only the last may be shorter. -/
def chunks (size : Nat) (keys : List κ) : List (List κ) :=
  (List.range ((keys.length + size - 1) / size)).map fun place => (keys.drop (place * size)).take size

section

variable {size : Nat}

theorem chunks_nil (hsize : 0 < size) : chunks size ([] : List κ) = [] := by
  have hnone : ([] : List κ).length + size - 1 < size := by
    rw [List.length_nil]
    omega
  rw [chunks, Nat.div_eq_of_lt hnone]
  rfl

theorem chunks_append {chunk : List κ} (hchunk : chunk.length = size) (hsize : 0 < size) (rest : List κ) :
    chunks size (chunk ++ rest) = chunk :: chunks size rest := by
  have hlength : ((chunk ++ rest).length + size - 1) / size = (rest.length + size - 1) / size + 1 := by
    rw [List.length_append, hchunk, ← Nat.add_div_right _ hsize]
    congr 1
    omega
  rw [chunks, hlength, List.range_succ_eq_map, List.map_cons, List.map_map, chunks]
  congr 1
  · rw [Nat.zero_mul, List.drop_zero, ← hchunk, List.take_left]
  · refine List.map_congr_left fun place _ => ?_
    dsimp only [Function.comp]
    rw [Nat.succ_mul, Nat.add_comm, ← List.drop_drop, ← hchunk, List.drop_left]

theorem chunks_of_le {keys : List κ} (hkeys : 0 < keys.length) (hle : keys.length ≤ size) :
    chunks size keys = [keys] := by
  have hlength : (keys.length + size - 1) / size = 1 := by
    rw [Nat.div_eq_iff (by omega)]
    omega
  rw [chunks, hlength, List.range_one, List.map_singleton, Nat.zero_mul, List.drop_zero, List.take_of_length_le hle]

theorem chunks_flatMap {α : Type} {parts : List α} {content : α → List κ}
    (hparts : ∀ part ∈ parts, (content part).length = size) (hsize : 0 < size) (rest : List κ) :
    chunks size (parts.flatMap content ++ rest) = parts.map content ++ chunks size rest := by
  induction parts with
  | nil => rfl
  | cons part parts ih =>
    rw [List.flatMap_cons, List.append_assoc, chunks_append (hparts part List.mem_cons_self) hsize,
      ih fun other hother => hparts other (List.mem_cons_of_mem _ hother), List.map_cons, List.cons_append]

theorem flatten_chunks (hsize : 0 < size) (keys : List κ) : (chunks size keys).flatten = keys := by
  have htake (count : Nat) : ((List.range count).map fun place => (keys.drop (place * size)).take size).flatten =
      keys.take (count * size) := by
    induction count with
    | zero => rw [Nat.zero_mul, List.take_zero, List.range_zero, List.map_nil, List.flatten_nil]
    | succ count ih =>
      rw [List.range_succ, List.map_append, List.flatten_append, ih, List.map_singleton, List.flatten_singleton,
        Nat.succ_mul, List.take_add]
  rw [chunks, htake]
  apply List.take_of_length_le
  have hdiv := @Nat.lt_div_mul_add (keys.length + size - 1) size hsize
  omega

theorem ne_nil_of_mem_chunks {keys chunk : List κ} (hchunk : chunk ∈ chunks size keys) : chunk ≠ [] := by
  obtain ⟨place, hplace, rfl⟩ := List.mem_map.1 hchunk
  have hsize : 0 < size := by
    rcases Nat.eq_zero_or_pos size with rfl | hsize
    · simp at hplace
    · exact hsize
  have hlt := Nat.mul_le_of_le_div size _ _ (List.mem_range.1 hplace)
  rw [Nat.succ_mul] at hlt
  rw [← List.length_pos_iff, List.length_take, List.length_drop]
  omega

end

/-! ### Batches in the order of the requests -/

/-- Batches numbered from a first one on that hold the distinct keys of some requests. -/
structure Filled [DecidableEq κ] (first : Nat) (keys : List κ) (batches : List (Batch κ)) : Prop where
  keys : batches.flatMap Batch.keys = keys.eraseDups
  ids : batches.map Batch.id = List.range' first batches.length

section

variable [DecidableEq κ] {first : Nat} {keys : List κ} {batches : List (Batch κ)} {batch : Batch κ}

theorem Filled.id_of_getElem? (h : Filled first keys batches) {place : Nat} (hbatch : batches[place]? = some batch) :
    batch.id = first + place := by
  obtain ⟨hplace, -⟩ := List.getElem?_eq_some_iff.1 hbatch
  have hid : (batches.map Batch.id)[place]? = some batch.id := by rw [List.getElem?_map, hbatch, Option.map_some]
  rw [h.ids, List.getElem?_range' hplace, Nat.one_mul] at hid
  exact (Option.some.inj hid).symm

theorem Filled.id_last (h : Filled first keys (batches ++ [batch])) : batch.id = first + batches.length :=
  h.id_of_getElem? (List.getElem?_concat_length ..)

/-- A key that none of the earlier batches has is asked of the last one. -/
theorem Filled.add (h : Filled first keys (batches ++ [batch])) (hwaiters : batch.waiters.map Prod.fst = batch.keys)
    {key : κ} (hkey : key ∉ batches.flatMap Batch.keys) (ticket : Nat) :
    Filled first (keys ++ [key]) (batches ++ [batch.add key ticket]) := by
  have hkeys := h.keys
  rw [List.flatMap_append, List.flatMap_singleton] at hkeys
  have hmem : key ∈ keys ↔ key ∈ batch.keys := by
    rw [← List.mem_eraseDups, ← hkeys, List.mem_append]
    exact or_iff_right hkey
  constructor
  · rw [List.flatMap_append, List.flatMap_singleton, Batch.keys_add hwaiters, Selection.eraseDups_concat, ← hkeys]
    simp only [hmem]
    split
    · rfl
    · rw [List.append_assoc]
  · have hids := h.ids
    rw [List.map_append, List.length_append] at hids ⊢
    exact hids

end

namespace State

/-- How a load that is not answered at once is received: behind a batch that is being loaded, or in the pending batch,
which it may open and fill. -/
inductive Received [DecidableEq κ] (maxBatch : Nat) (state : State κ ν) (key : κ) (ticket : Nat) :
    Demand → State κ ν → Prop where
  | late (hkey : key ∈ state.inFlight.map Prod.fst) :
      Received maxBatch state key ticket .nothing { state with inFlight := addWaiter key ticket state.inFlight }
  | joined (hkey : key ∉ state.inFlight.map Prod.fst)
      (hroom : (state.pendingBatch.add key ticket).keys.length < max 1 maxBatch) (hpending : state.pending.isSome) :
      Received maxBatch state key ticket .nothing (state.join key ticket)
  | opened (hkey : key ∉ state.inFlight.map Prod.fst)
      (hroom : (state.pendingBatch.add key ticket).keys.length < max 1 maxBatch) (timers : List Nat) :
      Received maxBatch state key ticket (.timer state.pendingBatch.id) { state.join key ticket with timers }
  | filled (hkey : key ∉ state.inFlight.map Prod.fst)
      (hfull : max 1 maxBatch ≤ (state.pendingBatch.add key ticket).keys.length) :
      Received maxBatch state key ticket (.dispatch state.pendingBatch.id)
        ((state.join key ticket).dispatch (state.pendingBatch.add key ticket))

theorem received [DecidableEq κ] {state : State κ ν} {key : κ} (hcache : state.cache.lookup key = none)
    (maxBatch ticket : Nat) :
    ∃ demand later, state.load maxBatch key ticket = (.waiting demand, later) ∧
      Received maxBatch state key ticket demand later := by
  rw [load, hcache]
  dsimp only
  split
  · next hlate => exact ⟨_, _, rfl, .late (lookup_isSome_iff_mem.1 hlate)⟩
  · next hnew =>
    have hkey := mt lookup_isSome_iff_mem.2 hnew
    have hbatch :
        (state.pending.getD { id := state.nextBatch }).add key ticket = state.pendingBatch.add key ticket := rfl
    rw [hbatch]
    by_cases hfull : max 1 maxBatch ≤ (state.pendingBatch.add key ticket).keys.length
    · rw [if_pos hfull]
      refine ⟨_, _, rfl, ?_⟩
      obtain ⟨cache, pending, timers, dispatched, inFlight, nextBatch⟩ := state
      cases pending <;> exact .filled hkey hfull
    · rw [if_neg hfull]
      have hroom := Nat.lt_of_not_le hfull
      obtain ⟨cache, pending, timers, dispatched, inFlight, nextBatch⟩ := state
      cases pending with
      | none => exact ⟨_, _, rfl, .opened hkey hroom (timers ++ [nextBatch])⟩
      | some batch => exact ⟨_, _, rfl, .joined hkey hroom rfl⟩

/-- A loader that took requests, and nothing else, since its first batch. -/
structure Gathered [DecidableEq κ] (size first : Nat) (keys : List κ) (state : State κ ν) : Prop where
  coherent : state.Coherent
  cache : state.cache = []
  filled : Filled first keys state.batches
  nextBatch : state.nextBatch = first + state.batches.length
  full : ∀ batch ∈ state.dispatched, batch.keys.length = size
  room : ∀ batch ∈ state.pending, 0 < batch.keys.length ∧ batch.keys.length < size

variable [DecidableEq κ] {size first : Nat} {keys : List κ} {state : State κ ν}

theorem Gathered.chunks_eq (h : state.Gathered size first keys) (hsize : 0 < size) :
    chunks size keys.eraseDups = state.batches.map Batch.keys := by
  rw [← h.filled.keys, batches, List.flatMap_append, chunks_flatMap h.full hsize, List.map_append]
  congr 1
  cases hpending : state.pending with
  | none => exact chunks_nil hsize
  | some batch =>
    obtain ⟨hkeys, hroom⟩ := h.room batch hpending
    rw [Option.toList_some, List.flatMap_singleton, chunks_of_le hkeys (Nat.le_of_lt hroom)]
    rfl

/-- The pending batch comes after those that were sent off, also when it is yet to be opened. -/
theorem Gathered.opened (h : state.Gathered size first keys) :
    Filled first keys (state.dispatched ++ [state.pendingBatch]) := by
  have hfilled := h.filled
  have hnext := h.nextBatch
  cases hpending : state.pending with
  | some batch =>
    rw [pendingBatch, hpending]
    rwa [batches_of_pending hpending] at hfilled
  | none =>
    rw [batches, hpending, Option.toList_none, List.append_nil] at hfilled hnext
    rw [pendingBatch, hpending, Option.getD_none, hnext]
    constructor
    · rw [List.flatMap_append, hfilled.keys, List.flatMap_singleton, List.append_nil]
    · rw [List.map_append, hfilled.ids, List.length_append, List.length_singleton, List.range'_concat, Nat.one_mul]
      rfl

theorem Gathered.pendingBatch_id (h : state.Gathered size first keys) :
    state.pendingBatch.id = first + state.dispatched.length := h.opened.id_last

theorem Gathered.pending_id (h : state.Gathered size first keys) {batch : Batch κ}
    (hpending : state.pending = some batch) :
    batch.id = first + state.dispatched.length := by
  have hid := h.pendingBatch_id
  rwa [pendingBatch, hpending, Option.getD_some] at hid

/-- What a request demands: nothing, the timer of a batch that it opened, or that the batch which it filled be
loaded. -/
inductive Demands (first : Nat) (state later : State κ ν) : Demand → Prop where
  | nothing (hsent : later.dispatched.length = state.dispatched.length)
      (hpending : later.pending.isSome → state.pending.isSome) : Demands first state later .nothing
  | timer (hsent : later.dispatched.length = state.dispatched.length) :
      Demands first state later (.timer (first + state.dispatched.length))
  | dispatch (hsent : later.dispatched.length = state.dispatched.length + 1) (hpending : later.pending = none) :
      Demands first state later (.dispatch (first + state.dispatched.length))

/-- The number of batches after a key joined the pending one. -/
theorem Gathered.nextBatch_join (h : state.Gathered size first keys) (key : κ) (ticket : Nat) :
    (state.join key ticket).nextBatch = first + (state.join key ticket).batches.length := by
  have hnext := h.nextBatch
  obtain ⟨cache, pending, timers, dispatched, inFlight, nextBatch⟩ := state
  rw [batches, List.length_append] at hnext ⊢
  cases pending with
  | none => exact congrArg Nat.succ hnext
  | some batch => exact hnext

theorem Gathered.load {maxBatch : Nat} (h : state.Gathered (max 1 maxBatch) first keys) (key : κ) (ticket : Nat) :
    ∃ demand later, state.load maxBatch key ticket = (.waiting demand, later) ∧
      later.Gathered (max 1 maxBatch) first (keys ++ [key]) ∧ Demands first state later demand := by
  have hlookup : state.cache.lookup key = none := by
    rw [h.cache]
    rfl
  obtain ⟨demand, later, hload, hreceived⟩ := received hlookup maxBatch ticket
  have hcoherent := (load_moves maxBatch key ticket state).coherent h.coherent
  have hfilled (hkey : key ∉ state.inFlight.map Prod.fst) :
      Filled first (keys ++ [key]) (state.dispatched ++ [state.pendingBatch.add key ticket]) :=
    h.opened.add h.coherent.waiters_pendingBatch (h.coherent.inFlight ▸ hkey) ticket
  have hnext := h.nextBatch_join key ticket
  have hsized : state.Sized maxBatch := by
    refine ⟨h.room, fun batch hbatch => ?_⟩
    rw [h.full batch hbatch]
    omega
  obtain ⟨hpos, hle⟩ := hsized.length_add h.coherent key ticket
  have hroom (hshort : (state.pendingBatch.add key ticket).keys.length < max 1 maxBatch) (other : Batch κ)
      (hother : some (state.pendingBatch.add key ticket) = some other) :
      0 < other.keys.length ∧ other.keys.length < max 1 maxBatch := by
    obtain rfl := Option.some.inj hother
    exact ⟨hpos, hshort⟩
  rw [hload] at hcoherent
  refine ⟨demand, later, hload, ?_⟩
  cases hreceived with
  | late hkey =>
    -- whoever asks waits with the others, and no batch changes
    have hknown : key ∈ keys := by
      rw [← List.mem_eraseDups, ← h.filled.keys, batches, List.flatMap_append, ← h.coherent.inFlight]
      exact List.mem_append_left _ hkey
    refine ⟨⟨hcoherent, h.cache, ⟨?_, h.filled.ids⟩, h.nextBatch, h.full, h.room⟩, .nothing rfl id⟩
    rw [Selection.eraseDups_concat, if_pos hknown]
    exact h.filled.keys
  | joined hkey hshort hpending =>
    exact ⟨⟨hcoherent, h.cache, hfilled hkey, hnext, h.full, hroom hshort⟩, .nothing rfl fun _ => hpending⟩
  | opened hkey hshort timers =>
    rw [h.pendingBatch_id]
    exact ⟨⟨hcoherent, h.cache, hfilled hkey, hnext, h.full, hroom hshort⟩, .timer rfl⟩
  | filled hkey hfull =>
    rw [h.pendingBatch_id]
    have hbatches : ((state.join key ticket).dispatch (state.pendingBatch.add key ticket)).batches =
        (state.join key ticket).batches := List.append_nil _
    refine ⟨⟨hcoherent, h.cache, hbatches ▸ hfilled hkey, hbatches ▸ hnext, ?_, by simp [dispatch]⟩,
      .dispatch List.length_append rfl⟩
    exact List.forall_mem_append.2 ⟨h.full, List.forall_mem_singleton.2 (Nat.le_antisymm hle hfull)⟩

end State

end RelationalGraphQL.Loader
