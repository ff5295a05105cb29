import RelationalGraphQL.Loader.Basic
import Mathlib.Data.List.Flatten
import Mathlib.Data.List.Induction
import Mathlib.Data.List.Nodup
import Mathlib.Data.List.Pairwise
import Mathlib.Logic.Relation

/-!
# What every step of a loader keeps

A loader changes in four ways: it remembers or forgets values and timers, takes a ticket, sends the pending batch off,
or lets go of a batch that ended. `State.Move` says this once, and `History.step_moves` that nothing else happens. What
the rest may rely on is `State.Coherent`: no key is in two batches, and the keys in flight are those of the batches
being loaded.
-/

namespace RelationalGraphQL.Loader

variable {κ ν : Type}

/-! ### Tickets by key -/

section

variable [DecidableEq κ]

def ticketsOf (key : κ) (waiters : List (κ × List Nat)) : List Nat := (waiters.lookup key).getD []

theorem ticketsOf_cons (key first : κ) (tickets : List Nat) (rest : List (κ × List Nat)) :
    ticketsOf key ((first, tickets) :: rest) = if key = first then tickets else ticketsOf key rest := by
  unfold ticketsOf
  rw [List.lookup_cons]
  by_cases heq : key = first
  · rw [if_pos heq, beq_iff_eq.2 heq]
    rfl
  · rw [if_neg heq, beq_eq_false_iff_ne.2 heq]

theorem lookup_isSome_iff_mem {α : Type} {key : κ} {entries : List (κ × α)} :
    (entries.lookup key).isSome ↔ key ∈ entries.map Prod.fst := by
  rw [List.lookup_isSome_iff, List.mem_map]
  constructor
  · rintro ⟨entry, hentry, heq⟩
    exact ⟨entry, hentry, (beq_iff_eq.1 heq).symm⟩
  · rintro ⟨entry, hentry, rfl⟩
    exact ⟨entry, hentry, beq_self_eq_true _⟩

theorem ticketsOf_addWaiter (key other : κ) (ticket : Nat) (waiters : List (κ × List Nat)) :
    ticketsOf other (addWaiter key ticket waiters) =
      ticketsOf other waiters ++ if other = key then [ticket] else [] := by
  induction waiters with
  | nil =>
    rw [addWaiter, ticketsOf_cons]
    rfl
  | cons entry rest ih =>
    obtain ⟨first, tickets⟩ := entry
    rw [addWaiter]
    by_cases hfirst : first = key
    · rw [if_pos hfirst, ticketsOf_cons, ticketsOf_cons, hfirst]
      by_cases hother : other = key <;> simp [hother]
    · rw [if_neg hfirst, ticketsOf_cons, ticketsOf_cons, ih]
      by_cases hother : other = first
      · simp [hother, hfirst]
      · simp [hother]

theorem keys_addWaiter (key : κ) (ticket : Nat) (waiters : List (κ × List Nat)) :
    (addWaiter key ticket waiters).map Prod.fst =
      if key ∈ waiters.map Prod.fst then waiters.map Prod.fst else waiters.map Prod.fst ++ [key] := by
  induction waiters with
  | nil => rfl
  | cons entry rest ih =>
    obtain ⟨first, tickets⟩ := entry
    rw [addWaiter]
    by_cases hfirst : first = key
    · simp [hfirst]
    · have hne : key ≠ first := fun heq => hfirst heq.symm
      rw [if_neg hfirst, List.map_cons, ih, List.map_cons]
      by_cases hrest : key ∈ rest.map Prod.fst
      · rw [if_pos hrest, if_pos (List.mem_cons_of_mem _ hrest)]
      · rw [if_neg hrest, if_neg (List.not_mem_cons_of_ne_of_not_mem hne hrest), List.cons_append]

theorem ticketsOf_openKey (key other : κ) (waiters : List (κ × List Nat)) :
    ticketsOf other (openKey key waiters) = ticketsOf other waiters := by
  unfold openKey
  split
  · rfl
  · rename_i hkey
    rw [lookup_isSome_iff_mem] at hkey
    unfold ticketsOf
    rw [List.lookup_append]
    cases hlookup : waiters.lookup other with
    | some tickets => rfl
    | none =>
      rw [Option.none_or, List.lookup_cons]
      cases other == key <;> rfl

theorem keys_openKey (key : κ) (waiters : List (κ × List Nat)) :
    (openKey key waiters).map Prod.fst =
      if key ∈ waiters.map Prod.fst then waiters.map Prod.fst else waiters.map Prod.fst ++ [key] := by
  unfold openKey
  by_cases hkey : key ∈ waiters.map Prod.fst
  · rw [if_pos (lookup_isSome_iff_mem.2 hkey), if_pos hkey]
  · rw [if_neg (mt lookup_isSome_iff_mem.1 hkey), if_neg hkey, List.map_append]
    rfl

theorem ticketsOf_openKeys (keys : List κ) (other : κ) (waiters : List (κ × List Nat)) :
    ticketsOf other (keys.foldl (fun waiters key => openKey key waiters) waiters) = ticketsOf other waiters := by
  induction keys generalizing waiters with
  | nil => rfl
  | cons key keys ih => rw [List.foldl_cons, ih, ticketsOf_openKey]

theorem keys_openKeys {keys : List κ} {waiters : List (κ × List Nat)} (hnodup : (waiters.map Prod.fst ++ keys).Nodup) :
    (keys.foldl (fun waiters key => openKey key waiters) waiters).map Prod.fst = waiters.map Prod.fst ++ keys := by
  induction keys generalizing waiters with
  | nil => rw [List.foldl_nil, List.append_nil]
  | cons key keys ih =>
    have hkey : key ∉ waiters.map Prod.fst := by
      intro hmem
      exact (List.nodup_append.1 hnodup).2.2 key hmem key (by simp) rfl
    have hopened : (openKey key waiters).map Prod.fst = waiters.map Prod.fst ++ [key] := by
      rw [keys_openKey, if_neg hkey]
    have hnodup' : ((openKey key waiters).map Prod.fst ++ keys).Nodup := by rwa [hopened, List.append_assoc]
    rw [List.foldl_cons, ih hnodup', hopened, List.append_assoc, List.singleton_append]

theorem ticketsOf_filter (keys : List κ) (other : κ) (waiters : List (κ × List Nat)) :
    ticketsOf other (waiters.filter fun (key, _) => key ∉ keys) =
      if other ∈ keys then [] else ticketsOf other waiters := by
  induction waiters with
  | nil => simp [ticketsOf]
  | cons entry rest ih =>
    obtain ⟨first, tickets⟩ := entry
    rw [List.filter_cons, ticketsOf_cons]
    by_cases hfirst : first ∈ keys
    · rw [if_neg (by simpa using hfirst), ih]
      by_cases hother : other = first
      · simp [hother, hfirst]
      · simp [hother]
    · rw [if_pos (by simpa using hfirst), ticketsOf_cons, ih]
      by_cases hother : other = first
      · simp [hother, hfirst]
      · simp [hother]

end

/-! ### Coherence -/

namespace State

/-- All batches that have not ended, the pending one last. -/
def batches (state : State κ ν) : List (Batch κ) := state.dispatched ++ state.pending.toList

structure Coherent (state : State κ ν) : Prop where
  waiters : ∀ batch ∈ state.batches, batch.waiters.map Prod.fst = batch.keys
  keys : (state.batches.flatMap Batch.keys).Nodup
  ids : (state.batches.map Batch.id).Nodup
  numbered : ∀ batch ∈ state.batches, batch.id < state.nextBatch
  inFlight : state.inFlight.map Prod.fst = state.dispatched.flatMap Batch.keys

namespace Coherent

variable {state : State κ ν} {batch other : Batch κ}

theorem batch_of_id (h : state.Coherent) (hbatch : batch ∈ state.batches) (hother : other ∈ state.batches)
    (hid : batch.id = other.id) : batch = other :=
  List.inj_on_of_nodup_map h.ids hbatch hother hid

theorem batch_of_key (h : state.Coherent) {key : κ} (hbatch : batch ∈ state.batches) (hother : other ∈ state.batches)
    (hkey : key ∈ batch.keys) (hkey' : key ∈ other.keys) : batch = other := by
  by_contra hne
  have hsymm : Std.Symm (Function.onFun List.Disjoint (@Batch.keys κ)) := ⟨fun _ _ hxy _ hy hx => hxy hx hy⟩
  have hdisjoint := (List.nodup_flatMap.1 h.keys).2.forall hbatch hother hne
  exact hdisjoint hkey hkey'

theorem nodup_keys (h : state.Coherent) (hbatch : batch ∈ state.batches) : batch.keys.Nodup :=
  (List.nodup_flatMap.1 h.keys).1 batch hbatch

end Coherent

/-- The pending batch, or a new one. -/
def pendingBatch (state : State κ ν) : Batch κ := state.pending.getD { id := state.nextBatch }

theorem batches_of_pending {state : State κ ν} {batch : Batch κ} (hpending : state.pending = some batch) :
    state.batches = state.dispatched ++ [batch] := by
  rw [batches, hpending]
  rfl

theorem Coherent.opened {state : State κ ν} (h : state.Coherent) : Coherent { state with
    pending := some state.pendingBatch
    nextBatch := if state.pending.isNone then state.nextBatch + 1 else state.nextBatch } := by
  obtain ⟨cache, pending, timers, dispatched, inFlight, nextBatch⟩ := state
  cases pending with
  | some batch => exact h
  | none =>
    obtain ⟨hwaiters, hkeys, hids, hnumbered, hinFlight⟩ := h
    rw [batches, Option.toList_none, List.append_nil] at hwaiters hkeys hids hnumbered
    refine ⟨?_, ?_, ?_, ?_, hinFlight⟩
    · intro batch hmem
      rcases List.mem_append.1 hmem with hmem | hmem
      · exact hwaiters batch hmem
      · rw [List.mem_singleton.1 hmem]
        rfl
    · change ((dispatched ++ [({ id := nextBatch } : Batch κ)]).flatMap Batch.keys).Nodup
      rw [List.flatMap_append, List.flatMap_singleton, List.append_nil]
      exact hkeys
    · change ((dispatched ++ [({ id := nextBatch } : Batch κ)]).map Batch.id).Nodup
      rw [List.map_append, List.map_singleton]
      refine List.nodup_append.2 ⟨hids, List.nodup_singleton _, ?_⟩
      rintro id hid _ hnew rfl
      obtain ⟨batch, hmem, rfl⟩ := List.mem_map.1 hid
      exact absurd (List.mem_singleton.1 hnew) (Nat.ne_of_lt (hnumbered batch hmem))
    · intro batch hmem
      change batch.id < nextBatch + 1
      rcases List.mem_append.1 hmem with hmem | hmem
      · exact Nat.lt_succ_of_lt (hnumbered batch hmem)
      · rw [List.mem_singleton.1 hmem]
        exact Nat.lt_succ_self _

variable [DecidableEq κ]

def join (key : κ) (ticket : Nat) (state : State κ ν) : State κ ν :=
  { state with
    pending := some (state.pendingBatch.add key ticket)
    nextBatch := if state.pending.isNone then state.nextBatch + 1 else state.nextBatch }

/-- Takes a ticket for a key: with those that came late if the key is being loaded, else in the pending batch. -/
inductive Registers (state : State κ ν) (key : κ) (ticket : Nat) : State κ ν → Prop where
  | late (hkey : key ∈ state.inFlight.map Prod.fst) :
      Registers state key ticket { state with inFlight := addWaiter key ticket state.inFlight }
  | join (hkey : key ∉ state.inFlight.map Prod.fst) : Registers state key ticket (state.join key ticket)

inductive Change where
  | nothing
  | register (ticket : Nat)
  | release (batch : Nat)

/-- The ways in which a loader changes. -/
inductive Move (state : State κ ν) : Change → State κ ν → Prop where
  | rest (cache : List (κ × ν)) (timers : List Nat) : Move state .nothing { state with cache, timers }
  | register {state' : State κ ν} (key : κ) (ticket : Nat) (hregisters : state.Registers key ticket state') :
      Move state (.register ticket) state'
  | dispatch (batch : Batch κ) (hpending : state.pending = some batch) : Move state .nothing (state.dispatch batch)
  | release (batch : Batch κ) (hbatch : batch ∈ state.dispatched) : Move state (.release batch.id) (state.release batch)

end State

section

variable [DecidableEq κ]

theorem Batch.keys_add {batch : Batch κ} (hwaiters : batch.waiters.map Prod.fst = batch.keys) (key : κ) (ticket : Nat) :
    (batch.add key ticket).keys = if key ∈ batch.keys then batch.keys else batch.keys ++ [key] := by
  unfold Batch.add
  by_cases hkey : key ∈ batch.keys
  · rw [if_pos hkey, if_pos (lookup_isSome_iff_mem.2 (by rwa [hwaiters]))]
  · rw [if_neg hkey, if_neg (mt lookup_isSome_iff_mem.1 (by rwa [hwaiters]))]

theorem Batch.waiters_add {batch : Batch κ} (hwaiters : batch.waiters.map Prod.fst = batch.keys) (key : κ)
    (ticket : Nat) :
    (batch.add key ticket).waiters.map Prod.fst = (batch.add key ticket).keys := by
  rw [Batch.keys_add hwaiters, ← hwaiters]
  exact keys_addWaiter key ticket batch.waiters

theorem Batch.mem_keys_add {batch : Batch κ} (hwaiters : batch.waiters.map Prod.fst = batch.keys) {key other : κ}
    {ticket : Nat} : other ∈ (batch.add key ticket).keys ↔ other ∈ batch.keys ∨ other = key := by
  rw [Batch.keys_add hwaiters]
  split <;> grind

end

namespace State

section

variable [DecidableEq κ] {state state' : State κ ν} {batch : Batch κ} {key : κ} {allowed : Change → Prop}

theorem Coherent.late (h : state.Coherent) {ticket : Nat} (hkey : key ∈ state.inFlight.map Prod.fst) :
    Coherent { state with inFlight := addWaiter key ticket state.inFlight } where
  waiters := h.waiters
  keys := h.keys
  ids := h.ids
  numbered := h.numbered
  inFlight := by
    rw [keys_addWaiter, if_pos hkey]
    exact h.inFlight

theorem Coherent.add (h : state.Coherent) (hpending : state.pending = some batch)
    (hkey : key ∉ state.inFlight.map Prod.fst) (ticket : Nat) :
    Coherent { state with pending := some (batch.add key ticket) } := by
  have hbatches := batches_of_pending hpending
  obtain ⟨hwaiters, hkeys, hids, hnumbered, hinFlight⟩ := h
  rw [hbatches] at hwaiters hkeys hids hnumbered
  have hbatch := hwaiters batch (by simp)
  refine ⟨?_, ?_, ?_, ?_, hinFlight⟩
  · intro other hother
    rcases List.mem_append.1 hother with hother | hother
    · exact hwaiters other (List.mem_append_left _ hother)
    · rw [List.mem_singleton.1 hother]
      exact Batch.waiters_add hbatch key ticket
  · change ((state.dispatched ++ [batch.add key ticket]).flatMap Batch.keys).Nodup
    rw [List.flatMap_append, List.flatMap_singleton] at hkeys ⊢
    rw [Batch.keys_add hbatch]
    split
    · exact hkeys
    · rename_i hnew
      -- the key is new to the batch, and not in flight, so no dispatched batch holds it either
      rw [← List.append_assoc, ← List.concat_eq_append, List.nodup_concat]
      refine ⟨?_, hkeys⟩
      rw [List.mem_append, ← hinFlight]
      exact not_or.2 ⟨hkey, hnew⟩
  · change ((state.dispatched ++ [batch.add key ticket]).map Batch.id).Nodup
    rw [List.map_append] at hids ⊢
    exact hids
  · intro other hother
    rcases List.mem_append.1 hother with hother | hother
    · exact hnumbered other (List.mem_append_left _ hother)
    · rw [List.mem_singleton.1 hother]
      exact hnumbered batch (by simp)

theorem Coherent.dispatch (h : state.Coherent) (hpending : state.pending = some batch) :
    (state.dispatch batch).Coherent := by
  have hbatches : (state.dispatch batch).batches = state.batches := by
    rw [batches_of_pending hpending]
    exact List.append_nil _
  refine ⟨hbatches ▸ h.waiters, hbatches ▸ h.keys, hbatches ▸ h.ids, hbatches ▸ h.numbered, ?_⟩
  have hkeys := h.keys
  rw [batches_of_pending hpending, List.flatMap_append, List.flatMap_singleton, ← h.inFlight] at hkeys
  change (batch.keys.foldl (fun waiters key => openKey key waiters) state.inFlight).map Prod.fst =
    (state.dispatched ++ [batch]).flatMap Batch.keys
  rw [keys_openKeys hkeys, List.flatMap_append, List.flatMap_singleton, h.inFlight]

/-- Of the keys of some batches, leaving out those of one batch leaves out that batch. -/
theorem filter_keys {batches : List (Batch κ)}
    (hkeys : ∀ other ∈ batches, ∀ key ∈ other.keys, key ∈ batch.keys ↔ other.id = batch.id) :
    (batches.flatMap Batch.keys).filter (fun key => key ∉ batch.keys) =
      (batches.filter fun other => other.id ≠ batch.id).flatMap Batch.keys := by
  induction batches with
  | nil => rfl
  | cons other batches ih =>
    have hother := hkeys other (by simp)
    rw [List.flatMap_cons, List.filter_append, ih fun other hmem => hkeys other (by simp [hmem]), List.filter_cons]
    by_cases hid : other.id = batch.id
    · have hnone : other.keys.filter (fun key => key ∉ batch.keys) = [] := by
        rw [List.filter_eq_nil_iff]
        intro key hkey
        simpa using (hother key hkey).2 hid
      rw [hnone, if_neg (by simpa using hid), List.nil_append]
    · have hall : other.keys.filter (fun key => key ∉ batch.keys) = other.keys := by
        rw [List.filter_eq_self]
        intro key hkey
        simpa [hother key hkey] using hid
      rw [hall, if_pos (by simpa using hid), List.flatMap_cons]

theorem Coherent.release (h : state.Coherent) (hbatch : batch ∈ state.dispatched) : (state.release batch).Coherent := by
  have hsub : List.Sublist (state.release batch).batches state.batches :=
    List.filter_sublist.append (List.Sublist.refl _)
  refine ⟨fun other hother => h.waiters other (hsub.subset hother), h.keys.sublist (hsub.flatMap _),
    h.ids.sublist (hsub.map _), fun other hother => h.numbered other (hsub.subset hother), ?_⟩
  have hkeys : ∀ other ∈ state.dispatched, ∀ key ∈ other.keys, key ∈ batch.keys ↔ other.id = batch.id := by
    intro other hother key hkey
    have hin := List.mem_append_left state.pending.toList hother
    have hin' := List.mem_append_left state.pending.toList hbatch
    constructor
    · intro hkey'
      rw [h.batch_of_key hin hin' hkey hkey']
    · intro hid
      rwa [← h.batch_of_id hin hin' hid]
  change (state.inFlight.filter fun (key, _) => key ∉ batch.keys).map Prod.fst =
    (state.dispatched.filter fun other => other.id ≠ batch.id).flatMap Batch.keys
  rw [← filter_keys hkeys, ← h.inFlight, List.filter_map]
  rfl

theorem Move.coherent {change : Change} (hmove : state.Move change state') (h : state.Coherent) : state'.Coherent := by
  cases hmove with
  | rest cache timers => exact ⟨h.waiters, h.keys, h.ids, h.numbered, h.inFlight⟩
  | register key ticket hregisters =>
    cases hregisters with
    | late hkey => exact h.late hkey
    | join hkey => exact Coherent.add h.opened rfl hkey ticket
  | dispatch batch hpending => exact h.dispatch hpending
  | release batch hbatch => exact h.release hbatch

/-! ### Steps as moves -/

/-- Moves, one after the other, that change no more than is allowed. -/
abbrev Moves (allowed : Change → Prop) : State κ ν → State κ ν → Prop :=
  Relation.ReflTransGen fun before after => ∃ change, allowed change ∧ before.Move change after

theorem Moves.coherent (hmoves : Moves allowed state state') (h : state.Coherent) : state'.Coherent := by
  induction hmoves with
  | refl => exact h
  | tail _ hmove ih =>
    obtain ⟨change, -, hmove⟩ := hmove
    exact hmove.coherent ih

theorem Moves.mono {allowed' : Change → Prop} (hmoves : Moves allowed state state')
    (hle : ∀ change, allowed change → allowed' change) : Moves allowed' state state' :=
  Relation.ReflTransGen.mono (fun _ _ ⟨change, hallowed, hmove⟩ => ⟨change, hle change hallowed, hmove⟩) _ _ hmoves

theorem load_of_lookup_eq_some {value : ν} (hcache : state.cache.lookup key = some value) (maxBatch ticket : Nat) :
    state.load maxBatch key ticket = (.cached value, state) := by
  rw [load, hcache]

theorem load_of_lookup_eq_none (hcache : state.cache.lookup key = none) (maxBatch ticket : Nat) :
    (∃ demand, (state.load maxBatch key ticket).1 = .waiting demand) ∧
      ∃ middle, state.Registers key ticket middle ∧
        Moves (· = .nothing) middle (state.load maxBatch key ticket).2 := by
  rw [load, hcache]
  dsimp only
  split
  · rename_i hlate
    exact ⟨⟨_, rfl⟩, _, .late (lookup_isSome_iff_mem.1 hlate), .refl⟩
  · rename_i hnew
    have hjoin : state.Registers key ticket (state.join key ticket) := .join (mt lookup_isSome_iff_mem.2 hnew)
    obtain ⟨cache, pending, timers, dispatched, inFlight, nextBatch⟩ := state
    dsimp only
    split
    · refine ⟨⟨_, rfl⟩, _, hjoin, .single ⟨_, rfl, ?_⟩⟩
      cases pending with
      | none => exact .dispatch _ rfl
      | some batch => exact .dispatch _ rfl
    · cases pending with
      | none => exact ⟨⟨_, rfl⟩, _, hjoin, .single ⟨_, rfl, .rest cache (timers ++ [nextBatch])⟩⟩
      | some batch => exact ⟨⟨_, rfl⟩, _, hjoin, .single ⟨_, rfl, .rest cache timers⟩⟩

theorem load_moves (maxBatch : Nat) (key : κ) (ticket : Nat) (state : State κ ν) :
    Moves (fun change => change = .nothing ∨ change = .register ticket) state (state.load maxBatch key ticket).2 := by
  cases hcache : state.cache.lookup key with
  | some value => rw [load_of_lookup_eq_some hcache]
  | none =>
    obtain ⟨-, middle, hregisters, hmoves⟩ := load_of_lookup_eq_none hcache maxBatch ticket
    exact .head ⟨_, .inr rfl, .register key ticket hregisters⟩ (hmoves.mono fun _ => .inl)

theorem fire_moves (id : Nat) (state : State κ ν) : Moves (· = .nothing) state (state.fire id).2 := by
  have hrest : Moves (· = .nothing) state { state with timers := state.timers.erase id } :=
    .single ⟨_, rfl, .rest state.cache (state.timers.erase id)⟩
  unfold fire
  dsimp only
  split
  · rename_i batch hpending
    split
    · exact hrest.tail ⟨_, rfl, .dispatch batch hpending⟩
    · exact hrest
  · exact hrest

/-- The moves of a batch that ends, whatever is remembered of it. -/
theorem release_moves {id : Nat} (hfound : state.dispatched.find? (fun batch => batch.id = id) = some batch)
    (cache : List (κ × ν)) :
    Moves (fun change => change = .nothing ∨ change = .release id) state { state.release batch with cache } := by
  have hid : batch.id = id := by simpa using List.find?_some hfound
  have hrelease := Move.release batch (List.mem_of_find?_eq_some hfound)
  rw [hid] at hrelease
  exact .tail (.single ⟨_, .inr rfl, hrelease⟩) ⟨_, .inl rfl, .rest cache state.timers⟩

end

end State

/-! ### Histories -/

/-- What can happen to a loader. -/
inductive Event (κ ν : Type) where
  | load (key : κ)
  | fire (batch : Nat)
  | settle (batch : Nat) (results : List (Except LoadError ν))
  | crash (batch : Nat)
  | prime (key : κ) (value : ν)
  | clear (key : κ)
  | clearAll

/-- A loader with all the answers it gave. Loads are numbered in order, and a load's number is its ticket. -/
structure History (κ ν : Type) where
  state : State κ ν := {}
  loads : Nat := 0
  answers : List (Nat × Except LoadError ν) := []

namespace History

section

variable [DecidableEq κ]

def step (maxBatch : Nat) (history : History κ ν) : Event κ ν → History κ ν
  | .load key =>
    let (receipt, state) := history.state.load maxBatch key history.loads
    { state
      loads := history.loads + 1
      answers :=
        match receipt with
        | .cached value => history.answers ++ [(history.loads, .ok value)]
        | .waiting _ => history.answers }
  | .fire batch => { history with state := (history.state.fire batch).2 }
  | .settle batch results =>
    let (answers, state) := history.state.settle batch results
    { history with state, answers := history.answers ++ answers }
  | .crash batch =>
    let (answers, state) := history.state.crash batch
    { history with state, answers := history.answers ++ answers }
  | .prime key value => { history with state := history.state.prime key value }
  | .clear key => { history with state := history.state.clear key }
  | .clearAll => { history with state := history.state.clearAll }

/-- The history of some events, from a new loader on. -/
def after (maxBatch : Nat) (events : List (Event κ ν)) : History κ ν := events.foldl (step maxBatch) {}

theorem after_snoc (maxBatch : Nat) (events : List (Event κ ν)) (event : Event κ ν) :
    after maxBatch (events ++ [event]) = (after maxBatch events).step maxBatch event := by
  rw [after, List.foldl_append]
  rfl

end

/-- Whether an event ends a batch that is being loaded. -/
def Ends (history : History κ ν) (id : Nat) : Event κ ν → Prop
  | .settle batch _ | .crash batch => batch = id ∧ id ∈ history.state.dispatched.map Batch.id
  | _ => False

/-- What an event may do to those that wait: a load registers its own ticket, and the end of a batch releases it. -/
def Allows (history : History κ ν) (event : Event κ ν) : State.Change → Prop
  | .nothing => True
  | .register ticket => (∃ key, event = .load key) ∧ ticket = history.loads
  | .release id => history.Ends id event

theorem mem_ids_of_find? {batches : List (Batch κ)} {batch : Batch κ} {id : Nat}
    (hfound : batches.find? (fun batch => batch.id = id) = some batch) : id ∈ batches.map Batch.id := by
  have hid : batch.id = id := by simpa using List.find?_some hfound
  exact List.mem_map.2 ⟨batch, List.mem_of_find?_eq_some hfound, hid⟩

theorem exists_find?_of_mem_ids {batches : List (Batch κ)} {id : Nat} (hid : id ∈ batches.map Batch.id) :
    ∃ batch ∈ batches, batch.id = id ∧ batches.find? (fun batch => batch.id = id) = some batch := by
  cases hfound : batches.find? (fun batch => batch.id = id) with
  | none =>
    obtain ⟨batch, hbatch, hid⟩ := List.mem_map.1 hid
    exact absurd hid (by simpa using List.find?_eq_none.1 hfound batch hbatch)
  | some batch => exact ⟨batch, List.mem_of_find?_eq_some hfound, by simpa using List.find?_some hfound, rfl⟩

section

variable [DecidableEq κ]

/-- Every event is made of moves that it allows. -/
theorem step_moves (maxBatch : Nat) (history : History κ ν) (event : Event κ ν) :
    State.Moves (history.Allows event) history.state (history.step maxBatch event).state := by
  have hrest : ∀ cache, State.Moves (history.Allows event) history.state { history.state with cache } := fun cache =>
    .single ⟨.nothing, trivial, .rest cache history.state.timers⟩
  cases event with
  | load key =>
    refine (State.load_moves maxBatch key history.loads history.state).mono ?_
    rintro change (rfl | rfl)
    · trivial
    · exact ⟨⟨key, rfl⟩, rfl⟩
  | fire id =>
    refine (State.fire_moves id history.state).mono ?_
    rintro change rfl
    trivial
  | settle id results =>
    simp only [step, State.settle]
    split
    · exact .refl
    · rename_i batch hfound
      refine (State.release_moves hfound _).mono ?_
      rintro change (rfl | rfl)
      · trivial
      · exact ⟨rfl, mem_ids_of_find? hfound⟩
  | crash id =>
    simp only [step, State.crash]
    split
    · exact .refl
    · rename_i batch hfound
      refine (State.release_moves hfound history.state.cache).mono ?_
      rintro change (rfl | rfl)
      · trivial
      · exact ⟨rfl, mem_ids_of_find? hfound⟩
  | prime key value =>
    simp only [step, State.prime]
    split
    · exact .refl
    · exact hrest _
  | clear key => exact hrest _
  | clearAll => exact hrest _

theorem coherent_after (maxBatch : Nat) (events : List (Event κ ν)) : (after maxBatch events).state.Coherent := by
  induction events using List.reverseRecOn with
  | nil => exact ⟨by simp [after, State.batches], by simp [after, State.batches], by simp [after, State.batches],
      by simp [after, State.batches], rfl⟩
  | append_singleton events event ih =>
    rw [after_snoc]
    exact (step_moves maxBatch _ event).coherent ih

end

end History

/-! ### Timers -/

/-- The timer of the pending batch is running. -/
def State.Armed (state : State κ ν) : Prop := ∀ batch ∈ state.pending, batch.id ∈ state.timers

section

variable [DecidableEq κ] {state : State κ ν}

theorem State.Armed.load (h : state.Armed) (maxBatch : Nat) (key : κ) (ticket : Nat) :
    (state.load maxBatch key ticket).2.Armed := by
  unfold State.load
  split
  · exact h
  · split
    · exact h
    · obtain ⟨cache, pending, timers, dispatched, inFlight, nextBatch⟩ := state
      dsimp only
      split
      · simp [State.Armed, State.dispatch]
      · cases pending with
        | none => simp [State.Armed, Batch.add]
        | some batch =>
          have harmed : batch.id ∈ timers := h batch rfl
          simpa [State.Armed, Batch.add] using harmed

/-- A timer that fires leaves no pending batch behind, or one with another timer. -/
theorem State.Armed.fire (h : state.Armed) (id : Nat) : (state.fire id).2.Armed := by
  obtain ⟨cache, pending, timers, dispatched, inFlight, nextBatch⟩ := state
  unfold State.fire
  dsimp only
  cases pending with
  | none => simp [State.Armed]
  | some batch =>
    dsimp only
    split
    · simp [State.Armed, State.dispatch]
    · rename_i hother
      have harmed : batch.id ∈ timers := h batch rfl
      rintro _ ⟨⟩
      exact (List.mem_erase_of_ne hother).2 harmed

theorem History.armed_after (maxBatch : Nat) (events : List (Event κ ν)) : (after maxBatch events).state.Armed := by
  induction events using List.reverseRecOn with
  | nil => simp [after, State.Armed]
  | append_singleton events event ih =>
    rw [after_snoc]
    cases event with
    | load key => exact ih.load maxBatch key _
    | fire id => exact ih.fire id
    | settle id results =>
      simp only [step, State.settle]
      split <;> exact ih
    | crash id =>
      simp only [step, State.crash]
      split <;> exact ih
    | prime key value =>
      simp only [step, State.prime]
      split <;> exact ih
    | clear key => exact ih
    | clearAll => exact ih

end

end RelationalGraphQL.Loader
