import RelationalGraphQL.Loader.Basic
import Mathlib.Data.List.Basic

/-!
# Tickets by other names

A loader never looks at its tickets: it keeps them, and gives them back with an answer. So a state whose tickets have
other names takes the same steps, and answers the tickets by their other names. This alone tells that no step invents a
ticket: a state has tickets below a bound only if every renaming that leaves those alone leaves the state alone
(`State.TicketsBelow`), and what comes of such a state is left alone with it.
-/

namespace RelationalGraphQL.Loader

variable {κ ν : Type}

def renameWaiters (f : Nat → Nat) (waiters : List (κ × List Nat)) : List (κ × List Nat) :=
  waiters.map fun (key, tickets) => (key, tickets.map f)

def Batch.rename (f : Nat → Nat) (batch : Batch κ) : Batch κ := { batch with waiters := renameWaiters f batch.waiters }

def State.rename (f : Nat → Nat) (state : State κ ν) : State κ ν :=
  { state with
    pending := state.pending.map (Batch.rename f)
    dispatched := state.dispatched.map (Batch.rename f)
    inFlight := renameWaiters f state.inFlight }

def renameAnswers {α : Type} (f : Nat → Nat) (answers : List (Nat × α)) : List (Nat × α) := answers.map (Prod.map f id)

section

variable [DecidableEq κ] (f : Nat → Nat)

theorem lookup_renameWaiters (key : κ) (waiters : List (κ × List Nat)) :
    (renameWaiters f waiters).lookup key = (waiters.lookup key).map (List.map f) := by
  induction waiters with
  | nil => rfl
  | cons entry rest ih =>
    obtain ⟨first, tickets⟩ := entry
    rw [renameWaiters, List.map_cons, List.lookup_cons, List.lookup_cons, ← renameWaiters, ih]
    cases key == first <;> rfl

theorem addWaiter_rename (key : κ) (ticket : Nat) (waiters : List (κ × List Nat)) :
    addWaiter key (f ticket) (renameWaiters f waiters) = renameWaiters f (addWaiter key ticket waiters) := by
  induction waiters with
  | nil => rfl
  | cons entry rest ih =>
    obtain ⟨first, tickets⟩ := entry
    by_cases hkey : first = key
    · simp [renameWaiters, addWaiter, hkey]
    · simpa [renameWaiters, addWaiter, hkey] using ih

theorem openKey_rename (key : κ) (waiters : List (κ × List Nat)) :
    openKey key (renameWaiters f waiters) = renameWaiters f (openKey key waiters) := by
  rw [openKey, openKey, lookup_renameWaiters, Option.isSome_map]
  split
  · rfl
  · simp [renameWaiters]

theorem openKeys_rename (keys : List κ) (waiters : List (κ × List Nat)) :
    keys.foldl (fun waiters key => openKey key waiters) (renameWaiters f waiters) =
      renameWaiters f (keys.foldl (fun waiters key => openKey key waiters) waiters) := by
  induction keys generalizing waiters with
  | nil => rfl
  | cons key keys ih => rw [List.foldl_cons, List.foldl_cons, openKey_rename, ih]

theorem Batch.add_rename (key : κ) (ticket : Nat) (batch : Batch κ) :
    (batch.rename f).add key (f ticket) = (batch.add key ticket).rename f := by
  simp only [Batch.add, Batch.rename, addWaiter_rename, lookup_renameWaiters, Option.isSome_map]

namespace State

variable (state : State κ ν)

theorem dispatch_rename (batch : Batch κ) :
    (state.rename f).dispatch (batch.rename f) = (state.dispatch batch).rename f := by
  simp [dispatch, rename, Batch.rename, openKeys_rename]

theorem load_rename (maxBatch : Nat) (key : κ) (ticket : Nat) :
    (state.rename f).load maxBatch key (f ticket) =
      ((state.load maxBatch key ticket).1, (state.load maxBatch key ticket).2.rename f) := by
  have hbatch : ((state.rename f).pending.getD { id := state.nextBatch }).add key (f ticket) =
      ((state.pending.getD { id := state.nextBatch }).add key ticket).rename f := by
    rw [← Batch.add_rename]
    cases hpending : state.pending <;> simp [rename, hpending, Batch.rename, renameWaiters]
  have hfresh : (state.rename f).pending.isNone = state.pending.isNone := Option.isNone_map
  rw [load, load, show (state.rename f).cache = state.cache from rfl]
  cases state.cache.lookup key with
  | some value => rfl
  | none =>
    dsimp only
    rw [show (state.rename f).inFlight = renameWaiters f state.inFlight from rfl, lookup_renameWaiters,
      Option.isSome_map, hfresh, show (state.rename f).nextBatch = state.nextBatch from rfl, hbatch]
    generalize (state.pending.getD { id := state.nextBatch }).add key ticket = batch
    split
    · rw [addWaiter_rename]
      rfl
    · rw [show (batch.rename f).keys = batch.keys from rfl]
      cases state.pending.isNone
      · simp only [Bool.false_eq_true, ↓reduceIte]
        split
        · rw [dispatch_rename]
          rfl
        · rfl
      · simp only [↓reduceIte]
        split
        · exact congrArg (Prod.mk _) (dispatch_rename f { state with nextBatch := state.nextBatch + 1 } batch)
        · rfl

theorem fire_rename (id : Nat) : (state.rename f).fire id = ((state.fire id).1, (state.fire id).2.rename f) := by
  cases hpending : state.pending with
  | none => simp [fire, rename, hpending]
  | some batch =>
    have hrenamed : (state.rename f).pending = some (batch.rename f) := by simp [rename, hpending]
    rw [fire, fire, hpending, hrenamed]
    change (if batch.id = id then _ else _) = _
    dsimp only
    split
    · exact congrArg (Prod.mk _) (dispatch_rename f { state with timers := state.timers.erase id } batch)
    · simp [rename, hpending]

theorem ticketsFor_rename (batch : Batch κ) (key : κ) :
    ticketsFor (batch.rename f) (state.rename f) key = (ticketsFor batch state key).map f := by
  simp only [ticketsFor, Batch.rename, rename, lookup_renameWaiters, List.map_append]
  cases batch.waiters.lookup key <;> cases state.inFlight.lookup key <;> rfl

theorem release_rename (batch : Batch κ) :
    (state.rename f).release (batch.rename f) = (state.release batch).rename f := by
  simp only [release, rename, renameWaiters, List.filter_map]
  rfl

omit [DecidableEq κ] in
theorem find?_dispatched_rename (id : Nat) :
    (state.rename f).dispatched.find? (fun batch => batch.id = id) =
      (state.dispatched.find? fun batch => batch.id = id).map (Batch.rename f) := by
  rw [rename, List.find?_map]
  rfl

theorem settle_rename (id : Nat) (results : List (Except LoadError ν)) :
    (state.rename f).settle id results =
      (renameAnswers f (state.settle id results).1, (state.settle id results).2.rename f) := by
  rw [settle, settle, find?_dispatched_rename]
  cases state.dispatched.find? fun batch => batch.id = id with
  | none => rfl
  | some batch =>
    simp only [Option.map_some, release_rename, ticketsFor_rename, renameAnswers, List.map_flatMap, List.map_map]
    rfl

theorem crash_rename (id : Nat) :
    (state.rename f).crash id = (renameAnswers f (state.crash id).1, (state.crash id).2.rename f) := by
  rw [crash, crash, find?_dispatched_rename]
  cases state.dispatched.find? fun batch => batch.id = id with
  | none => rfl
  | some batch =>
    simp only [Option.map_some, release_rename, ticketsFor_rename, renameAnswers, List.map_flatMap, List.map_map]
    rfl

def conclude (id : Nat) (results : Option (List (Except LoadError ν))) (state : State κ ν) :
    List (Nat × Except LoadError ν) × State κ ν :=
  match results with
  | some results => state.settle id results
  | none => state.crash id

theorem conclude_rename (id : Nat) (results : Option (List (Except LoadError ν))) :
    (state.rename f).conclude id results =
      (renameAnswers f (state.conclude id results).1, (state.conclude id results).2.rename f) := by
  cases results with
  | some results => exact settle_rename f state id results
  | none => exact crash_rename f state id

end State

end

/-! ### Bounds -/

namespace State

/-- A renaming that leaves the tickets below a bound alone leaves the state alone. -/
def TicketsBelow (bound : Nat) (state : State κ ν) : Prop :=
  ∀ f : Nat → Nat, (∀ ticket < bound, f ticket = ticket) → state.rename f = state

theorem ticketsBelow_empty (bound : Nat) : ({} : State κ ν).TicketsBelow bound := fun _ _ => rfl

variable {state : State κ ν} {bound : Nat}

theorem TicketsBelow.mono (hbelow : state.TicketsBelow bound) {larger : Nat} (hle : bound ≤ larger) :
    state.TicketsBelow larger :=
  fun f hf => hbelow f fun ticket hticket => hf ticket (by omega)

theorem TicketsBelow.load [DecidableEq κ] (hbelow : state.TicketsBelow bound) (maxBatch : Nat) (key : κ) {ticket : Nat}
    (hticket : ticket < bound) : (state.load maxBatch key ticket).2.TicketsBelow bound := by
  intro f hf
  have hload := load_rename f state maxBatch key ticket
  rw [hbelow f hf, hf ticket hticket] at hload
  exact (congrArg Prod.snd hload).symm

end State

/-- Answers that are left alone with the tickets below a bound are answers to those. -/
theorem lt_of_mem_answers {α : Type} {bound : Nat} {answers : List (Nat × α)}
    (halone : ∀ f : Nat → Nat, (∀ ticket < bound, f ticket = ticket) → renameAnswers f answers = answers) :
    ∀ answer ∈ answers, answer.1 < bound := by
  intro answer hanswer
  -- a renaming that moves every ticket from the bound on
  have hmoved := halone (fun ticket => if ticket < bound then ticket else ticket + 1) fun _ hlt => if_pos hlt
  nth_rewrite 2 [← List.map_id answers] at hmoved
  have hfixed := congrArg Prod.fst (List.map_inj_left.1 hmoved answer hanswer)
  by_contra hge
  simp [hge] at hfixed

end RelationalGraphQL.Loader
