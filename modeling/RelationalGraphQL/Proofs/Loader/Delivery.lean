import RelationalGraphQL.Proofs.Loader.Coherence

/-!
# Every load is answered once

A ticket that waits is registered in one place: with the pending batch, with a batch that was sent off, or with those
that came after it for one of its keys. Whatever happens, it stays with that batch until the batch ends, and is answered
then (`State.Waits`); a ticket that is registered nowhere is never answered again (`State.Absent`). Both are kept by
every move that does not concern the ticket.
-/

namespace RelationalGraphQL.Loader

variable {κ ν : Type} {allowed : State.Change → Prop} {answer : Except LoadError ν}

/-! ### Answers -/

/-- The answers to a ticket, in order. -/
def answersTo {α : Type} (ticket : Nat) (answers : List (Nat × α)) : List α :=
  answers.filterMap fun (other, answer) => if other = ticket then some answer else none

section

variable {α : Type} {ticket : Nat} {tickets : κ → List Nat} {keys : List κ}

theorem answersTo_append (front back : List (Nat × α)) :
    answersTo ticket (front ++ back) = answersTo ticket front ++ answersTo ticket back := List.filterMap_append

theorem answersTo_map (tickets : List Nat) (answer : α) :
    answersTo ticket (tickets.map fun other => (other, answer)) = List.replicate (tickets.count ticket) answer := by
  induction tickets with
  | nil => rfl
  | cons other tickets ih =>
    rw [List.map_cons, ← List.singleton_append, answersTo_append, ih, List.count_cons]
    by_cases heq : other = ticket
    · rw [if_pos (beq_iff_eq.2 heq), List.replicate_succ, answersTo]
      simp [heq]
    · rw [if_neg (mt beq_iff_eq.1 heq), Nat.add_zero, answersTo]
      simp [heq]

/-- One answer for each key, to all its tickets. -/
def deliver (tickets : κ → List Nat) (keys : List κ) (outcomes : List α) : List (Nat × α) :=
  (keys.zip outcomes).flatMap fun (key, outcome) => (tickets key).map fun ticket => (ticket, outcome)

theorem answersTo_deliver_cons (tickets : κ → List Nat) (key : κ) (keys : List κ) (outcome : α) (outcomes : List α) :
    answersTo ticket (deliver tickets (key :: keys) (outcome :: outcomes)) =
      List.replicate ((tickets key).count ticket) outcome ++ answersTo ticket (deliver tickets keys outcomes) := by
  rw [deliver, List.zip_cons_cons, List.flatMap_cons, answersTo_append, answersTo_map]
  rfl

theorem answersTo_deliver_eq_nil (hcount : ∀ key ∈ keys, (tickets key).count ticket = 0) (outcomes : List α) :
    answersTo ticket (deliver tickets keys outcomes) = [] := by
  induction keys generalizing outcomes with
  | nil => rfl
  | cons key keys ih =>
    cases outcomes with
    | nil => rfl
    | cons outcome outcomes =>
      rw [answersTo_deliver_cons, hcount key (by simp), ih fun other hother => hcount other (by simp [hother])]
      rfl

/-- A ticket that waits for one key has one answer, the one at the key's position. -/
theorem answersTo_deliver [DecidableEq κ] {key : κ} {outcomes : List α} (hnodup : keys.Nodup)
    (hcount : ∀ other, (tickets other).count ticket = if other = key then 1 else 0) (hkey : key ∈ keys)
    (hlength : outcomes.length = keys.length) :
    ∃ outcome, outcomes[keys.idxOf key]? = some outcome ∧
      answersTo ticket (deliver tickets keys outcomes) = [outcome] := by
  induction keys generalizing outcomes with
  | nil => cases hkey
  | cons first keys ih =>
    obtain ⟨hfirst, hnodup⟩ := List.nodup_cons.1 hnodup
    cases outcomes with
    | nil => cases hlength
    | cons outcome outcomes =>
      rw [answersTo_deliver_cons, hcount first]
      by_cases heq : first = key
      · have hrest : ∀ other ∈ keys, (tickets other).count ticket = 0 := by
          intro other hother
          rw [hcount, if_neg]
          rintro rfl
          exact hfirst (heq ▸ hother)
        refine ⟨outcome, ?_, ?_⟩
        · rw [heq, List.idxOf_cons_self]
          rfl
        · rw [if_pos heq, answersTo_deliver_eq_nil hrest]
          rfl
      · have hkey' : key ∈ keys := (List.mem_cons.1 hkey).resolve_left (Ne.symm heq)
        obtain ⟨found, hfound, hanswers⟩ := ih hnodup hkey' (Nat.succ.inj hlength)
        refine ⟨found, ?_, ?_⟩
        · rw [List.idxOf_cons_ne _ heq, List.getElem?_cons_succ, hfound]
        · rw [if_neg heq, hanswers]
          rfl

end

theorem State.length_aligned (keys : List κ) (results : List (Except LoadError ν)) :
    (State.aligned keys results).length = keys.length := by
  unfold State.aligned
  split
  · assumption
  · exact List.length_map _

/-! ### Places -/

/-- Where a ticket can be registered. -/
inductive Place (κ : Type) where
  | pending (key : κ)
  /-- With a batch that was sent off. -/
  | early (batch : Nat) (key : κ)
  /-- Behind a batch that was sent off with the key. -/
  | late (key : κ)
  deriving DecidableEq

variable [DecidableEq κ]

/-- The tickets for a key that stand with the batches of a number. -/
def earlyTickets (id : Nat) (key : κ) (batches : List (Batch κ)) : List Nat :=
  batches.flatMap fun batch => if batch.id = id then ticketsOf key batch.waiters else []

theorem earlyTickets_cons (id : Nat) (key : κ) (batch : Batch κ) (rest : List (Batch κ)) :
    earlyTickets id key (batch :: rest) =
      (if batch.id = id then ticketsOf key batch.waiters else []) ++ earlyTickets id key rest := List.flatMap_cons

theorem earlyTickets_filter (id other : Nat) (key : κ) (batches : List (Batch κ)) :
    earlyTickets id key (batches.filter fun batch => batch.id ≠ other) =
      if id = other then [] else earlyTickets id key batches := by
  induction batches with
  | nil => simp [earlyTickets]
  | cons batch rest ih =>
    rw [List.filter_cons, earlyTickets_cons]
    by_cases hbatch : batch.id = other
    · rw [if_neg (by simpa using hbatch), ih, hbatch]
      by_cases hid : id = other
      · rw [if_pos hid, if_pos hid]
      · rw [if_neg hid, if_neg hid, if_neg (Ne.symm hid), List.nil_append]
    · rw [if_pos (by simpa using hbatch), earlyTickets_cons, ih]
      by_cases hid : id = other
      · rw [if_pos hid, if_pos hid, if_neg (by rwa [hid]), List.append_nil]
      · rw [if_neg hid, if_neg hid]

theorem earlyTickets_of_mem {batches : List (Batch κ)} (hids : (batches.map Batch.id).Nodup) {batch : Batch κ}
    (hbatch : batch ∈ batches) (key : κ) : earlyTickets batch.id key batches = ticketsOf key batch.waiters := by
  induction batches with
  | nil => cases hbatch
  | cons other rest ih =>
    rw [List.map_cons, List.nodup_cons] at hids
    rw [earlyTickets_cons]
    rcases List.mem_cons.1 hbatch with rfl | hbatch
    · have hrest : earlyTickets batch.id key rest = [] := by
        rw [earlyTickets, List.flatMap_eq_nil_iff]
        intro other hother
        have hne : other.id ≠ batch.id := fun hid => hids.1 (hid ▸ List.mem_map_of_mem hother)
        exact if_neg hne
      rw [if_pos rfl, hrest, List.append_nil]
    · have hne : other.id ≠ batch.id := fun hid => hids.1 (hid ▸ List.mem_map_of_mem hbatch)
      rw [if_neg hne, List.nil_append]
      exact ih hids.2 hbatch

namespace State

def ticketsAt (state : State κ ν) : Place κ → List Nat
  | .pending key => state.pending.elim [] fun batch => ticketsOf key batch.waiters
  | .early id key => earlyTickets id key state.dispatched
  | .late key => ticketsOf key state.inFlight

/-- Whether a place is one for a key of a batch. -/
def Serves (state : State κ ν) (key : κ) (id : Nat) : Place κ → Prop
  | .pending k => k = key ∧ ∃ batch ∈ state.pending, batch.id = id ∧ key ∈ batch.keys
  | .early i k => k = key ∧ i = id ∧ ∃ batch ∈ state.dispatched, batch.id = id ∧ key ∈ batch.keys
  | .late k => k = key ∧ ∃ batch ∈ state.dispatched, batch.id = id ∧ key ∈ batch.keys

/-- A ticket is registered in exactly one place, and once, for a key of a batch. -/
def Waits (state : State κ ν) (ticket : Nat) (key : κ) (id : Nat) : Prop :=
  ∃ place, state.Serves key id place ∧ ∀ other, (state.ticketsAt other).count ticket = if other = place then 1 else 0

def Absent (state : State κ ν) (ticket : Nat) : Prop := ∀ place, (state.ticketsAt place).count ticket = 0

variable {state state' : State κ ν} {ticket : Nat} {key : κ} {id : Nat} {batch : Batch κ} {change : Change}

theorem ticketsAt_rest (cache : List (κ × ν)) (timers : List Nat) (place : Place κ) :
    ticketsAt { state with cache, timers } place = state.ticketsAt place := by
  cases place <;> rfl

/-! ### Taking a ticket -/

theorem ticketsAt_join (key : κ) (ticket : Nat) (place : Place κ) :
    (state.join key ticket).ticketsAt place =
      state.ticketsAt place ++ if place = .pending key then [ticket] else [] := by
  cases place with
  | pending k =>
    obtain ⟨cache, pending, timers, dispatched, inFlight, nextBatch⟩ := state
    change ticketsOf k (addWaiter key ticket _) = _
    rw [ticketsOf_addWaiter]
    cases pending <;> simp [ticketsAt, pendingBatch, ticketsOf]
  | early i k => simp [ticketsAt, join]
  | late k => simp [ticketsAt, join]

theorem ticketsAt_late (key : κ) (ticket : Nat) (place : Place κ) :
    ticketsAt { state with inFlight := addWaiter key ticket state.inFlight } place =
      state.ticketsAt place ++ if place = .late key then [ticket] else [] := by
  cases place with
  | pending k => simp [ticketsAt]
  | early i k => simp [ticketsAt]
  | late k =>
    change ticketsOf k (addWaiter key ticket state.inFlight) = _
    rw [ticketsOf_addWaiter]
    simp [ticketsAt]

/-- A ticket is put in one place, which is for its key. -/
theorem Registers.ticketsAt (hregisters : state.Registers key ticket state') (h : state.Coherent) :
    ∃ here id, state'.Serves key id here ∧
      ∀ place, state'.ticketsAt place = state.ticketsAt place ++ if place = here then [ticket] else [] := by
  cases hregisters with
  | late hkey =>
    rw [h.inFlight, List.mem_flatMap] at hkey
    obtain ⟨batch, hbatch, hkey⟩ := hkey
    exact ⟨.late key, batch.id, ⟨rfl, batch, hbatch, rfl, hkey⟩, ticketsAt_late key ticket⟩
  | join hkey =>
    have hwaiters : state.pendingBatch.waiters.map Prod.fst = state.pendingBatch.keys :=
      h.opened.waiters _ (List.mem_append_right _ (by simp))
    exact ⟨.pending key, state.pendingBatch.id,
      ⟨rfl, _, rfl, rfl, (Batch.mem_keys_add hwaiters).2 (.inr rfl)⟩, ticketsAt_join key ticket⟩

theorem Registers.serves {other : κ} {place : Place κ} (hregisters : state.Registers key ticket state')
    (h : state.Coherent) (hserves : state.Serves other id place) : state'.Serves other id place := by
  cases hregisters with
  | late hkey => cases place <;> exact hserves
  | join hkey =>
    cases place with
    | pending k =>
      obtain ⟨hk, batch, hpending, hid, hother⟩ := hserves
      have hbatch : state.pendingBatch = batch := by
        rw [pendingBatch, hpending, Option.getD_some]
      have hwaiters := h.waiters batch (List.mem_append_right _ (by simp [Option.mem_def.1 hpending]))
      refine ⟨hk, state.pendingBatch.add key ticket, rfl, ?_, ?_⟩
      · rw [hbatch]
        exact hid
      · rw [hbatch]
        exact (Batch.mem_keys_add hwaiters).2 (.inl hother)
    | early i k => exact hserves
    | late k => exact hserves

/-! ### Sending a batch off and letting go of it -/

theorem ticketsAt_dispatch_early (hpending : state.pending = some batch) (i : Nat) (k : κ) :
    (state.dispatch batch).ticketsAt (.early i k) =
      state.ticketsAt (.early i k) ++ if batch.id = i then state.ticketsAt (.pending k) else [] := by
  change earlyTickets i k (state.dispatched ++ [batch]) = _
  rw [earlyTickets, List.flatMap_append, List.flatMap_singleton]
  simp only [ticketsAt, earlyTickets, hpending, Option.elim_some]

theorem ticketsAt_dispatch_late (k : κ) : (state.dispatch batch).ticketsAt (.late k) = state.ticketsAt (.late k) :=
  ticketsOf_openKeys batch.keys k state.inFlight

theorem ticketsAt_release_early (i : Nat) (k : κ) :
    (state.release batch).ticketsAt (.early i k) = if i = batch.id then [] else state.ticketsAt (.early i k) :=
  earlyTickets_filter i batch.id k state.dispatched

theorem ticketsAt_release_late (k : κ) :
    (state.release batch).ticketsAt (.late k) = if k ∈ batch.keys then [] else state.ticketsAt (.late k) :=
  ticketsOf_filter batch.keys k state.inFlight

/-- The tickets of a batch that was sent off stand with it alone. -/
theorem ticketsAt_early (h : state.Coherent) (hbatch : batch ∈ state.dispatched) (k : κ) :
    state.ticketsAt (.early batch.id k) = ticketsOf k batch.waiters := by
  have hids := h.ids
  rw [batches, List.map_append] at hids
  exact earlyTickets_of_mem (List.nodup_append.1 hids).1 hbatch k

/-! ### What moves keep -/

theorem Move.absent (hmove : state.Move change state') (h : state.Coherent) (hticket : change ≠ .register ticket)
    (habsent : state.Absent ticket) : state'.Absent ticket := by
  cases hmove with
  | rest cache timers =>
    intro place
    rw [ticketsAt_rest, habsent place]
  | register key other hregisters =>
    obtain ⟨here, id, -, htickets⟩ := hregisters.ticketsAt h
    have hne : other ≠ ticket := fun heq => hticket (heq ▸ rfl)
    intro place
    rw [htickets, List.count_append, habsent place]
    split <;> simp [hne]
  | dispatch batch hpending =>
    rintro (k | ⟨i, k⟩ | k)
    · rfl
    · rw [ticketsAt_dispatch_early hpending, List.count_append, habsent]
      split
      · rw [habsent]
      · rfl
    · rw [ticketsAt_dispatch_late, habsent]
  | release batch hbatch =>
    rintro (k | ⟨i, k⟩ | k)
    · exact habsent (.pending k)
    · rw [ticketsAt_release_early]
      split
      · rfl
      · exact habsent _
    · rw [ticketsAt_release_late]
      split
      · rfl
      · exact habsent _

theorem Waits.dispatch (hpending : state.pending = some batch) (hwaits : state.Waits ticket key id) :
    (state.dispatch batch).Waits ticket key id := by
  obtain ⟨place, hserves, hcount⟩ := hwaits
  have hcounts : ∀ i k, ((state.dispatch batch).ticketsAt (.early i k)).count ticket =
      (if .early i k = place then 1 else 0) + if batch.id = i ∧ .pending k = place then 1 else 0 := by
    intro i k
    rw [ticketsAt_dispatch_early hpending, List.count_append, hcount]
    by_cases hid : batch.id = i
    · simp only [hid, if_true, true_and, hcount]
    · simp [hid]
  -- a ticket of the pending batch moves with it, all others stay where they are
  cases place with
  | pending k =>
    obtain ⟨rfl, other, hother, rfl, hkey⟩ := hserves
    obtain rfl : batch = other := Option.some.inj (hpending.symm.trans hother)
    refine ⟨.early batch.id k, ⟨rfl, rfl, batch, List.mem_append_right _ (by simp), rfl, hkey⟩, ?_⟩
    rintro (k' | ⟨i, k'⟩ | k')
    · rfl
    · rw [hcounts]
      simp only [reduceCtorEq, if_false, Nat.zero_add, Place.pending.injEq, Place.early.injEq, eq_comm]
    · rw [ticketsAt_dispatch_late, hcount]
      simp
  | early i k =>
    obtain ⟨hk, hi, other, hother, hid, hkey⟩ := hserves
    refine ⟨.early i k, ⟨hk, hi, other, List.mem_append_left _ hother, hid, hkey⟩, ?_⟩
    rintro (k' | ⟨i', k'⟩ | k')
    · rfl
    · rw [hcounts]
      simp
    · rw [ticketsAt_dispatch_late, hcount]
  | late k =>
    obtain ⟨hk, other, hother, hid, hkey⟩ := hserves
    refine ⟨.late k, ⟨hk, other, List.mem_append_left _ hother, hid, hkey⟩, ?_⟩
    rintro (k' | ⟨i', k'⟩ | k')
    · rfl
    · rw [hcounts]
      simp
    · rw [ticketsAt_dispatch_late, hcount]

/-- The end of another batch leaves a ticket where it is. -/
theorem Waits.release (h : state.Coherent) (hbatch : batch ∈ state.dispatched) (hne : batch.id ≠ id)
    (hwaits : state.Waits ticket key id) : (state.release batch).Waits ticket key id := by
  obtain ⟨place, hserves, hcount⟩ := hwaits
  have hkept : ∀ other ∈ state.dispatched, other.id = id → other ∈ (state.release batch).dispatched := by
    rintro other hother rfl
    exact List.mem_filter.2 ⟨hother, by simpa using hne.symm⟩
  refine ⟨place, ?_, ?_⟩
  · cases place with
    | pending k => exact hserves
    | early i k =>
      obtain ⟨hk, hi, other, hother, hid, hkey⟩ := hserves
      exact ⟨hk, hi, other, hkept other hother hid, hid, hkey⟩
    | late k =>
      obtain ⟨hk, other, hother, hid, hkey⟩ := hserves
      exact ⟨hk, other, hkept other hother hid, hid, hkey⟩
  · rintro (k | ⟨i, k⟩ | k)
    · exact hcount (.pending k)
    · rw [ticketsAt_release_early]
      split
      · rename_i hi
        rw [if_neg]
        · rfl
        · rintro rfl
          exact hne (hi ▸ hserves.2.1)
      · exact hcount _
    · rw [ticketsAt_release_late]
      split
      · rename_i hkey
        -- no other batch holds the key, so nobody who came late for it is struck off
        rw [if_neg]
        · rfl
        · rintro rfl
          obtain ⟨rfl, other, hother, hid, hkey'⟩ := hserves
          have heq := h.batch_of_key (List.mem_append_left _ hbatch) (List.mem_append_left _ hother) hkey hkey'
          exact hne (heq ▸ hid)
      · exact hcount _

theorem Move.waits (hmove : state.Move change state') (h : state.Coherent) (hticket : change ≠ .register ticket)
    (hbatch : change ≠ .release id) (hwaits : state.Waits ticket key id) : state'.Waits ticket key id := by
  cases hmove with
  | rest cache timers =>
    obtain ⟨place, hserves, hcount⟩ := hwaits
    refine ⟨place, ?_, fun other => ?_⟩
    · cases place <;> exact hserves
    · rw [ticketsAt_rest, hcount]
  | register other ticket' hregisters =>
    obtain ⟨place, hserves, hcount⟩ := hwaits
    obtain ⟨here, _, -, htickets⟩ := hregisters.ticketsAt h
    have hne : ticket' ≠ ticket := fun heq => hticket (heq ▸ rfl)
    refine ⟨place, hregisters.serves h hserves, fun other => ?_⟩
    rw [htickets, List.count_append, hcount]
    by_cases hhere : other = here <;> simp [hhere, hne]
  | dispatch batch hpending => exact hwaits.dispatch hpending
  | release batch hmem => exact hwaits.release h hmem fun hid => hbatch (hid ▸ rfl)

end State

/-! ### The end of a batch -/

namespace State

variable {state : State κ ν} {ticket : Nat} {key : κ} {id : Nat} {batch : Batch κ}

theorem settle_of_find? (hfound : state.dispatched.find? (fun batch => batch.id = id) = some batch)
    (results : List (Except LoadError ν)) :
    (state.settle id results).1 = deliver (ticketsFor batch state) batch.keys (aligned batch.keys results) ∧
      ∃ cache, (state.settle id results).2 = { state.release batch with cache } := by
  rw [settle, hfound]
  exact ⟨rfl, _, rfl⟩

theorem crash_of_find? (hfound : state.dispatched.find? (fun batch => batch.id = id) = some batch) :
    (state.crash id).1 = deliver (ticketsFor batch state) batch.keys (batch.keys.map fun _ => .error .dropped) ∧
      (state.crash id).2 = state.release batch := by
  rw [crash, hfound, deliver, ← List.map_prod_left_eq_zip, List.flatMap_map]
  exact ⟨rfl, rfl⟩

theorem count_ticketsFor (h : state.Coherent) (hbatch : batch ∈ state.dispatched) (k : κ) :
    (ticketsFor batch state k).count ticket =
      (state.ticketsAt (.early batch.id k)).count ticket + (state.ticketsAt (.late k)).count ticket := by
  rw [ticketsAt_early h hbatch, ← List.count_append]
  rfl

/-- The batch that a ticket waits for, once it was sent off. -/
theorem Waits.place_of_dispatched (h : state.Coherent) (hbatch : batch ∈ state.dispatched)
    (hwaits : state.Waits ticket key batch.id) :
    key ∈ batch.keys ∧ ∃ place, (place = .early batch.id key ∨ place = .late key) ∧
      ∀ other, (state.ticketsAt other).count ticket = if other = place then 1 else 0 := by
  obtain ⟨place, hserves, hcount⟩ := hwaits
  have hin : batch ∈ state.batches := List.mem_append_left _ hbatch
  cases place with
  | pending k =>
    -- the pending batch has a number of its own
    obtain ⟨-, other, hother, hid, -⟩ := hserves
    have hids := h.ids
    rw [batches_of_pending hother, List.map_append, List.nodup_append] at hids
    exact absurd hid.symm (hids.2.2 _ (List.mem_map_of_mem hbatch) _ (by simp))
  | early i k =>
    obtain ⟨rfl, rfl, other, hother, hid, hkey⟩ := hserves
    rw [h.batch_of_id (List.mem_append_left _ hother) hin hid] at hkey
    exact ⟨hkey, _, .inl rfl, hcount⟩
  | late k =>
    obtain ⟨rfl, other, hother, hid, hkey⟩ := hserves
    rw [h.batch_of_id (List.mem_append_left _ hother) hin hid] at hkey
    exact ⟨hkey, _, .inr rfl, hcount⟩

theorem Waits.count_own (h : state.Coherent) (hbatch : batch ∈ state.dispatched)
    (hwaits : state.Waits ticket key batch.id) (k : κ) :
    (ticketsFor batch state k).count ticket = if k = key then 1 else 0 := by
  obtain ⟨-, place, hplace, hcount⟩ := hwaits.place_of_dispatched h hbatch
  rw [count_ticketsFor h hbatch, hcount, hcount]
  rcases hplace with rfl | rfl <;> simp

theorem Waits.answersTo_deliver {α : Type} {outcomes : List α} (h : state.Coherent) (hbatch : batch ∈ state.dispatched)
    (hwaits : state.Waits ticket key batch.id) (hlength : outcomes.length = batch.keys.length) :
    ∃ outcome, outcomes[batch.keys.idxOf key]? = some outcome ∧
      answersTo ticket (deliver (ticketsFor batch state) batch.keys outcomes) = [outcome] :=
  Loader.answersTo_deliver (h.nodup_keys (List.mem_append_left _ hbatch)) (hwaits.count_own h hbatch)
    (hwaits.place_of_dispatched h hbatch).1 hlength

theorem Waits.count_other (h : state.Coherent) (hbatch : batch ∈ state.dispatched) (hne : batch.id ≠ id)
    (hwaits : state.Waits ticket key id) {k : κ} (hk : k ∈ batch.keys) :
    (ticketsFor batch state k).count ticket = 0 := by
  obtain ⟨place, hserves, hcount⟩ := hwaits
  rw [count_ticketsFor h hbatch, hcount, hcount, if_neg, if_neg]
  · rintro rfl
    obtain ⟨rfl, other, hother, hid, hkey⟩ := hserves
    have heq := h.batch_of_key (List.mem_append_left _ hbatch) (List.mem_append_left _ hother) hk hkey
    exact hne (heq ▸ hid)
  · rintro rfl
    exact hne hserves.2.1

/-- The end of its batch strikes a ticket off everywhere. -/
theorem Waits.absent_release (h : state.Coherent) (hbatch : batch ∈ state.dispatched)
    (hwaits : state.Waits ticket key batch.id) : (state.release batch).Absent ticket := by
  obtain ⟨hkey, place, hplace, hcount⟩ := hwaits.place_of_dispatched h hbatch
  rintro (k | ⟨i, k⟩ | k)
  · change (state.ticketsAt (.pending k)).count ticket = 0
    rw [hcount]
    rcases hplace with rfl | rfl <;> rfl
  · rw [ticketsAt_release_early]
    split
    · rfl
    · rename_i hi
      rw [hcount]
      rcases hplace with rfl | rfl <;> simp [hi]
  · rw [ticketsAt_release_late]
    split
    · rfl
    · rename_i hk
      rw [hcount, if_neg]
      rintro rfl
      rcases hplace with hplace | hplace
      · cases hplace
      · cases hplace
        exact hk hkey

end State

/-! ### Histories -/

theorem State.Moves.absent {state state' : State κ ν} {ticket : Nat} (hmoves : State.Moves allowed state state')
    (h : state.Coherent) (hticket : ¬ allowed (.register ticket)) (habsent : state.Absent ticket) :
    state'.Absent ticket := by
  induction hmoves with
  | refl => exact habsent
  | tail hbefore hmove ih =>
    obtain ⟨change, hallowed, hmove⟩ := hmove
    refine hmove.absent (State.Moves.coherent hbefore h) ?_ ih
    rintro rfl
    exact hticket hallowed

theorem State.Moves.waits {state state' : State κ ν} {ticket id : Nat} {key : κ}
    (hmoves : State.Moves allowed state state') (h : state.Coherent) (hticket : ¬ allowed (.register ticket))
    (hbatch : ¬ allowed (.release id)) (hwaits : state.Waits ticket key id) : state'.Waits ticket key id := by
  induction hmoves with
  | refl => exact hwaits
  | tail hbefore hmove ih =>
    obtain ⟨change, hallowed, hmove⟩ := hmove
    refine hmove.waits (State.Moves.coherent hbefore h) ?_ ?_ ih
    · rintro rfl
      exact hticket hallowed
    · rintro rfl
      exact hbatch hallowed

theorem State.load_waits {state : State κ ν} {ticket : Nat} {key : κ} (h : state.Coherent)
    (hcache : state.cache.lookup key = none) (habsent : state.Absent ticket) (maxBatch : Nat) :
    ∃ id, (state.load maxBatch key ticket).2.Waits ticket key id := by
  obtain ⟨-, middle, hregisters, hmoves⟩ := State.load_of_lookup_eq_none hcache maxBatch ticket
  obtain ⟨here, id, hserves, htickets⟩ := hregisters.ticketsAt h
  have hwaits : middle.Waits ticket key id := by
    refine ⟨here, hserves, fun place => ?_⟩
    rw [htickets, List.count_append, habsent place]
    by_cases hplace : place = here <;> simp [hplace]
  have hmiddle : middle.Coherent := (State.Move.register key ticket hregisters).coherent h
  exact ⟨id, hmoves.waits hmiddle (by simp) (by simp) hwaits⟩

/-- The answer that the end of a batch holds for one of its keys. -/
def Event.Answers (batch : Batch κ) (key : κ) : Event κ ν → Except LoadError ν → Prop
  | .settle _ results, answer =>
    if results.length = batch.keys.length then results[batch.keys.idxOf key]? = some answer
    else answer = .error (.mismatch results.length batch.keys.length)
  | .crash _, answer => answer = .error .dropped
  | _, _ => False

theorem Event.answers_settle {batch : Batch κ} {key : κ} {id : Nat} {results : List (Except LoadError ν)}
    (hanswer : (State.aligned batch.keys results)[batch.keys.idxOf key]? = some answer) :
    (Event.settle id results).Answers batch key answer := by
  change if results.length = batch.keys.length then _ else _
  unfold State.aligned at hanswer
  split at hanswer
  · rename_i hlength
    rwa [if_pos hlength]
  · rename_i hlength
    rw [if_neg hlength]
    obtain ⟨_, -, heq⟩ := List.mem_map.1 (List.mem_of_getElem? hanswer)
    exact heq.symm

theorem Event.answers_crash {batch : Batch κ} {key : κ} {id : Nat}
    (hanswer : (batch.keys.map fun _ => Except.error LoadError.dropped)[batch.keys.idxOf key]? = some answer) :
    (Event.crash id).Answers batch key answer := by
  obtain ⟨_, -, heq⟩ := List.mem_map.1 (List.mem_of_getElem? hanswer)
  exact heq.symm

namespace History

variable {history : History κ ν} {ticket : Nat} {key : κ} {id : Nat} {event : Event κ ν} {maxBatch : Nat}
  {events : List (Event κ ν)} {value : ν}

theorem step_load_cached (maxBatch : Nat) (hcache : history.state.cache.lookup key = some value) :
    history.step maxBatch (.load key) =
      { history with loads := history.loads + 1, answers := history.answers ++ [(history.loads, .ok value)] } := by
  simp only [step, State.load_of_lookup_eq_some hcache]

theorem step_load_waiting (maxBatch : Nat) (hcache : history.state.cache.lookup key = none) :
    (history.step maxBatch (.load key)).answers = history.answers := by
  obtain ⟨⟨demand, hreceipt⟩, -⟩ := State.load_of_lookup_eq_none hcache maxBatch history.loads
  simp only [step, hreceipt]

/-- The end of a batch gives one outcome for each of its keys to all who wait, and lets go of it. -/
theorem step_of_ends (maxBatch : Nat) (hends : history.Ends id event) :
    ∃ batch ∈ history.state.dispatched, batch.id = id ∧ ∃ outcomes cache, outcomes.length = batch.keys.length ∧
      (history.step maxBatch event).answers =
        history.answers ++ deliver (State.ticketsFor batch history.state) batch.keys outcomes ∧
      (history.step maxBatch event).state = { history.state.release batch with cache } ∧
      ∀ key answer, outcomes[batch.keys.idxOf key]? = some answer → event.Answers batch key answer := by
  cases event with
  | settle other results =>
    obtain ⟨rfl, hid⟩ := hends
    obtain ⟨batch, hbatch, hid, hfound⟩ := exists_find?_of_mem_ids hid
    obtain ⟨hdelivered, cache, hstate⟩ := State.settle_of_find? hfound results
    refine ⟨batch, hbatch, hid, _, cache, State.length_aligned batch.keys results, ?_, hstate, ?_⟩
    · rw [← hdelivered]
      rfl
    · exact fun _ _ => Event.answers_settle
  | crash other =>
    obtain ⟨rfl, hid⟩ := hends
    obtain ⟨batch, hbatch, hid, hfound⟩ := exists_find?_of_mem_ids hid
    obtain ⟨hdelivered, hstate⟩ := State.crash_of_find? hfound
    refine ⟨batch, hbatch, hid, batch.keys.map fun _ => .error .dropped, history.state.cache, List.length_map _, ?_,
      hstate, ?_⟩
    · rw [← hdelivered]
      rfl
    · exact fun _ _ => Event.answers_crash
  | load | fire | prime | clear | clearAll => cases hends

/-- Apart from the end of a batch, only a load is answered, and only by the cache. -/
theorem answers_of_not_ends (maxBatch : Nat) (hends : ∀ id, ¬ history.Ends id event) :
    (history.step maxBatch event).answers = history.answers ∨
      ∃ key answer, event = .load key ∧
        (history.step maxBatch event).answers = history.answers ++ [(history.loads, answer)] := by
  have hfind : ∀ id, (id ∈ history.state.dispatched.map Batch.id → False) →
      history.state.dispatched.find? (fun batch => batch.id = id) = none := by
    intro id hid
    rw [List.find?_eq_none]
    intro batch hbatch heq
    exact hid (List.mem_map.2 ⟨batch, hbatch, by simpa using heq⟩)
  cases event with
  | load key =>
    cases hcache : history.state.cache.lookup key with
    | some value => exact .inr ⟨key, .ok value, rfl, by rw [step_load_cached maxBatch hcache]⟩
    | none => exact .inl (step_load_waiting maxBatch hcache)
  | settle id results =>
    left
    simp only [step, State.settle, hfind id fun hid => hends id ⟨rfl, hid⟩, List.append_nil]
  | crash id =>
    left
    simp only [step, State.crash, hfind id fun hid => hends id ⟨rfl, hid⟩, List.append_nil]
  | fire | prime | clear | clearAll => exact .inl rfl

/-- Only the load itself and the end of a batch with the ticket answer it. -/
theorem answersTo_step (maxBatch : Nat) (hload : ∀ key, event = .load key → ticket ≠ history.loads)
    (hcount : ∀ batch ∈ history.state.dispatched, history.Ends batch.id event →
      ∀ k ∈ batch.keys, (State.ticketsFor batch history.state k).count ticket = 0) :
    answersTo ticket (history.step maxBatch event).answers = answersTo ticket history.answers := by
  by_cases hends : ∃ id, history.Ends id event
  · obtain ⟨id, hends⟩ := hends
    obtain ⟨batch, hbatch, rfl, outcomes, _, -, hanswers, -⟩ := step_of_ends maxBatch hends
    rw [hanswers, answersTo_append, answersTo_deliver_eq_nil (hcount batch hbatch hends), List.append_nil]
  · rcases answers_of_not_ends maxBatch (not_exists.1 hends) with hanswers | ⟨key, answer, hevent, hanswers⟩
    · rw [hanswers]
    · have hne := (hload key hevent).symm
      rw [hanswers, answersTo_append]
      simp [answersTo, hne]

theorem step_absent (maxBatch : Nat) (h : history.state.Coherent)
    (hload : ∀ key, event = .load key → ticket ≠ history.loads)
    (habsent : history.state.Absent ticket) :
    (history.step maxBatch event).state.Absent ticket ∧
      answersTo ticket (history.step maxBatch event).answers = answersTo ticket history.answers := by
  have hnot : ¬ history.Allows event (.register ticket) := by
    rintro ⟨⟨key, rfl⟩, hticket⟩
    exact hload key rfl hticket
  refine ⟨(step_moves maxBatch history event).absent h hnot habsent, answersTo_step maxBatch hload ?_⟩
  intro batch hbatch _ k _
  rw [State.count_ticketsFor h hbatch, habsent, habsent]

theorem step_waits (maxBatch : Nat) (h : history.state.Coherent) (hissued : ticket < history.loads)
    (hends : ¬ history.Ends id event) (hwaits : history.state.Waits ticket key id) :
    (history.step maxBatch event).state.Waits ticket key id ∧
      answersTo ticket (history.step maxBatch event).answers = answersTo ticket history.answers := by
  have hnot : ¬ history.Allows event (.register ticket) := by
    rintro ⟨-, rfl⟩
    exact Nat.lt_irrefl _ hissued
  refine ⟨(step_moves maxBatch history event).waits h hnot hends hwaits,
    answersTo_step maxBatch (fun _ _ => Nat.ne_of_lt hissued) ?_⟩
  intro batch hbatch hother k hk
  refine hwaits.count_other h hbatch ?_ hk
  rintro rfl
  exact hends hother

/-- The end of its batch answers a ticket once, with what the batch holds for its key. -/
theorem step_ends (maxBatch : Nat) (h : history.state.Coherent) (hends : history.Ends id event)
    (hwaits : history.state.Waits ticket key id) :
    ∃ batch ∈ history.state.dispatched, batch.id = id ∧ key ∈ batch.keys ∧ ∃ answer, event.Answers batch key answer ∧
      answersTo ticket (history.step maxBatch event).answers = answersTo ticket history.answers ++ [answer] ∧
      (history.step maxBatch event).state.Absent ticket := by
  obtain ⟨batch, hbatch, rfl, outcomes, cache, hlength, hanswers, hstate, hspec⟩ := step_of_ends maxBatch hends
  obtain ⟨answer, hanswer, hgiven⟩ := hwaits.answersTo_deliver h hbatch hlength
  refine ⟨batch, hbatch, rfl, (hwaits.place_of_dispatched h hbatch).1, answer, hspec key answer hanswer, ?_, ?_⟩
  · rw [hanswers, answersTo_append, hgiven]
  · rw [hstate]
    exact (State.Move.rest cache history.state.timers).absent (h.release hbatch) (by simp)
      (hwaits.absent_release h hbatch)

theorem loads_le_step (maxBatch : Nat) (history : History κ ν) (event : Event κ ν) :
    history.loads ≤ (history.step maxBatch event).loads := by
  cases event with
  | load => exact Nat.le_succ _
  | fire | settle | crash | prime | clear | clearAll => exact Nat.le_refl _

theorem loads_le_after (maxBatch : Nat) (events later : List (Event κ ν)) :
    (after maxBatch events).loads ≤ (after maxBatch (events ++ later)).loads := by
  induction later using List.reverseRecOn with
  | nil => exact Nat.le_of_eq (by rw [List.append_nil])
  | append_singleton later event ih =>
    rw [← List.append_assoc, after_snoc]
    exact Nat.le_trans ih (loads_le_step maxBatch _ event)

/-- A ticket that was not given out is neither registered nor answered. -/
theorem fresh_after (maxBatch : Nat) (events : List (Event κ ν)) {ticket : Nat}
    (hticket : (after maxBatch events).loads ≤ ticket) :
    (after maxBatch events).state.Absent ticket ∧ answersTo ticket (after maxBatch events).answers = [] := by
  induction events using List.reverseRecOn with
  | nil =>
    refine ⟨?_, rfl⟩
    rintro (k | ⟨i, k⟩ | k) <;> rfl
  | append_singleton events event ih =>
    rw [after_snoc] at hticket ⊢
    have hbefore := Nat.le_trans (loads_le_step maxBatch _ event) hticket
    have hload : ∀ key, event = .load key → ticket ≠ (after maxBatch events).loads := by
      rintro key rfl rfl
      exact Nat.lt_irrefl _ hticket
    obtain ⟨habsent, hanswers⟩ := ih hbefore
    obtain ⟨habsent', hanswers'⟩ := step_absent maxBatch (coherent_after maxBatch events) hload habsent
    exact ⟨habsent', hanswers'.trans hanswers⟩

theorem absent_after (hissued : ticket < (after maxBatch events).loads)
    (habsent : (after maxBatch events).state.Absent ticket) (later : List (Event κ ν)) :
    (after maxBatch (events ++ later)).state.Absent ticket ∧
      answersTo ticket (after maxBatch (events ++ later)).answers =
        answersTo ticket (after maxBatch events).answers := by
  induction later using List.reverseRecOn with
  | nil =>
    rw [List.append_nil]
    exact ⟨habsent, rfl⟩
  | append_singleton later event ih =>
    rw [← List.append_assoc, after_snoc]
    have hlater := Nat.lt_of_lt_of_le hissued (loads_le_after maxBatch events later)
    obtain ⟨habsent', hanswers'⟩ := step_absent maxBatch (coherent_after maxBatch (events ++ later))
      (fun _ _ => Nat.ne_of_lt hlater) ih.1
    exact ⟨habsent', hanswers'.trans ih.2⟩

theorem waits_after (hissued : ticket < (after maxBatch events).loads)
    (hwaits : (after maxBatch events).state.Waits ticket key id) (later : List (Event κ ν))
    (hends : ∀ earlier event, earlier ++ [event] <+: later → ¬ (after maxBatch (events ++ earlier)).Ends id event) :
    (after maxBatch (events ++ later)).state.Waits ticket key id ∧
      answersTo ticket (after maxBatch (events ++ later)).answers =
        answersTo ticket (after maxBatch events).answers := by
  induction later using List.reverseRecOn with
  | nil =>
    rw [List.append_nil]
    exact ⟨hwaits, rfl⟩
  | append_singleton later event ih =>
    rw [← List.append_assoc, after_snoc]
    have hlater := Nat.lt_of_lt_of_le hissued (loads_le_after maxBatch events later)
    have hbefore := ih fun earlier event hbegins => hends earlier event (hbegins.trans (List.prefix_append _ _))
    obtain ⟨hwaits', hanswers'⟩ := step_waits maxBatch (coherent_after maxBatch (events ++ later)) hlater
      (hends later event List.prefix_rfl) hbefore.1
    exact ⟨hwaits', hanswers'.trans hbefore.2⟩

omit [DecidableEq κ] in
/-- Of the events that end a batch there is a first one, or none. -/
theorem first_end_or_none (ends : List (Event κ ν) → Event κ ν → Prop) (later : List (Event κ ν)) :
    (∀ earlier event, earlier ++ [event] <+: later → ¬ ends earlier event) ∨
      ∃ earlier event, earlier ++ [event] <+: later ∧ ends earlier event ∧
        ∀ before other, before ++ [other] <+: earlier → ¬ ends before other := by
  induction later using List.reverseRecOn with
  | nil =>
    left
    intro earlier event hbegins
    simp at hbegins
  | append_singleton later last ih =>
    rcases ih with hnone | ⟨earlier, event, hbegins, hfirst⟩
    · by_cases hlast : ends later last
      · exact .inr ⟨later, last, List.prefix_rfl, hlast, hnone⟩
      · left
        intro earlier event hbegins
        rcases List.prefix_concat_iff.1 hbegins with hwhole | hbegins
        · obtain ⟨rfl, hevent⟩ := List.append_inj' hwhole rfl
          rw [List.singleton_inj.1 hevent]
          exact hlast
        · exact hnone earlier event hbegins
    · exact .inr ⟨earlier, event, hbegins.trans (List.prefix_append _ _), hfirst⟩

theorem ticketsAt_eq_nil {state : State κ ν} (h : state.Coherent) (harmed : state.Armed) (htimers : state.timers = [])
    (hdispatched : state.dispatched = []) (place : Place κ) : state.ticketsAt place = [] := by
  have hpending : state.pending = none := by
    cases hpending : state.pending with
    | none => rfl
    | some batch =>
      have hbatch := harmed batch hpending
      rw [htimers] at hbatch
      cases hbatch
  have hinFlight := h.inFlight
  rw [hdispatched, List.flatMap_nil, List.map_eq_nil_iff] at hinFlight
  cases place with
  | pending k => rw [State.ticketsAt, hpending, Option.elim_none]
  | early i k => rw [State.ticketsAt, hdispatched, earlyTickets, List.flatMap_nil]
  | late k =>
    rw [State.ticketsAt, hinFlight]
    rfl

theorem cached_load_after {before : List (Event κ ν)}
    (hcache : (after maxBatch before).state.cache.lookup key = some value) (later : List (Event κ ν)) :
    (after maxBatch (before ++ [.load key] ++ later)).state.Absent (after maxBatch before).loads ∧
      answersTo (after maxBatch before).loads (after maxBatch (before ++ [.load key] ++ later)).answers =
        [.ok value] := by
  obtain ⟨habsent, hanswers⟩ := fresh_after maxBatch before (Nat.le_refl _)
  have hloaded := step_load_cached maxBatch hcache
  rw [← after_snoc] at hloaded
  have hissued : (after maxBatch before).loads < (after maxBatch (before ++ [.load key])).loads := by
    rw [hloaded]
    exact Nat.lt_succ_self _
  have hnow : answersTo (after maxBatch before).loads (after maxBatch (before ++ [.load key])).answers =
      [.ok value] := by
    rw [hloaded, answersTo_append, hanswers]
    simp [answersTo]
  rw [← hnow]
  refine absent_after hissued ?_ later
  rw [hloaded]
  exact habsent

/-- What becomes of a ticket that waits: either its batch has not ended, or the end of the batch answered it. -/
theorem waits_or_answered (hissued : ticket < (after maxBatch events).loads)
    (hwaits : (after maxBatch events).state.Waits ticket key id)
    (hnone : answersTo ticket (after maxBatch events).answers = []) (later : List (Event κ ν)) :
    (∀ earlier event, earlier ++ [event] <+: later → ¬ (after maxBatch (events ++ earlier)).Ends id event) ∧
      (after maxBatch (events ++ later)).state.Waits ticket key id ∧
      answersTo ticket (after maxBatch (events ++ later)).answers = [] ∨
    ∃ earlier event batch answer, earlier ++ [event] <+: later ∧ (after maxBatch (events ++ earlier)).Ends id event ∧
      (after maxBatch (events ++ earlier)).state.Waits ticket key id ∧
      answersTo ticket (after maxBatch (events ++ earlier)).answers = [] ∧
      batch ∈ (after maxBatch (events ++ earlier)).state.dispatched ∧ batch.id = id ∧ key ∈ batch.keys ∧
      event.Answers batch key answer ∧ (after maxBatch (events ++ later)).state.Absent ticket ∧
      answersTo ticket (after maxBatch (events ++ later)).answers = [answer] := by
  rcases first_end_or_none (fun earlier => (after maxBatch (events ++ earlier)).Ends id) later with
    hopen | ⟨earlier, event, ⟨rest, rfl⟩, hends, hfirst⟩
  · obtain ⟨hwaits', hanswers⟩ := waits_after hissued hwaits later hopen
    exact .inl ⟨hopen, hwaits', hanswers.trans hnone⟩
  · obtain ⟨hwaits', hanswers⟩ := waits_after hissued hwaits earlier hfirst
    obtain ⟨batch, hbatch, hid, hkey, answer, hanswer, hgiven, habsent⟩ :=
      step_ends maxBatch (coherent_after maxBatch (events ++ earlier)) hends hwaits'
    rw [hanswers.trans hnone, List.nil_append, ← after_snoc] at hgiven
    rw [← after_snoc] at habsent
    have hissued' : ticket < (after maxBatch (events ++ earlier ++ [event])).loads := by
      rw [List.append_assoc]
      exact Nat.lt_of_lt_of_le hissued (loads_le_after maxBatch events _)
    obtain ⟨habsent', hkept⟩ := absent_after hissued' habsent rest
    rw [hgiven, List.append_assoc, List.append_assoc] at hkept
    rw [List.append_assoc, List.append_assoc] at habsent'
    refine .inr ⟨earlier, event, batch, answer, List.prefix_append _ _, hends, hwaits', hanswers.trans hnone, hbatch,
      hid, hkey, hanswer, ?_, ?_⟩
    · rwa [List.append_assoc]
    · rwa [List.append_assoc]

/-- A load that the cache does not answer is registered in exactly one place, for one batch, until that batch ends,
whatever happens meanwhile; the end of the batch answers it once, and nothing answers it again. A pending batch always
has its timer, so that nobody waits when no timer runs and no batch is under way. -/
theorem load_answered_once (maxBatch : Nat) (before : List (Event κ ν)) (key : κ) :
    let start := after maxBatch before
    let ticket := start.loads
    let now (later : List (Event κ ν)) := after maxBatch (before ++ [.load key] ++ later)
    (∀ batch ∈ start.state.pending, batch.id ∈ start.state.timers) ∧
    (start.state.timers = [] → start.state.dispatched = [] → ∀ place, start.state.ticketsAt place = []) ∧
    (∀ value, start.state.cache.lookup key = some value → ∀ later,
      (now later).state.Absent ticket ∧ answersTo ticket (now later).answers = [.ok value]) ∧
    (start.state.cache.lookup key = none → ∃ id, ∀ later,
      (∀ earlier event, earlier ++ [event] <+: later → ¬ (now earlier).Ends id event) ∧
        (now later).state.Waits ticket key id ∧ answersTo ticket (now later).answers = [] ∨
      ∃ earlier event batch answer, earlier ++ [event] <+: later ∧ (now earlier).Ends id event ∧
        (now earlier).state.Waits ticket key id ∧ answersTo ticket (now earlier).answers = [] ∧
        batch ∈ (now earlier).state.dispatched ∧ batch.id = id ∧ key ∈ batch.keys ∧ event.Answers batch key answer ∧
        (now later).state.Absent ticket ∧ answersTo ticket (now later).answers = [answer]) := by
  intro start ticket now
  have hcoherent : start.state.Coherent := coherent_after maxBatch before
  have harmed : start.state.Armed := armed_after maxBatch before
  refine ⟨harmed, ticketsAt_eq_nil hcoherent harmed, fun value hcache => cached_load_after hcache, fun hcache => ?_⟩
  obtain ⟨habsent, hanswers⟩ := fresh_after maxBatch before (Nat.le_refl ticket)
  have hloaded : after maxBatch (before ++ [.load key]) = start.step maxBatch (.load key) :=
    after_snoc maxBatch before _
  obtain ⟨id, hwaits⟩ := State.load_waits hcoherent hcache habsent maxBatch
  have hissued : ticket < (after maxBatch (before ++ [.load key])).loads := by
    rw [hloaded]
    exact Nat.lt_succ_self _
  refine ⟨id, waits_or_answered hissued ?_ ?_⟩
  · rw [hloaded]
    exact hwaits
  · rw [hloaded, step_load_waiting maxBatch hcache]
    exact hanswers

/-- A loader that loaded one key: it is idle, the key is answered at once, and another key waits for a batch whose
results are its answers. -/
theorem load_answered_once_idle :
    let served : List (Event Nat Nat) := [.load 1, .fire 0, .settle 0 [.ok 10]]
    let start := after 2 served
    (start.state.timers = [] ∧ start.state.dispatched = [] ∧ ∀ place, start.state.ticketsAt place = []) ∧
    (start.state.cache.lookup 1 = some 10 ∧
      ∀ later, answersTo 1 (after 2 (served ++ [.load 1] ++ later)).answers = [.ok 10]) ∧
    (start.state.cache.lookup 2 = none ∧
      ∃ answer,
        answersTo 1 (after 2 (served ++ [.load 2] ++ [.fire 1, .load 2, .settle 1 [.ok 20]])).answers = [answer] ∧
        answer = .ok 20) := by
  intro served start
  obtain ⟨-, hidle, hcached, -⟩ := load_answered_once 2 served 1
  obtain ⟨-, -, -, hwaiting⟩ := load_answered_once 2 served 2
  refine ⟨⟨rfl, rfl, hidle rfl rfl⟩, ⟨rfl, fun later => (hcached 10 rfl later).2⟩, rfl, ?_⟩
  obtain ⟨id, hlater⟩ := hwaiting rfl
  rcases hlater [.fire 1, .load 2, .settle 1 [.ok 20]] with
    ⟨-, -, hnone⟩ | ⟨_, _, _, answer, -, -, -, -, -, -, -, -, -, hone⟩
  · cases hnone
  · refine ⟨answer, hone, ?_⟩
    cases hone
    rfl

end History

end RelationalGraphQL.Loader
