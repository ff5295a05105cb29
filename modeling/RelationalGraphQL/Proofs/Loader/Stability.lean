import RelationalGraphQL.Proofs.Loader.SingleFlight
import RelationalGraphQL.Proofs.Table

/-!
# What loads of one key return over time

Two things set what is remembered for a key. A primed value is kept only if there was none, and what a batch loaded
replaces whatever there was (`History.step_lookup`). A key that is remembered joins no batch, so the two meet only
where a key is primed while a batch with it has not ended (`History.anticipated`): loads return the primed value until
the batch ends, and its value from then on (`primed_value_replaced`). This is the only way in which the values returned
for a key change, and it happens once at most (`returned_eq_or_replaced`).
-/

namespace RelationalGraphQL.Loader

variable {κ ν : Type}

/-- The key that an event asks for. -/
def Event.loadKey? : Event κ ν → Option κ
  | .load key => some key
  | _ => none

variable [DecidableEq κ]

/-- The value that an event primes a key with. -/
def Event.primed? (key : κ) : Event κ ν → Option ν
  | .prime other value => if other = key then some value else none
  | _ => none

/-- Whether an event clears a key. -/
def Event.Forgets (key : κ) : Event κ ν → Prop
  | .clear other => other = key
  | .clearAll => True
  | _ => False

/-! ### What is remembered for a key -/

theorem lookup_setCached (key other : κ) (value : ν) (cache : List (κ × ν)) :
    (setCached key value cache).lookup other = if other = key then some value else cache.lookup other := by
  rw [setCached, List.lookup_cons]
  by_cases heq : other = key
  · rw [if_pos heq, beq_iff_eq.2 heq]
  · rw [if_neg heq, beq_eq_false_iff_ne.2 heq]
    exact Table.lookup_filter_ne heq cache

theorem lookup_zip {α : Type} {keys : List κ} {outcomes : List α} (hlength : outcomes.length = keys.length) (key : κ) :
    (keys.zip outcomes).lookup key = outcomes[keys.idxOf key]? := by
  induction keys generalizing outcomes with
  | nil =>
    rw [List.length_eq_zero_iff.1 hlength]
    rfl
  | cons first keys ih =>
    cases outcomes with
    | nil => cases hlength
    | cons outcome outcomes =>
      rw [List.zip_cons_cons, List.lookup_cons]
      by_cases heq : key = first
      · rw [beq_iff_eq.2 heq, heq, List.idxOf_cons_self]
        rfl
      · rw [beq_eq_false_iff_ne.2 heq, List.idxOf_cons_ne _ (Ne.symm heq), List.getElem?_cons_succ]
        exact ih (Nat.succ.inj hlength)

theorem lookup_remember {outcomes : List (κ × Except LoadError ν)} (hnodup : (outcomes.map Prod.fst).Nodup) (key : κ)
    (cache : List (κ × ν)) :
    (outcomes.foldl
      (fun cache (key, outcome) => match outcome with
        | .ok value => setCached key value cache
        | .error _ => cache) cache).lookup key =
      ((outcomes.lookup key).bind Except.toOption).or (cache.lookup key) := by
  induction outcomes generalizing cache with
  | nil => rfl
  | cons first rest ih =>
    obtain ⟨other, outcome⟩ := first
    obtain ⟨hother, hnodup⟩ := List.nodup_cons.1 hnodup
    rw [List.foldl_cons, ih hnodup, List.lookup_cons]
    by_cases heq : key = other
    · -- no later result is for this key
      have hrest : rest.lookup key = none := by
        rw [← Option.not_isSome_iff_eq_none, lookup_isSome_iff_mem, heq]
        exact hother
      rw [hrest, beq_iff_eq.2 heq]
      cases outcome with
      | ok value =>
        dsimp only
        rw [lookup_setCached, if_pos heq]
        rfl
      | error error => rfl
    · rw [beq_eq_false_iff_ne.2 heq]
      cases outcome with
      | ok value =>
        dsimp only
        rw [lookup_setCached, if_neg heq]
      | error error => rfl

namespace History

variable {maxBatch : Nat} {history : History κ ν} {key : κ} {event : Event κ ν}

/-- The result of an ended batch for a key is the one that `loading` shows. -/
theorem loading_settle {id : Nat} {batch : Batch κ} (results : List (Except LoadError ν))
    (hfound : history.state.dispatched.find? (fun batch => batch.id = id) = some batch) :
    (history.loading key (.settle id results)).head? =
      ((batch.keys.zip (State.aligned batch.keys results)).lookup key).bind Except.toOption := by
  rw [lookup_zip (State.length_aligned _ _), loading]
  simp only [hfound]
  unfold State.aligned
  split
  · exact Option.head?_toList
  · cases hresult : (batch.keys.map fun _ => Except.error (LoadError.mismatch results.length batch.keys.length))[
        batch.keys.idxOf key]? with
    | none => rfl
    | some result =>
      obtain ⟨_, -, rfl⟩ := List.mem_map.1 (List.mem_of_getElem? hresult)
      rfl

/-- What is remembered for a key after an event that does not clear it. A loaded value replaces the old one, and a
primed one does not. -/
theorem step_lookup (maxBatch : Nat) (h : history.state.Coherent) (hforgets : ¬event.Forgets key) :
    (history.step maxBatch event).state.cache.lookup key =
      (history.loading key event).head?.or ((history.state.cache.lookup key).or (event.primed? key)) := by
  cases event with
  | load other =>
    change (history.state.load maxBatch other history.loads).2.cache.lookup key = _
    rw [(State.load_cases maxBatch other history.loads history.state).1]
    exact (Option.or_none).symm
  | fire id =>
    have hcache : (history.state.fire id).2.cache = history.state.cache := by
      unfold State.fire
      dsimp only
      split
      · split <;> rfl
      · rfl
    change (history.state.fire id).2.cache.lookup key = _
    rw [hcache]
    exact (Option.or_none).symm
  | settle id results =>
    cases hfound : history.state.dispatched.find? fun batch => batch.id = id with
    | none =>
      simp only [step, State.settle, loading, hfound]
      exact (Option.or_none).symm
    | some batch =>
      have hkeys : ((batch.keys.zip (State.aligned batch.keys results)).map Prod.fst).Nodup := by
        rw [List.map_fst_zip (Nat.le_of_eq (State.length_aligned _ _).symm)]
        exact h.nodup_keys (List.mem_append_left _ (List.mem_of_find?_eq_some hfound))
      rw [loading_settle results hfound]
      have hprimed : (history.state.cache.lookup key).or (Event.primed? key (.settle id results)) =
          history.state.cache.lookup key := Option.or_none
      rw [hprimed]
      simp only [step, State.settle, hfound]
      exact lookup_remember hkeys key history.state.cache
  | crash id =>
    have hcache : (history.state.crash id).2.cache = history.state.cache := by
      unfold State.crash
      split <;> rfl
    change (history.state.crash id).2.cache.lookup key = _
    rw [hcache]
    exact (Option.or_none).symm
  | prime other value =>
    change (history.state.prime other value).cache.lookup key =
      (history.state.cache.lookup key).or (if other = key then some value else none)
    unfold State.prime
    split
    · rename_i hsome
      by_cases heq : other = key
      · obtain ⟨old, hold⟩ := Option.isSome_iff_exists.1 hsome
        rw [← heq, hold, Option.some_or]
      · rw [if_neg heq, Option.or_none]
    · rename_i hnone
      rw [lookup_setCached]
      by_cases heq : other = key
      · rw [if_pos heq.symm, if_pos heq, ← heq, Option.not_isSome_iff_eq_none.1 hnone]
        rfl
      · rw [if_neg (Ne.symm heq), if_neg heq, Option.or_none]
  | clear other =>
    change (history.state.cache.filter fun entry => entry.1 ≠ other).lookup key = _
    rw [Table.lookup_filter_ne (Ne.symm hforgets)]
    exact (Option.or_none).symm
  | clearAll => exact absurd trivial hforgets

/-! ### What is returned for a key -/

/-- The keys that were asked for, by ticket. -/
def loadKeys (events : List (Event κ ν)) : List κ := events.filterMap Event.loadKey?

/-- The values among the answers to those tickets that ask for a key. -/
def valuesFor (key : κ) (keys : List κ) (answers : List (Nat × Except LoadError ν)) : List ν :=
  answers.filterMap fun (ticket, answer) => if keys[ticket]? = some key then answer.toOption else none

/-- What successful loads of a key returned, in the order in which they did. -/
def returned (maxBatch : Nat) (key : κ) (events : List (Event κ ν)) : List ν :=
  valuesFor key (loadKeys events) (after maxBatch events).answers

omit [DecidableEq κ] in
theorem loadKeys_snoc (events : List (Event κ ν)) (event : Event κ ν) :
    loadKeys (events ++ [event]) = loadKeys events ++ event.loadKey?.toList := by
  rw [loadKeys, List.filterMap_append]
  cases event <;> rfl

theorem length_loadKeys (maxBatch : Nat) (events : List (Event κ ν)) :
    (loadKeys events).length = (after maxBatch events).loads := by
  induction events using List.reverseRecOn with
  | nil => rfl
  | append_singleton events event ih =>
    rw [loadKeys_snoc, List.length_append, ih, after_snoc]
    cases event <;> rfl

variable {events : List (Event κ ν)} {ticket : Nat}

theorem loadKeys_snoc_of_lt (hissued : ticket < (after maxBatch events).loads) (event : Event κ ν) :
    (loadKeys (events ++ [event]))[ticket]? = (loadKeys events)[ticket]? := by
  rw [loadKeys_snoc, List.getElem?_append_left (length_loadKeys maxBatch events ▸ hissued)]

theorem load_of_not_issued (hkey : (loadKeys (events ++ [event]))[ticket]? = some key)
    (hissued : ¬ticket < (after maxBatch events).loads) :
    event = .load key ∧ ticket = (after maxBatch events).loads := by
  rw [loadKeys_snoc, List.getElem?_append_right (by rw [length_loadKeys maxBatch]; omega),
    length_loadKeys maxBatch] at hkey
  cases event with
  | load other =>
    obtain ⟨hindex, -⟩ := List.getElem?_eq_some_iff.1 hkey
    have hzero : ticket - (after maxBatch events).loads < 1 := hindex
    refine ⟨?_, by omega⟩
    obtain rfl : key = other := by simpa [Event.loadKey?] using List.mem_of_getElem? hkey
    rfl
  | fire | settle | crash | prime | clear | clearAll => cases hkey

/-- A load either waits for its key or is registered nowhere. -/
theorem absent_or_waits (maxBatch : Nat) (events : List (Event κ ν)) (hkey : (loadKeys events)[ticket]? = some key) :
    (after maxBatch events).state.Absent ticket ∨ ∃ id, (after maxBatch events).state.Waits ticket key id := by
  induction events using List.reverseRecOn with
  | nil => cases hkey
  | append_singleton events event ih =>
    rw [after_snoc]
    have h := coherent_after maxBatch events
    by_cases hissued : ticket < (after maxBatch events).loads
    · rw [loadKeys_snoc_of_lt hissued] at hkey
      rcases ih hkey with habsent | ⟨id, hwaits⟩
      · exact .inl (step_absent maxBatch h (fun _ _ => Nat.ne_of_lt hissued) habsent).1
      · by_cases hends : (after maxBatch events).Ends id event
        · obtain ⟨_, -, -, -, _, -, -, habsent⟩ := step_ends maxBatch h hends hwaits
          exact .inl habsent
        · exact .inr ⟨id, (step_waits maxBatch h hissued hends hwaits).1⟩
    · obtain ⟨rfl, rfl⟩ := load_of_not_issued hkey hissued
      obtain ⟨habsent, -⟩ := fresh_after maxBatch events (Nat.le_refl _)
      cases hcache : (after maxBatch events).state.cache.lookup key with
      | some value =>
        rw [step_load_cached maxBatch hcache]
        exact .inl habsent
      | none => exact .inr (State.load_waits h hcache habsent maxBatch)

theorem mem_answersTo {α : Type} {answer : α} {answers : List (Nat × α)} :
    answer ∈ answersTo ticket answers ↔ (ticket, answer) ∈ answers := by
  simp [answersTo]

theorem step_answers (maxBatch : Nat) (history : History κ ν) (event : Event κ ν) :
    ∃ new, (history.step maxBatch event).answers = history.answers ++ new := by
  by_cases hends : ∃ id, history.Ends id event
  · obtain ⟨id, hends⟩ := hends
    obtain ⟨_, -, -, _, _, -, hanswers, -⟩ := step_of_ends maxBatch hends
    exact ⟨_, hanswers⟩
  · rcases answers_of_not_ends maxBatch (not_exists.1 hends) with hanswers | ⟨_, _, -, hanswers⟩
    · exact ⟨[], by rw [hanswers, List.append_nil]⟩
    · exact ⟨_, hanswers⟩

/-- A value that the end of a batch answers with was loaded for the key. -/
theorem head?_loading_of_answers (h : history.state.Coherent) {id : Nat} {batch : Batch κ} {value : ν}
    (hends : history.Ends id event) (hbatch : batch ∈ history.state.dispatched) (hid : batch.id = id)
    (hanswer : event.Answers batch key (.ok value)) : (history.loading key event).head? = some value := by
  cases event with
  | settle other results =>
    obtain ⟨rfl, hmem⟩ := hends
    obtain ⟨found, hfound, hsame, hfind⟩ := exists_find?_of_mem_ids hmem
    obtain rfl := h.batch_of_id (List.mem_append_left _ hbatch) (List.mem_append_left _ hfound) (hid.trans hsame.symm)
    change if results.length = batch.keys.length then _ else _ at hanswer
    split at hanswer
    · rename_i hlength
      simp only [loading, hfind, if_pos hlength, hanswer]
      rfl
    · cases hanswer
  | crash => cases hanswer
  | load | fire | prime | clear | clearAll => cases hends

/-- What a load of a key returns is what is remembered for the key then. -/
theorem lookup_of_answer {new : List (Nat × Except LoadError ν)} {value : ν} (hforgets : ¬event.Forgets key)
    (hkey : (loadKeys (events ++ [event]))[ticket]? = some key)
    (hnew : (after maxBatch (events ++ [event])).answers = (after maxBatch events).answers ++ new)
    (hvalue : (ticket, .ok value) ∈ new) :
    (after maxBatch (events ++ [event])).state.cache.lookup key = some value := by
  have h := coherent_after maxBatch events
  have hanswers : answersTo ticket (after maxBatch (events ++ [event])).answers =
      answersTo ticket (after maxBatch events).answers ++ answersTo ticket new := by rw [hnew, answersTo_append]
  rw [← mem_answersTo] at hvalue
  rw [after_snoc] at hanswers ⊢
  have hunanswered : answersTo ticket ((after maxBatch events).step maxBatch event).answers ≠
      answersTo ticket (after maxBatch events).answers := by
    rw [hanswers]
    simpa using List.ne_nil_of_mem hvalue
  -- the event answers the ticket, so it ends the batch that the ticket waits for, or it is the load itself
  by_cases hissued : ticket < (after maxBatch events).loads
  · rw [loadKeys_snoc_of_lt hissued] at hkey
    rcases absent_or_waits maxBatch events hkey with habsent | ⟨id, hwaits⟩
    · exact absurd (step_absent maxBatch h (fun _ _ => Nat.ne_of_lt hissued) habsent).2 hunanswered
    · by_cases hends : (after maxBatch events).Ends id event
      · obtain ⟨batch, hbatch, hid, -, answer, hanswer, hgiven, -⟩ := step_ends maxBatch h hends hwaits
        rw [hanswers, List.append_cancel_left_eq] at hgiven
        rw [hgiven, List.mem_singleton] at hvalue
        have hloading := head?_loading_of_answers h hends hbatch hid (hvalue ▸ hanswer)
        rw [step_lookup maxBatch h hforgets, hloading, Option.some_or]
      · exact absurd (step_waits maxBatch h hissued hends hwaits).2 hunanswered
  · obtain ⟨rfl, rfl⟩ := load_of_not_issued hkey hissued
    cases hcache : (after maxBatch events).state.cache.lookup key with
    | none => exact absurd (by rw [step_load_waiting maxBatch hcache]) hunanswered
    | some cached =>
      rw [step_load_cached maxBatch hcache] at hanswers ⊢
      rw [answersTo_append, List.append_cancel_left_eq] at hanswers
      rw [← hanswers, mem_answersTo, List.mem_singleton] at hvalue
      cases hvalue
      exact hcache

theorem valuesFor_snoc (key : κ) (event : Event κ ν) :
    valuesFor key (loadKeys (events ++ [event])) (after maxBatch events).answers = returned maxBatch key events := by
  refine List.filterMap_congr ?_
  rintro ⟨ticket, answer⟩ hanswer
  have hissued : ticket < (after maxBatch events).loads := by
    by_contra hfresh
    have hnone := (fresh_after maxBatch events (Nat.le_of_not_lt hfresh)).2
    rw [← mem_answersTo, hnone] at hanswer
    cases hanswer
  simp only [loadKeys_snoc_of_lt hissued]

theorem returned_snoc (maxBatch : Nat) (events : List (Event κ ν)) (hforgets : ¬event.Forgets key) : ∃ new,
    returned maxBatch key (events ++ [event]) = returned maxBatch key events ++ new ∧
      ∀ value ∈ new, (after maxBatch (events ++ [event])).state.cache.lookup key = some value := by
  obtain ⟨new, hnew⟩ := step_answers maxBatch (after maxBatch events) event
  rw [← after_snoc] at hnew
  refine ⟨valuesFor key (loadKeys (events ++ [event])) new, ?_, ?_⟩
  · rw [returned, hnew, ← valuesFor_snoc key event]
    exact List.filterMap_append
  · intro value hvalue
    obtain ⟨⟨ticket, answer⟩, hanswer, hgives⟩ := List.mem_filterMap.1 hvalue
    obtain ⟨hkey, hok⟩ := (Option.ite_none_right_eq_some ..).1 hgives
    cases answer with
    | ok other =>
      cases hok
      exact lookup_of_answer hforgets hkey hnew hanswer
    | error => cases hok

/-! ### Stability -/

/-- The value of a key that is primed while a batch with the key has not ended, and kept. -/
def anticipating (key : κ) (history : History κ ν) (event : Event κ ν) : List ν :=
  if history.state.cache.lookup key = none ∧ ∃ batch ∈ history.state.batches, key ∈ batch.keys then
    (event.primed? key).toList
  else []

/-- All values that a key was primed with while a batch with it had not ended. -/
def anticipated (maxBatch : Nat) (key : κ) (events : List (Event κ ν)) : List ν :=
  observed maxBatch (anticipating key) {} events

theorem anticipating_of_lookup {value : ν} (hcached : history.state.cache.lookup key = some value)
    (event : Event κ ν) : history.anticipating key event = [] :=
  if_neg fun hnone => by simp [hcached] at hnone

theorem anticipating_length_le (key : κ) (history : History κ ν) (event : Event κ ν) :
    (history.anticipating key event).length ≤ 1 := by
  unfold anticipating
  split
  · exact Option.length_toList_le
  · exact Nat.zero_le _

/-- A key that is primed while it stands in no batch will not join one. -/
theorem step_kept_of_primed {value : ν} (hprimed : event.primed? key = some value)
    (hnone : history.state.cache.lookup key = none) (habsent : ∀ batch ∈ history.state.batches, key ∉ batch.keys) :
    (history.step maxBatch event).state.Kept key := by
  cases event with
  | prime other primed =>
    obtain ⟨rfl, -⟩ := (Option.ite_none_right_eq_some ..).1 hprimed
    simp only [step, State.prime, hnone]
    exact ⟨mem_keys_setCached.2 (.inl rfl), habsent⟩
  | load | fire | settle | crash | clear | clearAll => cases hprimed

/-- A later value is the same, or a loaded value replaced a primed one. -/
def SameOrReplaced (primed loaded : List ν) (value later : ν) : Prop := later = value ∨ value ∈ primed ∧ later ∈ loaded

section

variable {primed primed' loaded loaded' : List ν} {value middle later : ν}

theorem SameOrReplaced.mono (hsame : SameOrReplaced primed loaded value later) (hprimed : primed ⊆ primed')
    (hloaded : loaded ⊆ loaded') : SameOrReplaced primed' loaded' value later :=
  hsame.imp_right fun ⟨hvalue, hlater⟩ => ⟨hprimed hvalue, hloaded hlater⟩

theorem SameOrReplaced.trans (hfirst : SameOrReplaced primed loaded value middle)
    (hsecond : SameOrReplaced primed loaded middle later) : SameOrReplaced primed loaded value later := by
  rcases hfirst with rfl | ⟨hvalue, hmiddle⟩
  · exact hsecond
  · rcases hsecond with rfl | ⟨-, hlater⟩
    · exact .inr ⟨hvalue, hmiddle⟩
    · exact .inr ⟨hvalue, hlater⟩

end

/-- How far a key has come while nothing clears it, with the values that it was primed with early and that were loaded
for it. -/
inductive Stage (key : κ) (history : History κ ν) : List ν → List ν → Prop where
  | unknown (hnone : history.state.cache.lookup key = none) : Stage key history [] []
  | anticipated {value : ν} (hvalue : history.state.cache.lookup key = some value) : Stage key history [value] []
  /-- It will not join a batch any more. -/
  | kept {primed loaded : List ν} (hkept : history.state.Kept key) (hprimed : primed.length ≤ 1)
      (hloaded : loaded.length ≤ 1) : Stage key history primed loaded

section

variable {primed loaded : List ν}

theorem Stage.length_le (hstage : Stage key history primed loaded) : primed.length ≤ 1 ∧ loaded.length ≤ 1 := by
  cases hstage with
  | unknown => exact ⟨Nat.zero_le _, Nat.zero_le _⟩
  | anticipated => exact ⟨Nat.le_refl _, Nat.zero_le _⟩
  | kept _ hprimed hloaded => exact ⟨hprimed, hloaded⟩

/-- What is remembered for a key is only replaced where it was primed early. -/
theorem Stage.step_value (hstage : Stage key history primed loaded) (maxBatch : Nat) (h : history.state.Coherent)
    (hforgets : ¬event.Forgets key) {value : ν} (hvalue : history.state.cache.lookup key = some value) :
    ∃ later, (history.step maxBatch event).state.cache.lookup key = some later ∧
      SameOrReplaced primed (loaded ++ history.loading key event) value later := by
  rw [step_lookup maxBatch h hforgets, hvalue, Option.some_or]
  cases hloading : history.loading key event with
  | nil => exact ⟨value, rfl, .inl rfl⟩
  | cons later rest =>
    refine ⟨later, rfl, .inr ?_⟩
    cases hstage with
    | unknown hnone => simp [hvalue] at hnone
    | anticipated hprimed =>
      obtain rfl := Option.some.inj (hvalue.symm.trans hprimed)
      exact ⟨List.mem_singleton_self _, List.mem_cons_self⟩
    | kept hkept => simp [loading_of_kept hkept] at hloading

theorem Stage.step (hstage : Stage key history primed loaded) (h : history.state.Coherent)
    (hforgets : ¬event.Forgets key) :
    Stage key (history.step maxBatch event) (primed ++ history.anticipating key event)
      (loaded ++ history.loading key event) := by
  by_cases hloads : ∃ value, value ∈ history.loading key event
  · obtain ⟨value, hvalue⟩ := hloads
    -- the batch with the key has ended, and there can be no other
    have hkept : (history.step maxBatch event).state.Kept key := step_kept_of_mem_loading h hvalue
    cases hstage with
    | unknown => exact .kept hkept (anticipating_length_le key history event) (loading_length_le key history event)
    | anticipated hprimed =>
      rw [anticipating_of_lookup hprimed]
      exact .kept hkept (Nat.le_refl _) (loading_length_le key history event)
    | kept hkept' => simp [loading_of_kept hkept'] at hvalue
  · have hnothing : history.loading key event = [] :=
      List.eq_nil_iff_forall_not_mem.2 fun value hvalue => hloads ⟨value, hvalue⟩
    have hlookup := step_lookup maxBatch h hforgets
    rw [hnothing, List.head?_nil, Option.none_or] at hlookup
    rw [hnothing, List.append_nil]
    cases hstage with
    | unknown hnone =>
      rw [hnone, Option.none_or] at hlookup
      -- only a batch that has the key already can replace the value that it is primed with
      by_cases hbatch : ∃ batch ∈ history.state.batches, key ∈ batch.keys
      · have hanticipating : history.anticipating key event = (event.primed? key).toList := if_pos ⟨hnone, hbatch⟩
        rw [hanticipating, List.nil_append]
        cases hprimed : event.primed? key with
        | none => exact .unknown (hlookup.trans hprimed)
        | some value => exact .anticipated (hlookup.trans hprimed)
      · have hanticipating : history.anticipating key event = [] := if_neg fun hearly => hbatch hearly.2
        rw [hanticipating, List.nil_append]
        cases hprimed : event.primed? key with
        | none => exact .unknown (hlookup.trans hprimed)
        | some value =>
          have habsent : ∀ batch ∈ history.state.batches, key ∉ batch.keys :=
            fun batch hmem hkey => hbatch ⟨batch, hmem, hkey⟩
          exact .kept (step_kept_of_primed hprimed hnone habsent) (Nat.zero_le _) (Nat.zero_le _)
    | anticipated hprimed =>
      rw [hprimed, Option.some_or] at hlookup
      rw [anticipating_of_lookup hprimed]
      exact .anticipated hlookup
    | kept hkept hprimed hloaded =>
      obtain ⟨value, hvalue⟩ := Option.isSome_iff_exists.1 (lookup_isSome_iff_mem.2 hkept.cached)
      rw [hvalue, Option.some_or] at hlookup
      rw [anticipating_of_lookup hvalue, List.append_nil]
      refine .kept ⟨lookup_isSome_iff_mem.1 ?_, step_absent_key h hkept event⟩ hprimed hloaded
      rw [hlookup]
      rfl

end

/-- A run that does not clear a key, with what was returned for it: each value is followed by later ones and by the one
that is remembered now. -/
structure Stable (key : κ) (history : History κ ν) (returned primed loaded : List ν) : Prop where
  stage : Stage key history primed loaded
  pairwise : returned.Pairwise (SameOrReplaced primed loaded)
  current : ∀ value ∈ returned, ∃ later, history.state.cache.lookup key = some later ∧
    SameOrReplaced primed loaded value later

theorem Stable.step {returned new primed loaded : List ν} (hstable : Stable key history returned primed loaded)
    (h : history.state.Coherent) (hforgets : ¬event.Forgets key)
    (hnew : ∀ value ∈ new, (history.step maxBatch event).state.cache.lookup key = some value) :
    Stable key (history.step maxBatch event) (returned ++ new) (primed ++ history.anticipating key event)
      (loaded ++ history.loading key event) := by
  have hprimed : primed ⊆ primed ++ history.anticipating key event := List.subset_append_left _ _
  have hloaded : loaded ⊆ loaded ++ history.loading key event := List.subset_append_left _ _
  have hcurrent : ∀ value ∈ returned, ∃ later, (history.step maxBatch event).state.cache.lookup key = some later ∧
      SameOrReplaced (primed ++ history.anticipating key event) (loaded ++ history.loading key event) value later := by
    intro value hvalue
    obtain ⟨middle, hmiddle, hbefore⟩ := hstable.current value hvalue
    obtain ⟨later, hlater, hafter⟩ := hstable.stage.step_value maxBatch h hforgets hmiddle
    exact ⟨later, hlater, (hbefore.mono hprimed hloaded).trans (hafter.mono hprimed (List.Subset.refl _))⟩
  refine ⟨hstable.stage.step h hforgets, List.pairwise_append.2 ⟨?_, ?_, ?_⟩, List.forall_mem_append.2 ⟨hcurrent, ?_⟩⟩
  · exact hstable.pairwise.imp fun hsame => hsame.mono hprimed hloaded
  · refine List.pairwise_of_forall_mem_list fun value hvalue later hlater => ?_
    exact .inl (Option.some.inj ((hnew later hlater).symm.trans (hnew value hvalue)))
  · intro value hvalue later hlater
    obtain ⟨last, hlast, hsame⟩ := hcurrent value hvalue
    obtain rfl := Option.some.inj (hlast.symm.trans (hnew later hlater))
    exact hsame
  · exact fun value hvalue => ⟨value, hnew value hvalue, .inl rfl⟩

theorem stable_after (maxBatch : Nat) (key : κ) (events : List (Event κ ν))
    (hforgets : ∀ event ∈ events, ¬event.Forgets key) :
    Stable key (after maxBatch events) (returned maxBatch key events) (anticipated maxBatch key events)
      (loaded maxBatch key events) := by
  induction events using List.reverseRecOn with
  | nil => exact ⟨.unknown rfl, .nil, nofun⟩
  | append_singleton events event ih =>
    rw [List.forall_mem_append, List.forall_mem_singleton] at hforgets
    obtain ⟨new, hreturned, hnew⟩ := returned_snoc maxBatch events hforgets.2
    rw [after_snoc] at hnew
    have hstep := (ih hforgets.1).step (coherent_after maxBatch events) hforgets.2 hnew
    rw [hreturned, after_snoc, anticipated, observed_snoc, loaded, observed_snoc]
    exact hstep

/-- While a key is not cleared, a load of it that returns a value after another one did returns the same value, with
one exception: the first value was primed while a batch with the key had not ended, and the later one is what the batch
function returned. A key has at most one such primed value, and the batch function is successful for it once at
most. -/
theorem returned_eq_or_replaced (maxBatch : Nat) (key : κ) (events : List (Event κ ν))
    (hforgets : ∀ event ∈ events, ¬event.Forgets key) :
    (returned maxBatch key events).Pairwise (fun value later =>
      later = value ∨ value ∈ anticipated maxBatch key events ∧ later ∈ loaded maxBatch key events) ∧
    (anticipated maxBatch key events).length ≤ 1 ∧ (loaded maxBatch key events).length ≤ 1 := by
  have hstable := stable_after maxBatch key events hforgets
  exact ⟨hstable.pairwise, hstable.stage.length_le⟩

/-- A key that is primed, and asked for again, while its batch waits for the timer. -/
def primedWhilePending : List (Event Nat String) :=
  [.load 1, .prime 1 "primed", .load 1, .prime 1 "late", .fire 0, .clear 2, .settle 0 [.ok "loaded"], .load 1]

theorem returned_eq_or_replaced_primedWhilePending :
    (∀ event ∈ primedWhilePending, ¬event.Forgets 1) ∧
      returned 10 1 primedWhilePending = ["primed", "loaded", "loaded"] ∧
      (returned 10 1 primedWhilePending).Pairwise (fun value later =>
        later = value ∨ value ∈ anticipated 10 1 primedWhilePending ∧ later ∈ loaded 10 1 primedWhilePending) ∧
      anticipated 10 1 primedWhilePending = ["primed"] ∧ loaded 10 1 primedWhilePending = ["loaded"] := by
  have hforgets : ∀ event ∈ primedWhilePending, ¬event.Forgets 1 := by
    simp [primedWhilePending, Event.Forgets]
  exact ⟨hforgets, rfl, (returned_eq_or_replaced 10 1 primedWhilePending hforgets).1, rfl, rfl⟩

/-- A value that was returned can change: the key is primed while its batch is under way, and what the batch loads
replaces it. -/
theorem primed_value_replaced :
    ¬∀ (maxBatch key : Nat) (events : List (Event Nat String)),
      (∀ event ∈ events, event ≠ .clearAll ∧ ∀ other, event ≠ .clear other) →
        (returned maxBatch key events).Pairwise (· = ·) := by
  intro hstable
  have hpairwise := hstable 10 1
    [.load 1, .prime 1 "primed", .load 1, .fire 0, .settle 0 [.ok "loaded"], .load 1] (by simp)
  exact absurd hpairwise (by decide)

end History

end RelationalGraphQL.Loader
