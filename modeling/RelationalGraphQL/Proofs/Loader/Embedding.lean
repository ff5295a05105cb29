import RelationalGraphQL.Proofs.Loader.Turns

/-!
# A timeline within another

Loaders that were used before go on with what they had begun: their timers fire and their batches end while others
wait. A timeline of its own is found again within one that has such loaders, with the clock, the owners, the places of
loaders and the tickets counted from elsewhere (`Embeds`). Every step of the outer timeline is a step of the inner one,
or a step of other loaders which the inner one does not see. So a wait ends in the outer timeline as it does in the
inner one (`Embeds.waits`), though it takes more turns there.
-/

namespace RelationalGraphQL.Loader

/-- From where an inner timeline counts in an outer one. -/
structure Offset where
  time : Nat
  owners : Nat
  loaders : Nat
  tickets : Nat

def Offset.owns (offset : Offset) (job : Job) : Bool := offset.loaders ≤ job.loader

def Instance.raise (offset : Offset) (user : Instance) : Instance :=
  { user with owner := user.owner + offset.owners, state := user.state.rename (· + offset.tickets) }

namespace Timeline

def Strand.raise (offset : Offset) : Strand → Strand
  | .idle start loader key => .idle (start + offset.time) (loader + offset.loaders) key
  | .waiting ticket => .waiting (ticket + offset.tickets)
  | .done outcome time => .done outcome (time + offset.time)

/-- A sleeping job of the inner timeline as the outer one has it. -/
def raiseEntry (offset : Offset) (entry : Nat × Job) : Nat × Job :=
  (entry.1 + offset.time, entry.2.raise offset.loaders)

/-- Loaders of an inner timeline as the outer one has them, after others with owners and tickets of their own. -/
def Placed (offset : Offset) (inner outer : List Instance) : Prop :=
  ∃ others : List Instance, others.length = offset.loaders ∧ Owned offset.owners offset.tickets others ∧
    outer = others ++ inner.map (Instance.raise offset)

/-- An inner timeline within an outer one, whose other loaders have owners and tickets of their own. -/
structure Embeds (offset : Offset) (inner outer : Timeline) : Prop where
  now : outer.now = inner.now + offset.time
  definitions : outer.definitions = inner.definitions
  instances : Placed offset inner.instances outer.instances
  ready : outer.ready.filter offset.owns = inner.ready.map (Job.raise offset.loaders)
  sleeping : outer.sleeping.filter (fun entry => offset.owns entry.2) = inner.sleeping.map (raiseEntry offset)
  nextTicket : outer.nextTicket = inner.nextTicket + offset.tickets
  answers : ∀ ticket, outer.answers.lookup (ticket + offset.tickets) = inner.answers.lookup ticket

variable {offset : Offset} {inner outer : Timeline} {definitions : List Definition} {owners : Nat}

theorem owns_raise (offset : Offset) (job : Job) : offset.owns (job.raise offset.loaders) = true := by
  rw [Offset.owns, Job.loader_raise]
  exact decide_eq_true (Nat.le_add_left _ _)

theorem lookup_renameAnswers {α : Type} (tickets ticket : Nat) (answers : List (Nat × α)) :
    (renameAnswers (· + tickets) answers).lookup (ticket + tickets) = answers.lookup ticket := by
  induction answers with
  | nil => rfl
  | cons answer rest ih =>
    have hbeq : (ticket + tickets == answer.1 + tickets) = (ticket == answer.1) := by
      rw [Bool.eq_iff_iff, beq_iff_eq, beq_iff_eq]
      omega
    change ((answer.1 + tickets, answer.2) :: renameAnswers (· + tickets) rest).lookup (ticket + tickets) = _
    rw [List.lookup_cons, List.lookup_cons, ih, hbeq]

/-- Answers to other tickets are not found. -/
theorem lookup_append_of_lt {α : Type} {tickets : Nat} {others : List (Nat × α)}
    (hothers : ∀ answer ∈ others, answer.1 < tickets) (answers : List (Nat × α)) (ticket : Nat) :
    (answers ++ others).lookup (ticket + tickets) = answers.lookup (ticket + tickets) := by
  have hnone : others.lookup (ticket + tickets) = none := by
    rw [List.lookup_eq_none_iff]
    intro answer hanswer
    have hlt := hothers answer hanswer
    rw [bne_iff_ne]
    omega
  rw [List.lookup_append, hnone, Option.or_none]

theorem filter_insertSleeping_of_not {keeps : Nat × Job → Bool} {due : Nat} {job : Job}
    (hnot : keeps (due, job) = false) (entries : List (Nat × Job)) :
    (insertSleeping due job entries).filter keeps = entries.filter keeps := by
  induction entries with
  | nil => simp [insertSleeping, hnot]
  | cons entry rest ih =>
    obtain ⟨time, other⟩ := entry
    rw [insertSleeping]
    split
    · rw [List.filter_cons, List.filter_cons, ih]
    · rw [List.filter_cons_of_neg (by simp [hnot])]

namespace Placed

variable {inner outer : List Instance} {loader : Nat} {user : Instance} (hplaced : Placed offset inner outer)

include hplaced

theorem length_eq : outer.length = inner.length + offset.loaders := by
  obtain ⟨others, hlength, -, rfl⟩ := hplaced
  rw [List.length_append, List.length_map, hlength, Nat.add_comm]

theorem getElem?_eq (loader : Nat) : outer[loader + offset.loaders]? = inner[loader]?.map (Instance.raise offset) := by
  obtain ⟨others, hlength, -, rfl⟩ := hplaced
  rw [← hlength, List.getElem?_append_right (Nat.le_add_left _ _), Nat.add_sub_cancel, List.getElem?_map]

theorem set (loader : Nat) (user : Instance) :
    Placed offset (inner.set loader user) (outer.set (loader + offset.loaders) (user.raise offset)) := by
  obtain ⟨others, hlength, howned, rfl⟩ := hplaced
  refine ⟨others, hlength, howned, ?_⟩
  rw [← hlength, List.set_append_right _ _ (Nat.le_add_left _ _), Nat.add_sub_cancel, List.map_set]

theorem append (user : Instance) : Placed offset (inner ++ [user]) (outer ++ [user.raise offset]) := by
  obtain ⟨others, hlength, howned, rfl⟩ := hplaced
  refine ⟨others, hlength, howned, ?_⟩
  rw [List.map_append, List.append_assoc]
  rfl

theorem ticketsBelow_other (hother : loader < offset.loaders)
    (huser : outer[loader]? = some user) : user.state.TicketsBelow offset.tickets := by
  obtain ⟨others, hlength, howned, rfl⟩ := hplaced
  rw [List.getElem?_append_left (by omega)] at huser
  exact (howned user (List.mem_of_getElem? huser)).2

theorem set_other (hother : loader < offset.loaders)
    (huser : outer[loader]? = some user) {state : State String Json} (hstate : state.TicketsBelow offset.tickets) :
    Placed offset inner (outer.set loader { user with state }) := by
  obtain ⟨others, hlength, howned, rfl⟩ := hplaced
  rw [List.getElem?_append_left (by omega)] at huser
  refine ⟨others.set loader { user with state }, by rw [List.length_set, hlength], howned.set huser hstate, ?_⟩
  rw [List.set_append_left _ _ (by omega)]

/-- An owner of the inner timeline has no loaders among the others. -/
theorem findIdx?_eq (owner : Nat) (named : Nat → Bool) :
    (outer.findIdx? fun user => decide (user.owner = owner + offset.owners) && named user.definition) =
      (inner.findIdx? fun user => decide (user.owner = owner) && named user.definition).map (· + offset.loaders) := by
  obtain ⟨others, hlength, howned, rfl⟩ := hplaced
  have hnone :
      (others.findIdx? fun user => decide (user.owner = owner + offset.owners) && named user.definition) = none := by
    rw [List.findIdx?_eq_none_iff]
    intro user huser
    have hlt := (howned user huser).1
    rw [decide_eq_false (by omega), Bool.false_and]
  rw [List.findIdx?_append, hnone, Option.none_or, List.findIdx?_map, hlength]
  simp [Instance.raise, Function.comp_def]

end Placed

namespace Embeds

variable (hembeds : Embeds offset inner outer)

include hembeds

/-- Where the calls were counted does not matter. -/
theorem withCalls (calls calls' : List (List Call)) :
    Embeds offset { inner with calls } { outer with calls := calls' } where
  now := hembeds.now
  definitions := hembeds.definitions
  instances := hembeds.instances
  ready := hembeds.ready
  sleeping := hembeds.sleeping
  nextTicket := hembeds.nextTicket
  answers := hembeds.answers

/-- The jobs of the inner timeline that are due at certain times. -/
theorem filter_due (due : Nat → Bool) :
    (outer.sleeping.filter fun entry => due entry.1).filter (fun entry => offset.owns entry.2) =
      (inner.sleeping.filter fun entry => due (entry.1 + offset.time)).map (raiseEntry offset) := by
  rw [List.filter_filter]
  simp only [Bool.and_comm]
  rw [← List.filter_filter, hembeds.sleeping, List.filter_map]
  rfl

theorem inOrder (horder : InOrder outer.sleeping) : InOrder inner.sleeping := by
  have hraised : InOrder (inner.sleeping.map (raiseEntry offset)) := hembeds.sleeping ▸ horder.filter _
  exact (List.pairwise_map.1 hraised).imp Nat.le_of_add_le_add_right

theorem insertSleeping (horder : InOrder outer.sleeping) (due : Nat) (job : Job) :
    (Timeline.insertSleeping (due + offset.time) (job.raise offset.loaders) outer.sleeping).filter
        (fun entry => offset.owns entry.2) =
      (Timeline.insertSleeping due job inner.sleeping).map (raiseEntry offset) := by
  have hbefore := hembeds.filter_due fun time => time ≤ due + offset.time
  have hafter := hembeds.filter_due fun time => due + offset.time < time
  simp only [Nat.add_le_add_iff_right, Nat.add_lt_add_iff_right] at hbefore hafter
  rw [horder.insertSleeping_eq, (hembeds.inOrder horder).insertSleeping_eq, List.filter_append,
    List.filter_cons_of_pos (by exact owns_raise offset job), hbefore, hafter, List.map_append]
  rfl

/-- The effect of a job of the inner timeline is the same in the outer one. -/
theorem absorb (horder : InOrder outer.sleeping) (loader : Nat) (user : Instance) (effect : Effect) :
    Embeds offset (inner.absorb loader user effect)
      (outer.absorb (loader + offset.loaders) (user.raise offset)
        (effect.raise (· + offset.tickets) offset.loaders)) where
  now := hembeds.now
  definitions := hembeds.definitions
  instances := hembeds.instances.set loader { user with state := effect.state }
  ready := hembeds.ready
  sleeping := by
    dsimp only [Timeline.absorb, Effect.raise]
    cases effect.later with
    | none => exact hembeds.sleeping
    | some left =>
      have hinsert := hembeds.insertSleeping horder (inner.now + left.1) left.2
      rwa [Nat.add_right_comm, ← hembeds.now] at hinsert
  nextTicket := hembeds.nextTicket
  answers ticket := by
    dsimp only [Timeline.absorb, Effect.raise]
    rw [List.lookup_append, List.lookup_append, hembeds.answers, lookup_renameAnswers]

theorem run_raise (hsound : outer.Sound definitions owners)
    (hsteady : ∀ definition ∈ definitions, definition.Steady) (job : Job) :
    Embeds offset (inner.run job) (outer.run (job.raise offset.loaders)) := by
  have hfound := hembeds.instances.getElem?_eq job.loader
  rw [← Job.loader_raise] at hfound
  cases huser : inner.instances[job.loader]? with
  | none =>
    rw [huser] at hfound
    rwa [run_eq_self huser, run_eq_self hfound]
  | some user =>
    rw [huser] at hfound
    obtain ⟨count, calls, hinner⟩ := run_eq huser
    obtain ⟨count', calls', houter⟩ := run_eq hfound
    have hknown : ∀ known ∈ inner.definitions[user.definition]?, known.Steady := by
      intro known hmem
      rw [← hembeds.definitions, hsound.definitions] at hmem
      exact hsteady known (List.mem_of_getElem? hmem)
    have heffect : Effect.ofJob outer.definitions[(user.raise offset).definition]? count' (user.raise offset).state
        (job.raise offset.loaders) =
          (Effect.ofJob inner.definitions[user.definition]? count user.state job).raise (· + offset.tickets)
            offset.loaders := by
      rw [Effect.ofJob_steady count user.state hknown count', ← Effect.ofJob_raise, hembeds.definitions]
      rfl
    rw [hinner, houter, heffect, Job.loader_raise]
    exact (hembeds.absorb hsound.inOrder job.loader user _).withCalls calls calls'

theorem absorb_other {loader : Nat} (hother : loader < offset.loaders)
    {user : Instance} (huser : outer.instances[loader]? = some user) {effect : Effect}
    (hstate : effect.state.TicketsBelow offset.tickets)
    (hanswers : ∀ answer ∈ effect.answers, answer.1 < offset.tickets)
    (hlater : ∀ left ∈ effect.later, left.2.loader = loader) :
    Embeds offset inner (outer.absorb loader user effect) := by
  constructor
  · exact hembeds.now
  · exact hembeds.definitions
  · exact hembeds.instances.set_other hother huser hstate
  · exact hembeds.ready
  · dsimp only [Timeline.absorb]
    cases hleft : effect.later with
    | none => exact hembeds.sleeping
    | some left =>
      have hloader := hlater left hleft
      dsimp only [Option.elim]
      rw [filter_insertSleeping_of_not, hembeds.sleeping]
      exact decide_eq_false (by dsimp only; omega)
  · exact hembeds.nextTicket
  · intro ticket
    dsimp only [Timeline.absorb]
    rw [lookup_append_of_lt hanswers, hembeds.answers]

/-- A job of another loader does nothing in the inner timeline. -/
theorem run_other {job : Job} (hother : job.loader < offset.loaders) : Embeds offset inner (outer.run job) := by
  cases huser : outer.instances[job.loader]? with
  | none => rwa [run_eq_self huser]
  | some user =>
    obtain ⟨count, calls, hrun⟩ := run_eq huser
    obtain ⟨hstate, hanswers⟩ := Effect.ofJob_ticketsBelow (hembeds.instances.ticketsBelow_other hother huser)
      outer.definitions[user.definition]? count job
    have hlater := hembeds.absorb_other hother huser hstate hanswers fun left hleft => (Effect.ofJob_later hleft).2.1
    rw [hrun]
    exact hlater.withCalls inner.calls calls

/-- What can run now runs in both, and what others run is not seen. -/
theorem runReady (hsound : outer.Sound definitions owners)
    (hsteady : ∀ definition ∈ definitions, definition.Steady) : Embeds offset inner.runReady outer.runReady := by
  -- the jobs of the outer timeline, one by one; those that are also in the inner one are run there too
  have hfold (jobs : List Job) : ∀ {inner outer : Timeline} {own : List Job}, Embeds offset inner outer →
      outer.Sound definitions owners → jobs.filter offset.owns = own.map (Job.raise offset.loaders) →
      Embeds offset (own.foldl Timeline.run inner) (jobs.foldl Timeline.run outer) := by
    induction jobs with
    | nil =>
      intro inner outer own hembeds hsound hown
      obtain rfl := List.map_eq_nil_iff.1 hown.symm
      exact hembeds
    | cons job jobs ih =>
      intro inner outer own hembeds hsound hown
      by_cases howns : offset.owns job
      · rw [List.filter_cons_of_pos howns, eq_comm, List.map_eq_cons_iff] at hown
        obtain ⟨first, rest, rfl, rfl, hrest⟩ := hown
        exact @ih (inner.run first) _ rest (hembeds.run_raise hsound hsteady first) (hsound.run _) hrest.symm
      · rw [List.filter_cons_of_neg howns] at hown
        have hother : job.loader < offset.loaders := Nat.lt_of_not_le fun hle => howns (decide_eq_true hle)
        exact ih (hembeds.run_other hother) (hsound.run job) hown
  exact hfold outer.ready { hembeds with ready := rfl } { hsound with ready := nofun } hembeds.ready

theorem moveTo (hsound : outer.Sound definitions owners) (time : Nat) :
    Embeds offset (inner.moveTo time) (outer.moveTo (time + offset.time)) := by
  have hdue := hembeds.filter_due fun due => due ≤ time + offset.time
  have hlater := hembeds.filter_due fun due => time + offset.time < due
  simp only [Nat.add_le_add_iff_right, Nat.add_lt_add_iff_right] at hdue hlater
  have horder := hembeds.inOrder hsound.inOrder
  constructor
  · rfl
  · exact hembeds.definitions
  · exact hembeds.instances
  · dsimp only [Timeline.moveTo]
    rw [hsound.inOrder.takeWhile_eq, horder.takeWhile_eq, List.filter_append, List.map_append, hembeds.ready,
      List.filter_map, show (offset.owns ∘ Prod.snd : Nat × Job → Bool) = fun entry => offset.owns entry.2 from rfl,
      hdue, List.map_map, List.map_map]
    rfl
  · dsimp only [Timeline.moveTo]
    rw [hsound.inOrder.dropWhile_eq, horder.dropWhile_eq, hlater]
  · exact hembeds.nextTicket
  · exact hembeds.answers

theorem load_raise (user : Instance) (key : String) :
    (user.raise offset).state.load (outer.maxBatchOf (user.raise offset)) key outer.nextTicket =
      ((user.state.load (inner.maxBatchOf user) key inner.nextTicket).1,
        (user.state.load (inner.maxBatchOf user) key inner.nextTicket).2.rename (· + offset.tickets)) := by
  have hmaxBatch : outer.maxBatchOf (user.raise offset) = inner.maxBatchOf user := by
    rw [maxBatchOf, maxBatchOf, hembeds.definitions]
    rfl
  rw [hmaxBatch, hembeds.nextTicket]
  exact State.load_rename (· + offset.tickets) user.state (inner.maxBatchOf user) key inner.nextTicket

theorem request (loader : Nat) (key : String) :
    (outer.request (loader + offset.loaders) key).1 = (inner.request loader key).1.raise offset ∧
      Embeds offset (inner.request loader key).2 (outer.request (loader + offset.loaders) key).2 := by
  have hfound := hembeds.instances.getElem?_eq loader
  have hrequested := requested loader key inner
  generalize inner.request loader key = result at hrequested ⊢
  cases hrequested with
  | missing hnone =>
    rw [hnone] at hfound
    rw [(Requested.missing hfound).eq, hembeds.now]
    exact ⟨rfl, hembeds⟩
  | @cached user value huser hload =>
    rw [huser] at hfound
    have houter := hembeds.load_raise user key
    rw [hload] at houter
    rw [(Requested.cached hfound houter).eq, hembeds.now]
    exact ⟨rfl, hembeds⟩
  | @waiting user demand state huser hload =>
    rw [huser] at hfound
    have houter := hembeds.load_raise user key
    rw [hload] at houter
    rw [(Requested.waiting hfound houter).eq, hembeds.nextTicket]
    refine ⟨rfl, ?_⟩
    constructor
    · exact hembeds.now
    · exact hembeds.definitions
    · exact hembeds.instances.set loader { user with state }
    · dsimp only
      rw [List.filter_append, List.map_append, hembeds.ready, Demand.jobs_raise, List.filter_eq_self.2]
      intro job hjob
      obtain ⟨job, -, rfl⟩ := List.mem_map.1 hjob
      exact owns_raise offset job
    · exact hembeds.sleeping
    · exact Nat.add_right_comm _ _ _
    · exact hembeds.answers

theorem poll (strand : Strand) :
    (outer.poll (strand.raise offset)).1 = (inner.poll strand).1.raise offset ∧
      Embeds offset (inner.poll strand).2 (outer.poll (strand.raise offset)).2 := by
  cases strand with
  | idle start loader key =>
    have hstart : start + offset.time ≤ outer.now ↔ start ≤ inner.now := by
      rw [hembeds.now]
      omega
    rw [Strand.raise, Timeline.poll, Timeline.poll]
    by_cases hnow : start ≤ inner.now
    · rw [if_pos (hstart.2 hnow), if_pos hnow]
      exact hembeds.request loader key
    · rw [if_neg (hstart.not.2 hnow), if_neg hnow]
      exact ⟨rfl, hembeds⟩
  | waiting ticket =>
    rw [Strand.raise, Timeline.poll, Timeline.poll, hembeds.answers]
    cases inner.answers.lookup ticket with
    | some outcome => exact ⟨congrArg (Strand.done outcome) hembeds.now, hembeds⟩
    | none => exact ⟨rfl, hembeds⟩
  | done outcome time => exact ⟨rfl, hembeds⟩

theorem pollAll (strands : List Strand) :
    (Timeline.pollAll (strands.map (Strand.raise offset)) outer).1 =
        (Timeline.pollAll strands inner).1.map (Strand.raise offset) ∧
      Embeds offset (Timeline.pollAll strands inner).2
        (Timeline.pollAll (strands.map (Strand.raise offset)) outer).2 := by
  induction strands generalizing inner outer with
  | nil => exact ⟨rfl, hembeds⟩
  | cons strand rest ih =>
    obtain ⟨hfirst, hembeds⟩ := hembeds.poll strand
    obtain ⟨hrest, hembeds⟩ := ih hembeds
    exact ⟨congrArg₂ List.cons hfirst hrest, hembeds⟩

theorem instance? (owner : Nat) (name : String) :
    (outer.instance? (owner + offset.owners) name).1 = (inner.instance? owner name).1.map (· + offset.loaders) ∧
      Embeds offset (inner.instance? owner name).2 (outer.instance? (owner + offset.owners) name).2 := by
  rw [Timeline.instance?, Timeline.instance?, hembeds.definitions]
  dsimp only
  rw [hembeds.instances.findIdx?_eq owner fun place => (inner.definitions[place]?.map Definition.name) = some name]
  cases inner.instances.findIdx? _ with
  | some loader => exact ⟨rfl, hembeds⟩
  | none =>
    dsimp only [Option.map_none]
    cases (List.range inner.definitions.length).reverse.find? _ with
    | none => exact ⟨rfl, hembeds⟩
    | some definition =>
      constructor
      · exact congrArg some hembeds.instances.length_eq
      · exact { hembeds with definitions := rfl, instances := hembeds.instances.append _ }

end Embeds

/-! ### Waiting -/

section

variable {ε : Type} {strands : List Strand} {waited' : Waited (List Strand) ε} {bound : Nat}

/-- The same watch by a clock that is ahead. -/
structure Watch.Matches (time : Nat) (watch ahead : Watch ε) : Prop where
  interruption : ∀ instant, ahead.interruption? (instant + time) = watch.interruption? instant
  alarms : ahead.alarms = watch.alarms.map (· + time)
  wake : ahead.wake = watch.wake + time

/-- Two waits that end alike. Where nothing is left that could end them, the clock of the outer timeline may have moved
on further than that of the inner one. -/
inductive EndAlike (offset : Offset) (alarms : List Nat) :
    Waited (List Strand) ε → Timeline → Waited (List Strand) ε → Timeline → Prop where
  | finished {strands : List Strand} {inner outer : Timeline} (hembeds : Embeds offset inner outer) :
      EndAlike offset alarms (.finished strands) inner (.finished (strands.map (Strand.raise offset))) outer
  | interrupted {reason : ε} {inner outer : Timeline} (hembeds : Embeds offset inner outer) :
      EndAlike offset alarms (.interrupted reason) inner (.interrupted reason) outer
  | stalled {inner outer : Timeline} {time : Nat} (halarms : alarms = []) (hsleeping : inner.sleeping = [])
      (hlater : inner.now ≤ time) (hembeds : Embeds offset { inner with now := time } outer) :
      EndAlike offset alarms .stalled inner .stalled outer

variable {watch ahead : Watch ε}

theorem Watch.Matches.instants (hmatches : watch.Matches offset.time ahead) (strands : List Strand) :
    ahead.instants (strands.map (Strand.raise offset)) = (watch.instants strands).map (· + offset.time) := by
  have hstarts : (strands.map (Strand.raise offset)).filterMap Strand.alarm? =
      (strands.filterMap Strand.alarm?).map (· + offset.time) := by
    rw [List.filterMap_map, List.map_filterMap]
    congr 1
    funext strand
    cases strand <;> rfl
  rw [Watch.instants, Watch.instants, hmatches.wake, hmatches.alarms, hstarts, List.map_append, List.map_cons]

theorem Watch.Matches.over_iff (hmatches : watch.Matches offset.time ahead) (hembeds : Embeds offset inner outer)
    (strands : List Strand) :
    ((strands.map (Strand.raise offset)).all Strand.isDone && ahead.wake ≤ outer.now) =
      (strands.all Strand.isDone && watch.wake ≤ inner.now) := by
  have hdone : (strands.map (Strand.raise offset)).all Strand.isDone = strands.all Strand.isDone := by
    rw [List.all_map]
    congr 1
    funext strand
    cases strand <;> rfl
  rw [hdone, hmatches.wake, hembeds.now]
  simp only [Nat.add_le_add_iff_right]

theorem Embeds.ready_eq_nil (hembeds : Embeds offset inner outer) (hready : outer.ready = []) : inner.ready = [] := by
  have hown := hembeds.ready
  rw [hready] at hown
  exact List.map_eq_nil_iff.1 hown.symm

theorem runReady_eq_self (hready : inner.ready = []) : inner.runReady = inner := by
  rw [runReady, hready, List.foldl_nil, ← hready]

theorem Embeds.mem_sleeping (hembeds : Embeds offset inner outer) {entry : Nat × Job}
    (hentry : entry ∈ inner.sleeping) : raiseEntry offset entry ∈ outer.sleeping := by
  have hraised := List.mem_map_of_mem (f := raiseEntry offset) hentry
  rw [← hembeds.sleeping] at hraised
  exact (List.mem_filter.1 hraised).1

/-- A turn that ends the outer wait ends the inner one. -/
theorem Embeds.advance_inl (hembeds : Embeds offset inner outer) (hmatches : watch.Matches offset.time ahead)
    (halert : watch.Alert) (hends : ahead.advance (strands.map (Strand.raise offset)) outer = .inl waited') :
    ∃ waited, watch.advance strands inner = .inl waited ∧
      EndAlike offset watch.alarms waited inner waited' outer := by
  have hover := hmatches.over_iff hembeds strands
  have hreason := hmatches.interruption inner.now
  rw [← hembeds.now] at hreason
  cases ahead.advance_eq_iff.1 hends with
  | finished hover' =>
    rw [hover] at hover'
    exact ⟨_, watch.advance_eq_iff.2 (.finished hover'), .finished hembeds⟩
  | interrupted hopen hreason' =>
    rw [hover] at hopen
    rw [hreason] at hreason'
    exact ⟨_, watch.advance_eq_iff.2 (.interrupted hopen hreason'), .interrupted hembeds⟩
  | stalled hopen hquiet hready hnext =>
    rw [hover] at hopen
    rw [hreason] at hquiet
    obtain ⟨hsleeping', hpast'⟩ := nextInstant?_eq_none_iff.1 hnext
    have hsleeping : inner.sleeping = [] := by
      have hown := hembeds.sleeping
      rw [hsleeping'] at hown
      exact List.map_eq_nil_iff.1 hown.symm
    have hpast : ∀ instant ∈ watch.instants strands, instant ≤ inner.now := by
      intro instant hinstant
      have hle := hpast' (instant + offset.time) (hmatches.instants strands ▸ List.mem_map_of_mem hinstant)
      have hnow := hembeds.now
      omega
    have halarms : watch.alarms = [] := by
      apply List.eq_nil_iff_forall_not_mem.2
      intro alarm halarm
      have hfires := halert.fires alarm halarm inner.now
        (hpast alarm (List.mem_cons_of_mem _ (List.mem_append_left _ halarm)))
      rw [hquiet] at hfires
      cases hfires
    have hnext := nextInstant?_eq_none_iff.2 ⟨hsleeping, hpast⟩
    exact ⟨_, watch.advance_eq_iff.2 (.stalled hopen hquiet (hembeds.ready_eq_nil hready) hnext),
      .stalled halarms hsleeping (Nat.le_refl _) hembeds⟩

/-- A turn of the outer wait is one of the inner wait, or there is nothing to do for the inner one. -/
theorem Embeds.advance_inr (hembeds : Embeds offset inner outer) (hmatches : watch.Matches offset.time ahead)
    (hsteady : ∀ definition ∈ definitions, definition.Steady) (hsound : outer.Sound definitions owners)
    {next' : Timeline} (hgoes : ahead.advance (strands.map (Strand.raise offset)) outer = .inr next') :
    (∃ next, watch.advance strands inner = .inr next ∧ Embeds offset next next') ∨
      ∃ time, watch.Skips strands time inner ∧ Embeds offset { inner with now := time } next' := by
  have hover := hmatches.over_iff hembeds strands
  have hreason := hmatches.interruption inner.now
  rw [← hembeds.now] at hreason
  cases ahead.advance_eq_iff.1 hgoes with
  | ran hopen hquiet hready =>
    rw [hover] at hopen
    rw [hreason] at hquiet
    have hran := hembeds.runReady hsound hsteady
    by_cases hown : inner.ready = []
    · rw [runReady_eq_self hown] at hran
      have hjobs : ∀ entry ∈ inner.sleeping, inner.now < entry.1 := by
        intro entry hentry
        have hlater := hsound.later _ (hembeds.mem_sleeping hentry)
        rw [hembeds.now, raiseEntry] at hlater
        exact Nat.lt_of_add_lt_add_right hlater
      exact .inr ⟨inner.now, ⟨hopen, hquiet, hown, Nat.le_refl _, hjobs, fun _ _ => id⟩, hran⟩
    · exact .inl ⟨_, watch.advance_eq_iff.2 (.ran hopen hquiet hown), hran⟩
  | @moved time' hopen hquiet hready hnext =>
    rw [hover] at hopen
    rw [hreason] at hquiet
    have hafter := hsound.lt_of_nextInstant? hnext
    obtain ⟨-, hjobs', hinstants'⟩ := nextInstant?_eq_some_iff.1 hnext
    have hnow := hembeds.now
    obtain ⟨time, rfl⟩ : ∃ time, time' = time + offset.time := ⟨time' - offset.time, by omega⟩
    have hmoved := hembeds.moveTo hsound time
    have hjobs : ∀ entry ∈ inner.sleeping, time ≤ entry.1 := by
      intro entry hentry
      exact Nat.le_of_add_le_add_right (hjobs' _ (hembeds.mem_sleeping hentry))
    have hinstants : ∀ instant ∈ watch.instants strands, inner.now < instant → time ≤ instant := by
      intro instant hinstant hlater
      have hle := hinstants' (instant + offset.time) (hmatches.instants strands ▸ List.mem_map_of_mem hinstant)
        (by omega)
      omega
    have hown := hembeds.ready_eq_nil hready
    by_cases hdue : (∃ entry ∈ inner.sleeping, entry.1 = time) ∨ time ∈ watch.instants strands ∧ inner.now < time
    · have hnext := nextInstant?_eq_some_iff.2 ⟨hdue, hjobs, hinstants⟩
      exact .inl ⟨_, watch.advance_eq_iff.2 (.moved hopen hquiet hown hnext), hmoved⟩
    · have hjobs : ∀ entry ∈ inner.sleeping, time < entry.1 := by
        intro entry hentry
        exact Nat.lt_of_le_of_ne (hjobs entry hentry) fun heq => hdue (.inl ⟨entry, hentry, heq.symm⟩)
      have hinstants : ∀ instant ∈ watch.instants strands, inner.now < instant → time < instant := by
        intro instant hinstant hlater
        refine Nat.lt_of_le_of_ne (hinstants instant hinstant hlater) ?_
        rintro rfl
        exact hdue (.inr ⟨hinstant, hlater⟩)
      rw [moveTo_of_lt hjobs] at hmoved
      exact .inr ⟨time, ⟨hopen, hquiet, hown, by omega, hjobs, hinstants⟩, hmoved⟩

/-- A wait in the outer timeline ends as it does in the inner one. -/
theorem Embeds.waits {strands' : List Strand} {final' : Timeline} (hwaits : ahead.Waits strands' outer waited' final')
    (hmatches : watch.Matches offset.time ahead) (halert : watch.Alert)
    (hsteady : ∀ definition ∈ definitions, definition.Steady) (hembeds : Embeds offset inner outer)
    (hinner : inner.Sound definitions bound) (houter : outer.Sound definitions owners)
    (hstrands : strands' = strands.map (Strand.raise offset)) :
    ∃ waited final, watch.Waits strands inner waited final ∧
      EndAlike offset watch.alarms waited final waited' final' := by
  -- on the turns of the outer wait, each of which is one of the inner wait or none
  induction hwaits generalizing inner strands with
  | @ends strands' polled' outer looked' waited' hpoll' hends =>
    subst hstrands
    obtain ⟨hpolled, hembeds⟩ := hembeds.pollAll strands
    rw [hpoll'] at hpolled hembeds
    dsimp only at hpolled hembeds
    rw [hpolled] at hends
    obtain ⟨waited, hends, halike⟩ := hembeds.advance_inl hmatches halert hends
    exact ⟨waited, _, .ends rfl hends, halike⟩
  | @goes strands' polled' outer looked' next' final' waited' hpoll' hgoes hwaits ih =>
    subst hstrands
    have hlooked := houter.pollAll (strands.map (Strand.raise offset))
    obtain ⟨hpolled, hembeds⟩ := hembeds.pollAll strands
    rw [hpoll'] at hpolled hembeds hlooked
    dsimp only at hpolled hembeds hlooked
    have hnext' := Watch.advance_sound hlooked hgoes
    rw [hpolled] at hgoes
    rcases hembeds.advance_inr hmatches hsteady hlooked hgoes with ⟨next, hgoes, hembeds⟩ | ⟨time, hskips, hembeds⟩
    · obtain ⟨waited, final, hwaits, halike⟩ :=
        ih hembeds (Watch.advance_sound (hinner.pollAll strands) hgoes) hnext' hpolled
      exact ⟨waited, final, .goes rfl hgoes hwaits, halike⟩
    · have hlooked := hinner.pollAll strands
      obtain ⟨waited, final, hwaits, halike⟩ := ih hembeds { hlooked with later := hskips.jobs } hnext' hpolled
      rcases hwaits.of_skips halert (hinner.pollAll_rest strands) hskips with hwaits | ⟨rfl, rfl, hstalls⟩
      · exact ⟨waited, final, hwaits.of_pollAll hinner rfl, halike⟩
      · cases halike with
        | stalled halarms hsleeping hlater hembeds =>
          exact ⟨.stalled, _, hstalls.of_pollAll hinner rfl,
            .stalled halarms hsleeping (Nat.le_trans hskips.later hlater) hembeds⟩

theorem Embeds.await (hembeds : Embeds offset inner outer) (hmatches : watch.Matches offset.time ahead)
    (halert : watch.Alert) (hsteady : ∀ definition ∈ definitions, definition.Steady)
    (hinner : inner.Sound definitions bound) (houter : outer.Sound definitions owners) (strands : List Strand) :
    let waited := inner.await watch.interruption? watch.alarms watch.wake strands
    let waited' := outer.await ahead.interruption? ahead.alarms ahead.wake (strands.map (Strand.raise offset))
    EndAlike offset watch.alarms waited.1 waited.2 waited'.1 waited'.2 ∧ waited.2.Sound definitions bound ∧
      waited'.2.Sound definitions owners := by
  intro waited waited'
  have hwaits := Watch.await_waits watch hinner strands
  have hwaits' := Watch.await_waits ahead houter (strands.map (Strand.raise offset))
  obtain ⟨_, _, hends, halike⟩ := waits hwaits' hmatches halert hsteady hembeds hinner houter rfl
  obtain ⟨rfl, rfl⟩ := hends.unique hwaits
  exact ⟨halike, hwaits.sound hinner, hwaits'.sound houter⟩

theorem Embeds.withTime (hembeds : Embeds offset inner outer) (hsleeping : inner.sleeping = []) {time : Nat}
    (hlater : time ≤ inner.now) :
    Embeds { offset with time := outer.now - time } { inner with now := time } outer where
  now := by
    have hnow := hembeds.now
    dsimp only
    omega
  definitions := hembeds.definitions
  instances := hembeds.instances
  ready := hembeds.ready
  sleeping := by
    have hown := hembeds.sleeping
    rw [hsleeping] at hown ⊢
    exact hown
  nextTicket := hembeds.nextTicket
  answers := hembeds.answers

end

end Timeline

end RelationalGraphQL.Loader
