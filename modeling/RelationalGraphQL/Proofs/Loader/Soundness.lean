import RelationalGraphQL.Proofs.Loader.Jobs

/-!
# What every timeline keeps

A timeline is sound if its loaders know only tickets that were given out, its jobs are those of its loaders, and what
sleeps is due later, in order. Everything that happens to a timeline leaves it sound. Whoever waits has then nothing
more to look for until something runs or the clock moves (`Sound.pollAll_rest`).
-/

namespace RelationalGraphQL.Loader.Timeline

/-! ### Sleeping jobs -/

def InOrder (entries : List (Nat × Job)) : Prop := entries.Pairwise fun entry other => entry.1 ≤ other.1

section

variable {entries : List (Nat × Job)}

theorem insertSleeping_perm (due : Nat) (job : Job) (entries : List (Nat × Job)) :
    (insertSleeping due job entries).Perm ((due, job) :: entries) := by
  induction entries with
  | nil => exact .refl _
  | cons entry rest ih =>
    obtain ⟨time, other⟩ := entry
    rw [insertSleeping]
    split
    · exact (ih.cons _).trans (.swap _ _ _)
    · exact .refl _

theorem InOrder.insertSleeping_eq (horder : InOrder entries) (due : Nat) (job : Job) :
    insertSleeping due job entries =
      entries.filter (fun entry => entry.1 ≤ due) ++ (due, job) :: entries.filter fun entry => due < entry.1 := by
  induction entries with
  | nil => rfl
  | cons entry rest ih =>
    obtain ⟨time, other⟩ := entry
    obtain ⟨hfirst, hrest⟩ := List.pairwise_cons.1 horder
    rw [insertSleeping]
    split
    · next hle =>
      have hlt : ¬ due < time := by omega
      simp [ih hrest, hle, hlt]
    · next hgt =>
      have hlate : ∀ entry ∈ (time, other) :: rest, due < entry.1 := by
        intro entry hentry
        rcases List.mem_cons.1 hentry with rfl | hentry
        · exact Nat.lt_of_not_le hgt
        · exact Nat.lt_of_lt_of_le (Nat.lt_of_not_le hgt) (hfirst entry hentry)
      rw [List.filter_eq_nil_iff.2 fun entry hentry => by simpa using hlate entry hentry,
        List.filter_eq_self.2 fun entry hentry => by simpa using hlate entry hentry]
      rfl

theorem InOrder.insertSleeping (horder : InOrder entries) (due : Nat) (job : Job) :
    InOrder (insertSleeping due job entries) := by
  rw [horder.insertSleeping_eq, InOrder, List.pairwise_append]
  refine ⟨horder.filter _, List.pairwise_cons.2 ⟨?_, horder.filter _⟩, ?_⟩
  · intro entry hentry
    exact Nat.le_of_lt (by simpa using (List.mem_filter.1 hentry).2)
  · intro entry hentry other hother
    have hle : entry.1 ≤ due := by simpa using (List.mem_filter.1 hentry).2
    rcases List.mem_cons.1 hother with rfl | hother
    · exact hle
    · have hlt : due < other.1 := by simpa using (List.mem_filter.1 hother).2
      omega

theorem InOrder.takeWhile_eq (horder : InOrder entries) (time : Nat) :
    (entries.takeWhile fun entry => entry.1 ≤ time) = entries.filter fun entry => entry.1 ≤ time := by
  induction entries with
  | nil => rfl
  | cons entry rest ih =>
    obtain ⟨hfirst, hrest⟩ := List.pairwise_cons.1 horder
    by_cases hle : entry.1 ≤ time
    · simp [hle, ih hrest]
    · have hlate : ∀ other ∈ rest, ¬ other.1 ≤ time := by
        intro other hother
        have := hfirst other hother
        omega
      simpa [hle] using hlate

theorem InOrder.dropWhile_eq (horder : InOrder entries) (time : Nat) :
    (entries.dropWhile fun entry => entry.1 ≤ time) = entries.filter fun entry => time < entry.1 := by
  induction entries with
  | nil => rfl
  | cons entry rest ih =>
    obtain ⟨hfirst, hrest⟩ := List.pairwise_cons.1 horder
    by_cases hle : entry.1 ≤ time
    · have hlt : ¬ time < entry.1 := by omega
      simp [hle, hlt, ih hrest]
    · have hlate : ∀ other ∈ rest, time < other.1 := by
        intro other hother
        have := hfirst other hother
        omega
      rw [List.dropWhile_cons_of_neg (by simpa using hle), List.filter_eq_self.2]
      intro other hother
      rcases List.mem_cons.1 hother with rfl | hother
      · simpa using hle
      · simpa using hlate other hother

end

/-! ### What every timeline keeps -/

/-- Loaders whose owners and tickets are below bounds. -/
def Owned (owners tickets : Nat) (instances : List Instance) : Prop :=
  ∀ user ∈ instances, user.owner < owners ∧ user.state.TicketsBelow tickets

section

variable {owners tickets : Nat} {instances : List Instance}

theorem Owned.mono (howned : Owned owners tickets instances) {moreOwners moreTickets : Nat}
    (howners : owners ≤ moreOwners) (htickets : tickets ≤ moreTickets) : Owned moreOwners moreTickets instances := by
  intro user huser
  obtain ⟨howner, hbelow⟩ := howned user huser
  exact ⟨by omega, hbelow.mono htickets⟩

theorem Owned.set (howned : Owned owners tickets instances) {loader : Nat} {user : Instance}
    (huser : instances[loader]? = some user) {state : State String Json} (hstate : state.TicketsBelow tickets) :
    Owned owners tickets (instances.set loader { user with state }) := by
  intro other hother
  rcases List.mem_or_eq_of_mem_set hother with hother | rfl
  · exact howned other hother
  · exact ⟨(howned user (List.mem_of_getElem? huser)).1, hstate⟩

end

/-- A timeline of definitions whose loaders belong to owners below a bound. Its tickets and jobs are its own, and what
sleeps is due later, in order. -/
structure Sound (definitions : List Definition) (owners : Nat) (timeline : Timeline) : Prop where
  definitions : timeline.definitions = definitions
  instances : Owned owners timeline.nextTicket timeline.instances
  answers : ∀ answer ∈ timeline.answers, answer.1 < timeline.nextTicket
  ready : ∀ job ∈ timeline.ready, job.loader < timeline.instances.length
  sleeping : ∀ entry ∈ timeline.sleeping, entry.2.loader < timeline.instances.length
  inOrder : InOrder timeline.sleeping
  later : ∀ entry ∈ timeline.sleeping, timeline.now < entry.1

theorem sound_ofDefinitions (definitions : List Definition) (owners : Nat) :
    (ofDefinitions definitions).Sound definitions owners where
  definitions := rfl
  instances := nofun
  answers := nofun
  ready := nofun
  sleeping := nofun
  inOrder := .nil
  later := nofun

variable {definitions : List Definition} {owners : Nat} {timeline : Timeline} {instants : List Nat} {time : Nat}
  {strand : Strand}

theorem mem_sleeping_absorb {loader : Nat} {user : Instance} {effect : Effect} {entry : Nat × Job}
    (hentry : entry ∈ (timeline.absorb loader user effect).sleeping) :
    entry ∈ timeline.sleeping ∨
      ∃ duration job, effect.later = some (duration, job) ∧ entry = (timeline.now + duration, job) := by
  cases hlater : effect.later with
  | none =>
    rw [absorb, hlater] at hentry
    exact .inl hentry
  | some left =>
    rw [absorb, hlater] at hentry
    rcases List.mem_cons.1 ((insertSleeping_perm _ _ _).subset hentry) with rfl | hentry
    · exact .inr ⟨left.1, left.2, rfl, rfl⟩
    · exact .inl hentry

theorem InOrder.absorb (horder : InOrder timeline.sleeping) (loader : Nat) (user : Instance) (effect : Effect) :
    InOrder (timeline.absorb loader user effect).sleeping := by
  rw [Timeline.absorb]
  cases effect.later with
  | none => exact horder
  | some left => exact horder.insertSleeping _ _

theorem Sound.run (hsound : timeline.Sound definitions owners) (job : Job) :
    (timeline.run job).Sound definitions owners := by
  cases huser : timeline.instances[job.loader]? with
  | none => rwa [run_eq_self huser]
  | some user =>
    obtain ⟨count, calls, hrun⟩ := run_eq huser
    obtain ⟨hloader, -⟩ := List.getElem?_eq_some_iff.1 huser
    have hbelow := (hsound.instances user (List.mem_of_getElem? huser)).2
    obtain ⟨hstate, hanswers⟩ := Effect.ofJob_ticketsBelow hbelow timeline.definitions[user.definition]? count job
    rw [hrun]
    have hsleeping (entry : Nat × Job) (hentry : entry ∈ (timeline.absorb job.loader user
        (.ofJob timeline.definitions[user.definition]? count user.state job)).sleeping) :
        entry.2.loader < timeline.instances.length ∧ timeline.now < entry.1 := by
      rcases mem_sleeping_absorb hentry with hentry | ⟨duration, next, hlater, rfl⟩
      · exact ⟨hsound.sleeping entry hentry, hsound.later entry hentry⟩
      · obtain ⟨hduration, hnext, -⟩ := Effect.ofJob_later hlater
        exact ⟨hnext ▸ hloader, by dsimp only; omega⟩
    constructor
    · exact hsound.definitions
    · exact hsound.instances.set huser hstate
    · intro answer hanswer
      rcases List.mem_append.1 hanswer with hanswer | hanswer
      · exact hsound.answers answer hanswer
      · exact hanswers answer hanswer
    · intro other hother
      simpa [absorb] using hsound.ready other hother
    · intro entry hentry
      simpa [absorb] using (hsleeping entry hentry).1
    · exact hsound.inOrder.absorb job.loader user _
    · intro entry hentry
      exact (hsleeping entry hentry).2

theorem Sound.runReady (hsound : timeline.Sound definitions owners) :
    timeline.runReady.Sound definitions owners := by
  apply runReady_keeps (Sound definitions owners) fun _ job hsound => Sound.run hsound job
  exact { hsound with ready := nofun }

theorem Sound.moveTo (hsound : timeline.Sound definitions owners) (time : Nat) :
    (timeline.moveTo time).Sound definitions owners := by
  constructor
  · exact hsound.definitions
  · exact hsound.instances
  · exact hsound.answers
  · intro job hjob
    rcases List.mem_append.1 hjob with hjob | hjob
    · exact hsound.ready job hjob
    · obtain ⟨entry, hentry, rfl⟩ := List.mem_map.1 hjob
      exact hsound.sleeping entry ((List.takeWhile_sublist _).subset hentry)
  · intro entry hentry
    exact hsound.sleeping entry ((List.dropWhile_sublist _).subset hentry)
  · exact hsound.inOrder.sublist (List.dropWhile_sublist _)
  · intro entry hentry
    have hentry : entry ∈ timeline.sleeping.dropWhile fun entry => entry.1 ≤ time := hentry
    rw [hsound.inOrder.dropWhile_eq] at hentry
    exact of_decide_eq_true (List.mem_filter.1 hentry).2

/-- The next instant is that of a job or an alarm to come, and none of these is earlier. -/
theorem nextInstant?_eq_some_iff :
    timeline.nextInstant? instants = some time ↔
      ((∃ entry ∈ timeline.sleeping, entry.1 = time) ∨ time ∈ instants ∧ timeline.now < time) ∧
        (∀ entry ∈ timeline.sleeping, time ≤ entry.1) ∧
        ∀ instant ∈ instants, timeline.now < instant → time ≤ instant := by
  have hleast : (∀ instant ∈ timeline.sleeping.map Prod.fst ++ instants.filter fun time => timeline.now < time,
      time ≤ instant) ↔ (∀ entry ∈ timeline.sleeping, time ≤ entry.1) ∧
        ∀ instant ∈ instants, timeline.now < instant → time ≤ instant := by
    simp only [List.forall_mem_append, List.forall_mem_map, List.mem_filter, decide_eq_true_eq, and_imp]
  rw [nextInstant?, List.min?_eq_some_iff, hleast, List.mem_append, List.mem_map, List.mem_filter, decide_eq_true_eq]

theorem nextInstant?_eq_none_iff :
    timeline.nextInstant? instants = none ↔
      timeline.sleeping = [] ∧ ∀ instant ∈ instants, instant ≤ timeline.now := by
  rw [nextInstant?, List.min?_eq_none_iff, List.append_eq_nil_iff, List.map_eq_nil_iff, List.filter_eq_nil_iff]
  simp only [decide_eq_true_eq, Nat.not_lt]

theorem Sound.lt_of_nextInstant? (hsound : timeline.Sound definitions owners)
    (hnext : timeline.nextInstant? instants = some time) : timeline.now < time := by
  rcases (nextInstant?_eq_some_iff.1 hnext).1 with ⟨entry, hentry, rfl⟩ | ⟨-, hlater⟩
  · exact hsound.later entry hentry
  · exact hlater

theorem run_now_ready (timeline : Timeline) (job : Job) :
    (timeline.run job).now = timeline.now ∧ (timeline.run job).ready = timeline.ready := by
  cases huser : timeline.instances[job.loader]? with
  | none =>
    rw [run_eq_self huser]
    exact ⟨rfl, rfl⟩
  | some user =>
    obtain ⟨count, calls, hrun⟩ := run_eq huser
    rw [hrun]
    exact ⟨rfl, rfl⟩

theorem runReady_now (timeline : Timeline) : timeline.runReady.now = timeline.now := by
  apply runReady_keeps fun later => later.now = timeline.now
  · exact fun later job hnow => (later.run_now_ready job).1.trans hnow
  · rfl

theorem moveTo_of_lt (hlater : ∀ entry ∈ timeline.sleeping, time < entry.1) :
    timeline.moveTo time = { timeline with now := time } := by
  cases hsleeping : timeline.sleeping with
  | nil => simp [moveTo, hsleeping]
  | cons entry rest =>
    have hfirst := hlater entry (hsleeping ▸ List.mem_cons_self)
    simp [moveTo, hsleeping, hfirst]

/-! ### Looking after strands -/

theorem Sound.request (hsound : timeline.Sound definitions owners) (loader : Nat) (key : String) :
    (timeline.request loader key).2.Sound definitions owners := by
  have hrequested := requested loader key timeline
  generalize timeline.request loader key = result at hrequested ⊢
  cases hrequested with
  | missing _ => exact hsound
  | cached _ _ => exact hsound
  | @waiting user demand state huser hload =>
    obtain ⟨hloader, -⟩ := List.getElem?_eq_some_iff.1 huser
    have howned := hsound.instances.mono (Nat.le_refl owners) (Nat.le_succ timeline.nextTicket)
    have hstate : state.TicketsBelow (timeline.nextTicket + 1) := by
      have hbelow := (howned user (List.mem_of_getElem? huser)).2.load (timeline.maxBatchOf user) key
        (Nat.lt_succ_self _)
      rwa [hload] at hbelow
    constructor
    · exact hsound.definitions
    · exact howned.set huser hstate
    · intro answer hanswer
      exact Nat.lt_succ_of_lt (hsound.answers answer hanswer)
    · intro job hjob
      rw [List.length_set]
      rcases List.mem_append.1 hjob with hjob | hjob
      · exact hsound.ready job hjob
      · exact Demand.loader_of_mem_jobs hjob ▸ hloader
    · intro entry hentry
      rw [List.length_set]
      exact hsound.sleeping entry hentry
    · exact hsound.inOrder
    · exact hsound.later

theorem pollAll_preserves (keeps : Timeline → Prop)
    (hrequest : ∀ {timeline}, keeps timeline → ∀ loader key, keeps (timeline.request loader key).2)
    (hkeeps : keeps timeline) (strands : List Strand) : keeps (pollAll strands timeline).2 := by
  induction strands generalizing timeline with
  | nil => exact hkeeps
  | cons strand rest ih =>
    refine ih (show keeps (timeline.poll strand).2 from ?_)
    cases strand with
    | idle start loader key =>
      rw [poll]
      split
      · exact hrequest hkeeps loader key
      · exact hkeeps
    | waiting ticket =>
      rw [poll]
      split <;> exact hkeeps
    | done outcome time => exact hkeeps

theorem Sound.pollAll (hsound : timeline.Sound definitions owners) (strands : List Strand) :
    (Timeline.pollAll strands timeline).2.Sound definitions owners := pollAll_preserves _ Sound.request hsound strands

theorem Sound.poll (hsound : timeline.Sound definitions owners) (strand : Strand) :
    (timeline.poll strand).2.Sound definitions owners := hsound.pollAll [strand]

theorem Sound.instance? (hsound : timeline.Sound definitions owners) {owner : Nat} (howner : owner < owners)
    (name : String) : (timeline.instance? owner name).2.Sound definitions owners := by
  rw [Timeline.instance?]
  dsimp only
  split
  · exact hsound
  · split
    · exact hsound
    · constructor
      · exact hsound.definitions
      · intro user huser
        rcases List.mem_append.1 huser with huser | huser
        · exact hsound.instances user huser
        · obtain rfl := List.mem_singleton.1 huser
          exact ⟨howner, State.ticketsBelow_empty _⟩
      · exact hsound.answers
      · intro job hjob
        rw [List.length_append]
        exact Nat.lt_add_right _ (hsound.ready job hjob)
      · intro entry hentry
        rw [List.length_append]
        exact Nat.lt_add_right _ (hsound.sleeping entry hentry)
      · exact hsound.inOrder
      · exact hsound.later

/-- A strand for which there is nothing to do now. -/
def Strand.Rests (timeline : Timeline) : Strand → Prop
  | .idle start _ _ => timeline.now < start
  | .waiting ticket => timeline.answers.lookup ticket = none
  | .done _ _ => True

theorem poll_of_rests (hrests : strand.Rests timeline) : timeline.poll strand = (strand, timeline) := by
  cases strand with
  | idle start loader key => rw [poll, if_neg (Nat.not_le_of_lt hrests)]
  | waiting ticket =>
    have hnone : timeline.answers.lookup ticket = none := hrests
    rw [poll, hnone]
  | done outcome time => rfl

theorem pollAll_of_rest {strands : List Strand} (hrest : ∀ strand ∈ strands, strand.Rests timeline) :
    pollAll strands timeline = (strands, timeline) := by
  induction strands with
  | nil => rfl
  | cons strand rest ih =>
    rw [pollAll, poll_of_rests (hrest strand List.mem_cons_self)]
    dsimp only
    rw [ih fun other hother => hrest other (List.mem_cons_of_mem _ hother)]

theorem request_keeps (loader : Nat) (key : String) (timeline : Timeline) :
    (timeline.request loader key).2.now = timeline.now ∧
      (timeline.request loader key).2.answers = timeline.answers := by
  have hrequested := requested loader key timeline
  generalize timeline.request loader key = result at hrequested ⊢
  cases hrequested <;> exact ⟨rfl, rfl⟩

theorem pollAll_keeps (strands : List Strand) (timeline : Timeline) :
    (pollAll strands timeline).2.now = timeline.now ∧ (pollAll strands timeline).2.answers = timeline.answers := by
  apply pollAll_preserves fun later => later.now = timeline.now ∧ later.answers = timeline.answers
  · rintro later ⟨hnow, hanswers⟩ loader key
    obtain ⟨hnow', hanswers'⟩ := request_keeps loader key later
    exact ⟨hnow'.trans hnow, hanswers'.trans hanswers⟩
  · exact ⟨rfl, rfl⟩

theorem poll_keeps (strand : Strand) (timeline : Timeline) :
    (timeline.poll strand).2.now = timeline.now ∧ (timeline.poll strand).2.answers = timeline.answers :=
  pollAll_keeps [strand] timeline

theorem Strand.Rests.of_keeps (hrests : strand.Rests timeline) {after : Timeline}
    (hkeeps : after.now = timeline.now ∧ after.answers = timeline.answers) : strand.Rests after := by
  obtain ⟨hnow, hanswers⟩ := hkeeps
  cases strand with
  | idle start loader key => exact show after.now < start from hnow ▸ hrests
  | waiting ticket => exact show after.answers.lookup ticket = none from hanswers ▸ hrests
  | done outcome time => trivial

theorem Sound.lookup_nextTicket (hsound : timeline.Sound definitions owners) (ahead : Nat) :
    timeline.answers.lookup (ahead + timeline.nextTicket) = none := by
  rw [List.lookup_eq_none_iff]
  intro answer hanswer
  have hlt := hsound.answers answer hanswer
  rw [bne_iff_ne]
  omega

theorem Sound.poll_rests (hsound : timeline.Sound definitions owners) (strand : Strand) :
    (timeline.poll strand).1.Rests (timeline.poll strand).2 := by
  cases strand with
  | idle start loader key =>
    rw [Timeline.poll]
    split
    · have hrequested := requested loader key timeline
      generalize timeline.request loader key = result at hrequested ⊢
      cases hrequested with
      | missing _ => trivial
      | cached _ _ => trivial
      | waiting _ _ =>
        have hnone := hsound.lookup_nextTicket 0
        rwa [Nat.zero_add] at hnone
    · next hearly => exact Nat.lt_of_not_le hearly
  | waiting ticket =>
    rw [Timeline.poll]
    split
    · trivial
    · next hnone => exact hnone
  | done outcome time => trivial

theorem Sound.pollAll_rest (hsound : timeline.Sound definitions owners) (strands : List Strand) :
    ∀ strand ∈ (Timeline.pollAll strands timeline).1, strand.Rests (Timeline.pollAll strands timeline).2 := by
  induction strands generalizing timeline with
  | nil => nofun
  | cons first rest ih =>
    intro strand hstrand
    rcases List.mem_cons.1 hstrand with rfl | hstrand
    · exact (hsound.poll_rests first).of_keeps (pollAll_keeps rest _)
    · exact ih (hsound.poll first) strand hstrand

end RelationalGraphQL.Loader.Timeline
