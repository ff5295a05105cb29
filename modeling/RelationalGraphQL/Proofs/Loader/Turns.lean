import RelationalGraphQL.Proofs.Loader.Soundness
import Mathlib.Algebra.Order.BigOperators.Group.List
import Mathlib.Algebra.Order.Group.Nat

/-!
# A wait comes to its end

A wait goes turn by turn: whoever waits looks, and if nothing ends the wait, what can run is run or the clock moves on.
The turns a wait is given are enough for it (`await_waits`): what is still to be done has a weight, which looking does
not add to and which every turn lessens. So a wait can be followed turn by turn until it ends (`Waits`), and its bound
be forgotten.
-/

namespace RelationalGraphQL.Loader.Timeline

variable {definitions : List Definition} {owners : Nat} {timeline : Timeline}

/-! ### Turns -/

/-- What a wait watches for: what interrupts it, when that can be, and when it is over at the earliest. -/
structure Watch (ε : Type) where
  interruption? : Nat → Option ε
  alarms : List Nat
  wake : Nat

namespace Watch

variable {ε : Type} (watch : Watch ε)

def instants (strands : List Strand) : List Nat := watch.wake :: watch.alarms ++ strands.filterMap Strand.alarm?

/-- A turn of a wait after looking: its end, or where it goes on. -/
def advance (strands : List Strand) (timeline : Timeline) : Waited (List Strand) ε ⊕ Timeline :=
  if strands.all Strand.isDone && watch.wake ≤ timeline.now then .inl (.finished strands)
  else
    match watch.interruption? timeline.now with
    | some reason => .inl (.interrupted reason)
    | none =>
      if timeline.ready.isEmpty then
        match timeline.nextInstant? (watch.instants strands) with
        | some time => .inr (timeline.moveTo time)
        | none => .inl .stalled
      else .inr timeline.runReady

/-- What a turn after looking can do. -/
inductive Advance (strands : List Strand) (timeline : Timeline) : Waited (List Strand) ε ⊕ Timeline → Prop where
  | finished (hover : strands.all Strand.isDone && watch.wake ≤ timeline.now) :
      Advance strands timeline (.inl (.finished strands))
  | interrupted {reason : ε} (hopen : ¬ (strands.all Strand.isDone && watch.wake ≤ timeline.now))
      (hreason : watch.interruption? timeline.now = some reason) :
      Advance strands timeline (.inl (.interrupted reason))
  | ran (hopen : ¬ (strands.all Strand.isDone && watch.wake ≤ timeline.now))
      (hquiet : watch.interruption? timeline.now = none) (hready : timeline.ready ≠ []) :
      Advance strands timeline (.inr timeline.runReady)
  | moved {time : Nat} (hopen : ¬ (strands.all Strand.isDone && watch.wake ≤ timeline.now))
      (hquiet : watch.interruption? timeline.now = none) (hready : timeline.ready = [])
      (hnext : timeline.nextInstant? (watch.instants strands) = some time) :
      Advance strands timeline (.inr (timeline.moveTo time))
  | stalled (hopen : ¬ (strands.all Strand.isDone && watch.wake ≤ timeline.now))
      (hquiet : watch.interruption? timeline.now = none) (hready : timeline.ready = [])
      (hnext : timeline.nextInstant? (watch.instants strands) = none) : Advance strands timeline (.inl .stalled)

theorem advance_eq_iff {strands : List Strand} {timeline : Timeline} {turn : Waited (List Strand) ε ⊕ Timeline} :
    watch.advance strands timeline = turn ↔ watch.Advance strands timeline turn := by
  constructor
  · rintro rfl
    rw [advance]
    split
    · next hover => exact .finished hover
    · next hopen =>
      split
      · next hreason => exact .interrupted hopen hreason
      · next hquiet =>
        split
        · next hready =>
          rw [List.isEmpty_iff] at hready
          split
          · next hnext => exact .moved hopen hquiet hready hnext
          · next hnext => exact .stalled hopen hquiet hready hnext
        · next hready => exact .ran hopen hquiet (by rwa [List.isEmpty_iff] at hready)
  · intro hadvance
    rw [advance]
    cases hadvance with
    | finished hover => rw [if_pos hover]
    | interrupted hopen hreason => rw [if_neg hopen, hreason]
    | ran hopen hquiet hready =>
      rw [if_neg hopen, hquiet]
      exact if_neg (by rwa [List.isEmpty_iff])
    | moved hopen hquiet hready hnext =>
      rw [if_neg hopen, hquiet, hready, hnext]
      rfl
    | stalled hopen hquiet hready hnext =>
      rw [if_neg hopen, hquiet, hready, hnext]
      rfl

/-- A wait ends in some way after some turns. -/
inductive Waits : List Strand → Timeline → Waited (List Strand) ε → Timeline → Prop where
  | ends {strands polled : List Strand} {timeline looked : Timeline} {waited : Waited (List Strand) ε}
      (hpoll : pollAll strands timeline = (polled, looked)) (hends : watch.advance polled looked = .inl waited) :
      Waits strands timeline waited looked
  | goes {strands polled : List Strand} {timeline looked next final : Timeline} {waited : Waited (List Strand) ε}
      (hpoll : pollAll strands timeline = (polled, looked)) (hgoes : watch.advance polled looked = .inr next)
      (hwaits : Waits polled next waited final) : Waits strands timeline waited final

variable {watch}

theorem Waits.unique {strands : List Strand} {timeline final final' : Timeline}
    {waited waited' : Waited (List Strand) ε}
    (hwaits : watch.Waits strands timeline waited final) (hwaits' : watch.Waits strands timeline waited' final') :
    waited = waited' ∧ final = final' := by
  induction hwaits with
  | ends hpoll hends =>
    cases hwaits' with
    | ends hpoll' hends' =>
      rw [hpoll] at hpoll'
      cases hpoll'
      rw [hends] at hends'
      cases hends'
      exact ⟨rfl, rfl⟩
    | goes hpoll' hgoes _ =>
      rw [hpoll] at hpoll'
      cases hpoll'
      rw [hends] at hgoes
      cases hgoes
  | goes hpoll hgoes _ ih =>
    cases hwaits' with
    | ends hpoll' hends =>
      rw [hpoll] at hpoll'
      cases hpoll'
      rw [hgoes] at hends
      cases hends
    | goes hpoll' hgoes' hwaits' =>
      rw [hpoll] at hpoll'
      cases hpoll'
      rw [hgoes] at hgoes'
      cases hgoes'
      exact ih hwaits'

theorem wait_succ (fuel : Nat) (strands : List Strand) (timeline : Timeline) :
    wait watch.interruption? watch.alarms watch.wake (fuel + 1) strands timeline =
      match watch.advance (pollAll strands timeline).1 (pollAll strands timeline).2 with
      | .inl waited => (waited, (pollAll strands timeline).2)
      | .inr next =>
        wait watch.interruption? watch.alarms watch.wake fuel (pollAll strands timeline).1 next := by
  rw [wait]
  generalize pollAll strands timeline = result
  obtain ⟨polled, looked⟩ := result
  dsimp only [advance]
  split
  · rfl
  · cases watch.interruption? looked.now with
    | some reason => rfl
    | none =>
      dsimp only
      split
      · change (match looked.nextInstant? (watch.instants polled) with | some time => _ | none => _) = _
        cases looked.nextInstant? (watch.instants polled) <;> rfl
      · rfl

end Watch

/-! ### The weight of what is still to be done -/

def burden (timeline : Timeline) : Nat :=
  (timeline.ready.map Job.weight).sum + (timeline.sleeping.map fun entry => entry.2.weight + 1).sum

theorem burden_run (timeline : Timeline) (job : Job) :
    (timeline.run job).burden + 1 ≤ timeline.burden + job.weight := by
  have hweight : 1 ≤ job.weight := by cases job <;> exact Nat.le_add_left 1 _
  cases huser : timeline.instances[job.loader]? with
  | none =>
    rw [run_eq_self huser]
    omega
  | some user =>
    obtain ⟨count, calls, hrun⟩ := run_eq huser
    rw [hrun]
    dsimp only [burden, absorb]
    cases hlater : (Effect.ofJob timeline.definitions[user.definition]? count user.state job).later with
    | none =>
      dsimp only [Option.elim]
      omega
    | some left =>
      obtain ⟨-, -, hnext⟩ := Effect.ofJob_later hlater
      dsimp only [Option.elim]
      rw [((insertSleeping_perm _ _ _).map _).sum_eq, List.map_cons, List.sum_cons]
      dsimp only
      omega

theorem burden_runReady (timeline : Timeline) : timeline.runReady.burden + timeline.ready.length ≤ timeline.burden := by
  have hfold (jobs : List Job) : ∀ timeline : Timeline,
      (jobs.foldl run timeline).burden + jobs.length ≤ timeline.burden + (jobs.map Job.weight).sum := by
    induction jobs with
    | nil => exact fun _ => Nat.le_refl _
    | cons job jobs ih =>
      intro timeline
      have hfirst := timeline.burden_run job
      have hrest := ih (timeline.run job)
      rw [List.foldl_cons, List.length_cons, List.map_cons, List.sum_cons]
      omega
  have hready := hfold timeline.ready { timeline with ready := [] }
  simp only [burden, List.map_nil, List.sum_nil] at hready ⊢
  rw [runReady]
  omega

theorem burden_moveTo (timeline : Timeline) (time : Nat) :
    (timeline.moveTo time).burden + (timeline.sleeping.takeWhile fun entry => entry.1 ≤ time).length =
      timeline.burden := by
  have hawake (entries : List (Nat × Job)) : (entries.map fun entry => entry.2.weight + 1).sum =
      ((entries.map Prod.snd).map Job.weight).sum + entries.length := by
    induction entries with
    | nil => rfl
    | cons entry rest ih =>
      simp only [List.map_cons, List.sum_cons, List.length_cons, ih]
      omega
  have hsplit : (timeline.sleeping.map fun entry => entry.2.weight + 1).sum =
      ((timeline.sleeping.takeWhile fun entry => entry.1 ≤ time).map fun entry => entry.2.weight + 1).sum +
        ((timeline.sleeping.dropWhile fun entry => entry.1 ≤ time).map fun entry => entry.2.weight + 1).sum := by
    rw [← List.sum_append, ← List.map_append, List.takeWhile_append_dropWhile]
  rw [hawake (timeline.sleeping.takeWhile _)] at hsplit
  simp only [burden, moveTo, List.map_append, List.sum_append]
  omega

def ahead (now instant : Nat) : Nat := if now < instant then 1 else 0

theorem ahead_anti {now time : Nat} (hle : now ≤ time) (instant : Nat) : ahead time instant ≤ ahead now instant := by
  rw [ahead, ahead]
  split <;> split <;> omega

theorem ahead_lt {now time : Nat} (hlt : now < time) : ahead time time < ahead now time := by
  rw [ahead, ahead, if_pos hlt, if_neg (Nat.lt_irrefl time)]
  exact Nat.one_pos

/-- Bounds the turns that a strand takes until it waits for an answer. -/
def Strand.weight (now : Nat) : Strand → Nat
  | .idle start _ _ => 5 + ahead now start
  | .waiting _ | .done _ _ => 0

theorem Strand.weight_anti {now time : Nat} (hle : now ≤ time) (strand : Strand) :
    strand.weight time ≤ strand.weight now := by
  cases strand with
  | idle start loader key => exact Nat.add_le_add_left (ahead_anti hle start) 5
  | waiting ticket => exact Nat.le_refl 0
  | done outcome time => exact Nat.le_refl 0

theorem burden_poll (strand : Strand) (timeline : Timeline) :
    (timeline.poll strand).2.burden + (timeline.poll strand).1.weight timeline.now ≤
      timeline.burden + strand.weight timeline.now := by
  cases strand with
  | idle start loader key =>
    rw [poll]
    split
    · have hrequested := requested loader key timeline
      generalize timeline.request loader key = result at hrequested ⊢
      cases hrequested with
      | missing _ => exact Nat.le_add_right _ _
      | cached _ _ => exact Nat.le_add_right _ _
      | @waiting user demand state _ _ =>
        have hjobs := demand.weight_jobs_le loader
        simp only [burden, List.map_append, List.sum_append, Strand.weight]
        omega
    · exact Nat.le_refl _
  | waiting ticket =>
    rw [poll]
    split <;> exact Nat.le_refl _
  | done outcome time => exact Nat.le_refl _

theorem burden_pollAll (strands : List Strand) (timeline : Timeline) :
    (pollAll strands timeline).2.burden + ((pollAll strands timeline).1.map (Strand.weight timeline.now)).sum ≤
      timeline.burden + (strands.map (Strand.weight timeline.now)).sum := by
  induction strands generalizing timeline with
  | nil => exact Nat.le_refl _
  | cons strand rest ih =>
    have hfirst := burden_poll strand timeline
    have hrest := ih (timeline.poll strand).2
    rw [(poll_keeps strand timeline).1] at hrest
    dsimp only [pollAll]
    rw [List.map_cons, List.map_cons, List.sum_cons, List.sum_cons]
    omega

namespace Watch

variable {ε : Type} (watch : Watch ε)

/-- Bounds the turns that a wait takes. -/
def measure (strands : List Strand) (timeline : Timeline) : Nat :=
  timeline.burden + (strands.map (Strand.weight timeline.now)).sum +
    ((watch.wake :: watch.alarms).map (ahead timeline.now)).sum

theorem measure_pollAll (strands : List Strand) (timeline : Timeline) :
    watch.measure (pollAll strands timeline).1 (pollAll strands timeline).2 ≤ watch.measure strands timeline := by
  have hpoll := burden_pollAll strands timeline
  rw [measure, measure, (pollAll_keeps strands timeline).1]
  omega

variable {watch} {strands : List Strand} {final next : Timeline} {waited : Waited (List Strand) ε}

theorem measure_advance (hsound : timeline.Sound definitions owners)
    (hgoes : watch.advance strands timeline = .inr next) :
    watch.measure strands next < watch.measure strands timeline := by
  cases watch.advance_eq_iff.1 hgoes with
  | ran _ _ hready =>
    have hburden := timeline.burden_runReady
    have hlength := List.length_pos_iff.2 hready
    rw [measure, measure, runReady_now]
    omega
  | @moved time _ _ hready hnext =>
    have hlater := hsound.lt_of_nextInstant? hnext
    have hburden := timeline.burden_moveTo time
    have hstrands : (strands.map (Strand.weight time)).sum ≤ (strands.map (Strand.weight timeline.now)).sum :=
      List.sum_le_sum fun strand _ => strand.weight_anti (Nat.le_of_lt hlater)
    have halarms : ((watch.wake :: watch.alarms).map (ahead time)).sum ≤
        ((watch.wake :: watch.alarms).map (ahead timeline.now)).sum :=
      List.sum_le_sum fun alarm _ => ahead_anti (Nat.le_of_lt hlater) alarm
    rw [measure, measure, show (timeline.moveTo time).now = time from rfl]
    -- the instant is that of a job, which wakes, or of an alarm or a strand, which is past
    rcases (nextInstant?_eq_some_iff.1 hnext).1 with ⟨entry, hentry, rfl⟩ | ⟨hinstant, -⟩
    · have hawake : 0 < (timeline.sleeping.takeWhile fun other => other.1 ≤ entry.1).length := by
        rw [hsound.inOrder.takeWhile_eq, List.length_pos_iff_exists_mem]
        exact ⟨entry, List.mem_filter.2 ⟨hentry, by simp⟩⟩
      omega
    · rcases List.mem_append.1 hinstant with halarm | hstart
      · have hpast := List.sum_lt_sum (ahead time) (ahead timeline.now)
          (fun alarm _ => ahead_anti (Nat.le_of_lt hlater) alarm) ⟨time, halarm, ahead_lt hlater⟩
        omega
      · obtain ⟨strand, hstrand, hstart⟩ := List.mem_filterMap.1 hstart
        have hlighter : strand.weight time < strand.weight timeline.now := by
          cases strand with
          | idle start loader key =>
            cases hstart
            exact Nat.add_lt_add_left (ahead_lt hlater) 5
          | waiting ticket => cases hstart
          | done outcome time => cases hstart
        have hpast := List.sum_lt_sum (Strand.weight time) (Strand.weight timeline.now)
          (fun strand _ => strand.weight_anti (Nat.le_of_lt hlater)) ⟨strand, hstrand, hlighter⟩
        omega

theorem advance_sound (hsound : timeline.Sound definitions owners)
    (hgoes : watch.advance strands timeline = .inr next) : next.Sound definitions owners := by
  cases watch.advance_eq_iff.1 hgoes with
  | ran _ _ _ => exact hsound.runReady
  | moved _ _ _ _ => exact hsound.moveTo _

theorem Waits.sound (hwaits : watch.Waits strands timeline waited final) (hsound : timeline.Sound definitions owners) :
    final.Sound definitions owners := by
  induction hwaits with
  | @ends strands polled timeline looked waited hpoll hends =>
    have hlooked := hsound.pollAll strands
    rwa [hpoll] at hlooked
  | @goes strands polled timeline looked next final waited hpoll hgoes hwaits ih =>
    have hlooked := hsound.pollAll strands
    rw [hpoll] at hlooked
    exact ih (advance_sound hlooked hgoes)

theorem wait_waits {fuel : Nat} (hsound : timeline.Sound definitions owners)
    (hfuel : watch.measure strands timeline < fuel) :
    let result := wait watch.interruption? watch.alarms watch.wake fuel strands timeline
    watch.Waits strands timeline result.1 result.2 := by
  induction fuel generalizing strands timeline with
  | zero => omega
  | succ fuel ih =>
    have hlooked := watch.measure_pollAll strands timeline
    have hsound := hsound.pollAll strands
    rw [wait_succ]
    cases hadvance : watch.advance (pollAll strands timeline).1 (pollAll strands timeline).2 with
    | inl waited => exact .ends rfl hadvance
    | inr next =>
      have hless := measure_advance hsound hadvance
      exact .goes rfl hadvance (ih (advance_sound hsound hadvance) (by omega))

theorem measure_lt_turns (strands : List Strand) (timeline : Timeline) :
    watch.measure strands timeline < timeline.turns strands.length watch.alarms.length := by
  have hsum {α : Type} (weight : α → Nat) (bound : Nat) (hbound : ∀ element, weight element ≤ bound) (list : List α) :
      (list.map weight).sum ≤ list.length * bound := by
    have hle := (list.map weight).sum_le_card_nsmul bound (by simp [hbound])
    rwa [List.length_map] at hle
  have hjob (job : Job) : job.weight ≤ 5 := by cases job <;> simp [Job.weight]
  have hahead (now instant : Nat) : ahead now instant ≤ 1 := by
    rw [ahead]
    split <;> omega
  have hready := hsum Job.weight 5 hjob timeline.ready
  have hsleeping := hsum (fun entry : Nat × Job => entry.2.weight + 1) 6
    (fun entry => Nat.add_le_add_right (hjob entry.2) 1) timeline.sleeping
  have hstrands := hsum (Strand.weight timeline.now) 6 (fun strand => by
    cases strand with
    | idle start loader key => exact Nat.add_le_add_left (hahead _ start) 5
    | waiting ticket => exact Nat.zero_le 6
    | done outcome time => exact Nat.zero_le 6) strands
  have halarms := hsum (ahead timeline.now) 1 (hahead timeline.now) (watch.wake :: watch.alarms)
  rw [List.length_cons] at halarms
  rw [measure, burden, turns]
  omega

/-- The turns that a wait is given are enough. -/
theorem await_waits (watch : Watch ε) (hsound : timeline.Sound definitions owners) (strands : List Strand) :
    let result := timeline.await watch.interruption? watch.alarms watch.wake strands
    watch.Waits strands timeline result.1 result.2 :=
  wait_waits hsound (measure_lt_turns strands timeline)

/-! ### Turns that change nothing -/

/-- A watch whose interruptions begin with its alarms. -/
structure Alert (watch : Watch ε) : Prop where
  fires : ∀ alarm ∈ watch.alarms, ∀ time, alarm ≤ time → (watch.interruption? time).isSome
  causes : ∀ earlier time, (watch.interruption? time).isSome →
    (watch.interruption? earlier).isSome ∨ ∃ alarm ∈ watch.alarms, earlier < alarm ∧ alarm ≤ time

/-- It does not matter whether whoever waits has looked already. -/
theorem Waits.of_pollAll {polled : List Strand} {looked : Timeline} (hsound : timeline.Sound definitions owners)
    (hpoll : pollAll strands timeline = (polled, looked)) (hwaits : watch.Waits polled looked waited final) :
    watch.Waits strands timeline waited final := by
  have hrest := hsound.pollAll_rest strands
  rw [hpoll] at hrest
  have hagain := pollAll_of_rest hrest
  cases hwaits with
  | ends hpoll' hends =>
    rw [hagain] at hpoll'
    cases hpoll'
    exact .ends hpoll hends
  | goes hpoll' hgoes hwaits =>
    rw [hagain] at hpoll'
    cases hpoll'
    exact .goes hpoll hgoes hwaits

/-- There is nothing for a wait to do until after some time. -/
structure Skips (watch : Watch ε) (strands : List Strand) (time : Nat) (timeline : Timeline) : Prop where
  opened : ¬ (strands.all Strand.isDone && watch.wake ≤ timeline.now)
  quiet : watch.interruption? timeline.now = none
  ready : timeline.ready = []
  later : timeline.now ≤ time
  jobs : ∀ entry ∈ timeline.sleeping, time < entry.1
  instants : ∀ instant ∈ watch.instants strands, timeline.now < instant → time < instant

/-- The clock may move on while there is nothing to do. A wait that stalls is the same but for the clock. -/
theorem Waits.of_skips {time : Nat} (halert : watch.Alert) (hrest : ∀ strand ∈ strands, strand.Rests timeline)
    (hskips : watch.Skips strands time timeline)
    (hwaits : watch.Waits strands { timeline with now := time } waited final) :
    watch.Waits strands timeline waited final ∨
      waited = .stalled ∧ final = { timeline with now := time } ∧
        watch.Waits strands timeline .stalled timeline := by
  obtain ⟨hopen, hquiet, hready, hlater, -, hgap⟩ := hskips
  have hpoll := pollAll_of_rest hrest
  have hrest' : ∀ strand ∈ strands, strand.Rests { timeline with now := time } := by
    intro strand hstrand
    have hrests := hrest strand hstrand
    cases strand with
    | idle start loader key =>
      exact hgap start (List.mem_append_right _ (List.mem_filterMap.2 ⟨_, hstrand, rfl⟩)) hrests
    | waiting ticket => exact hrests
    | done outcome time => trivial
  have hpoll' := pollAll_of_rest hrest'
  have hopen' : ¬ (strands.all Strand.isDone && watch.wake ≤ time) := by
    intro hover
    simp only [Bool.and_eq_true, decide_eq_true_eq] at hopen hover
    have hwake := hgap watch.wake (List.mem_cons_self) (by
      by_contra hpast
      exact hopen ⟨hover.1, by omega⟩)
    omega
  have hquiet' : watch.interruption? time = none := by
    rw [← Option.not_isSome_iff_eq_none]
    intro hsome
    rcases halert.causes timeline.now time hsome with hsome | ⟨alarm, halarm, hafter, hbefore⟩
    · rw [hquiet] at hsome
      cases hsome
    · have hlate := hgap alarm (List.mem_cons_of_mem _ (List.mem_append_left _ halarm)) hafter
      omega
  have hnext : Timeline.nextInstant? (watch.instants strands) { timeline with now := time } =
      timeline.nextInstant? (watch.instants strands) := by
    rw [nextInstant?, nextInstant?]
    congr 2
    apply List.filter_congr
    intro instant hinstant
    rw [Bool.eq_iff_iff, decide_eq_true_eq, decide_eq_true_eq]
    exact ⟨fun hafter => Nat.lt_of_le_of_lt hlater hafter, hgap instant hinstant⟩
  cases hinstant : timeline.nextInstant? (watch.instants strands) with
  | some next =>
    have hgoes' : watch.advance strands { timeline with now := time } = .inr (timeline.moveTo next) :=
      watch.advance_eq_iff.2 (.moved hopen' hquiet' hready (hnext.trans hinstant))
    have hgoes := watch.advance_eq_iff.2 (.moved hopen hquiet hready hinstant)
    cases hwaits with
    | ends hpoll'' hends =>
      rw [hpoll'] at hpoll''
      cases hpoll''
      rw [hgoes'] at hends
      cases hends
    | goes hpoll'' hgoes'' hwaits =>
      rw [hpoll'] at hpoll''
      cases hpoll''
      rw [hgoes'] at hgoes''
      cases hgoes''
      exact .inl (.goes hpoll hgoes hwaits)
  | none =>
    have hends' : watch.advance strands { timeline with now := time } = .inl .stalled :=
      watch.advance_eq_iff.2 (.stalled hopen' hquiet' hready (hnext.trans hinstant))
    have hends := watch.advance_eq_iff.2 (.stalled hopen hquiet hready hinstant)
    obtain ⟨rfl, rfl⟩ := hwaits.unique (.ends hpoll' hends')
    exact .inr ⟨rfl, rfl, .ends hpoll hends⟩

end Watch

end RelationalGraphQL.Loader.Timeline
