import OsCortex.Syscall.TimerfdCore

/-! Expirations are counted once each, whichever of the observers looks at the timer. -/

namespace OsCortex.Timerfd

open State Finset TimerState

def expirations (first period : Nat) : Option Nat → Nat
  | none => 0
  | some now =>
    ((Finset.range (now + 1)).filter fun i =>
      (period = 0 → i = 0) ∧ first + i * period ≤ now).card

lemma expirations_before {first period now : Nat} (early : now < first) :
    expirations first period (some now) = 0 := by
  rw [expirations, card_eq_zero, filter_eq_empty_iff]
  rintro _ _ ⟨_, _⟩
  omega

lemma expirations_oneShot {first now : Nat} (reached : first ≤ now) :
    expirations first 0 (some now) = 1 := by
  have only : ((range (now + 1)).filter fun i => ((0 : Nat) = 0 → i = 0) ∧
      first + i * 0 ≤ now) = {0} := by
    ext i
    simp only [mem_filter, mem_range, mem_singleton, forall_const]
    omega
  rw [expirations, only, card_singleton]

lemma expirations_periodic {first period now : Nat} (periodic : 0 < period)
    (reached : first ≤ now) :
    expirations first period (some now) = 1 + (now - first) / period := by
  have initial : ((range (now + 1)).filter fun i => (period = 0 → i = 0) ∧
      first + i * period ≤ now) = range (1 + (now - first) / period) := by
    ext i
    simp only [mem_filter, mem_range]
    have bound : i < 1 + (now - first) / period ↔ i * period ≤ now - first := by
      rw [Nat.lt_one_add_iff, Nat.le_div_iff_mul_le periodic]
    have large : i ≤ i * period := Nat.le_mul_of_pos_right i periodic
    constructor
    · rintro ⟨_, _, hit⟩
      omega
    · intro hit
      exact ⟨by omega, fun zero => by omega, by omega⟩
  rw [expirations, initial, card_range]

lemma expirations_mono (first period : Nat) {now : Nat} {seen : Option Nat}
    (earlier : ∀ before, seen = some before → before ≤ now) :
    expirations first period seen ≤ expirations first period (some now) := by
  cases seen with
  | none => exact Nat.zero_le _
  | some before =>
    have order := earlier before rfl
    refine card_le_card fun i member => ?_
    simp only [mem_filter, mem_range] at member ⊢
    exact ⟨by omega, member.2.1, by omega⟩

def nextDeadline (first period count : Nat) : Nat :=
  if period = 0 ∧ count ≠ 0 then 0 else first + count * period

structure Counted (first period : Nat) (seen : Option Nat) (returned : Nat) (timer : TimerState) :
    Prop where
  samePeriod : timer.periodNs = period
  deadline : timer.deadlineNs = nextDeadline first period (expirations first period seen)
  count : returned + timer.pending = expirations first period seen

def TimerState.Unsaturated (timer : TimerState) (now : Nat) : Prop :=
  timer.due now = true →
    let n := if timer.periodNs = 0 then 1 else timer.elapsedPeriods now
    timer.deadlineNs + n * timer.periodNs < 2 ^ 64 ∧ timer.pending + n < 2 ^ 64

variable {first period now returned : Nat} {seen : Option Nat} {timer : TimerState}

lemma due_iff : timer.due now ↔ timer.deadlineNs ≠ 0 ∧ timer.deadlineNs ≤ now := by
  simp [due]

lemma expire_unsaturated (unsaturated : timer.Unsaturated now) (due : timer.due now)
    (periodic : timer.periodNs ≠ 0) :
    timer.expire now =
      { timer with
        deadlineNs := timer.deadlineNs + timer.elapsedPeriods now * timer.periodNs
        pending := timer.pending + timer.elapsedPeriods now } := by
  have fits := unsaturated due
  simp only [if_neg periodic] at fits
  have wraps : timer.elapsedPeriods now % 2 ^ 64 = timer.elapsedPeriods now :=
    Nat.mod_eq_of_lt (by omega)
  have product : timer.elapsedPeriods now * timer.periodNs % 2 ^ 64 =
      timer.elapsedPeriods now * timer.periodNs := Nat.mod_eq_of_lt (by omega)
  simp only [expire, due, if_true, if_pos periodic, wraps, product, saturatingAdd]
  rw [Nat.min_eq_left (by omega), Nat.min_eq_left (by omega)]

lemma Counted.expire_periodic (counted : Counted first period seen returned timer)
    (periodic : 0 < period) (earlier : ∀ before, seen = some before → before ≤ now)
    (armed : first ≠ 0) (unsaturated : timer.Unsaturated now) :
    Counted first period (some now) returned (timer.expire now) := by
  obtain ⟨rfl, deadline, count⟩ := counted
  have grows := expirations_mono first timer.periodNs earlier
  rw [nextDeadline, if_neg (by omega)] at deadline
  generalize expirations first timer.periodNs seen = k at deadline count grows
  by_cases due : timer.due now
  · obtain ⟨_, reached⟩ := due_iff.mp due
    -- the periods since the stored deadline come on top of those counted before
    have total : expirations first timer.periodNs (some now) = k + timer.elapsedPeriods now := by
      have split : now - first = (now - timer.deadlineNs) + k * timer.periodNs := by omega
      rw [expirations_periodic periodic (by omega), split, Nat.add_mul_div_right _ _ periodic,
        elapsedPeriods]
      omega
    rw [expire_unsaturated unsaturated due (by omega)]
    refine ⟨rfl, ?_, ?_⟩
    · rw [total, nextDeadline, if_neg (by omega), deadline, Nat.add_mul, Nat.add_assoc]
    · rw [total, ← count, Nat.add_assoc]
  have early : now < first + k * timer.periodNs := by
    by_contra late
    refine due (due_iff.mpr ?_)
    omega
  have same : expirations first timer.periodNs (some now) = k := by
    by_cases reached : first ≤ now
    · have bound : (now - first) / timer.periodNs < k :=
        (Nat.div_lt_iff_lt_mul periodic).mpr (by omega)
      rw [expirations_periodic periodic reached] at grows ⊢
      omega
    · rw [expirations_before (by omega)] at grows ⊢
      omega
  rw [expire, if_neg due]
  refine ⟨rfl, ?_, by rw [same, count]⟩
  rw [same, nextDeadline, if_neg (by omega), deadline]

lemma expirations_oneShot_le (first : Nat) (seen : Option Nat) : expirations first 0 seen ≤ 1 := by
  cases seen with
  | none => exact Nat.zero_le _
  | some now =>
    by_cases reached : first ≤ now
    · rw [expirations_oneShot reached]
    · rw [expirations_before (by omega)]
      exact Nat.zero_le _

lemma Counted.expire_oneShot (counted : Counted first 0 seen returned timer)
    (earlier : ∀ before, seen = some before → before ≤ now) (armed : first ≠ 0)
    (unsaturated : timer.Unsaturated now) :
    Counted first 0 (some now) returned (timer.expire now) := by
  obtain ⟨oneShot, deadline, count⟩ := counted
  have grows := expirations_mono first 0 earlier
  have most := expirations_oneShot_le first (some now)
  generalize expirations first 0 seen = k at deadline count grows
  by_cases due : timer.due now
  · obtain ⟨pendingDeadline, _⟩ := due_iff.mp due
    have fresh : k = 0 := by
      by_contra fired
      rw [nextDeadline, if_pos ⟨rfl, fired⟩] at deadline
      exact pendingDeadline deadline
    subst fresh
    have atFirst : timer.deadlineNs = first := by simpa [nextDeadline] using deadline
    have one : expirations first 0 (some now) = 1 := expirations_oneShot (by omega)
    have fits := (unsaturated due).2
    have expired : timer.expire now =
        { timer with deadlineNs := 0, pending := timer.pending + 1 } := by
      simp only [expire, due, if_true, oneShot, ne_eq, not_true_eq_false, if_false,
        saturatingAdd]
      rw [Nat.min_eq_left (by omega)]
    rw [expired]
    refine ⟨oneShot, ?_, ?_⟩
    · rw [one, nextDeadline, if_pos ⟨rfl, by decide⟩]
    rw [one]
    show returned + (timer.pending + 1) = 1
    omega
  have same : expirations first 0 (some now) = k := by
    by_cases fired : k = 0
    · subst fired
      have atFirst : timer.deadlineNs = first := by simpa [nextDeadline] using deadline
      refine expirations_before ?_
      by_contra late
      exact due (due_iff.mpr ⟨by omega, by omega⟩)
    · omega
  rw [expire, if_neg due]
  exact ⟨oneShot, by rw [same, deadline], by rw [same, count]⟩

lemma Counted.expire (counted : Counted first period seen returned timer)
    (earlier : ∀ before, seen = some before → before ≤ now) (armed : first ≠ 0)
    (unsaturated : timer.Unsaturated now) :
    Counted first period (some now) returned (timer.expire now) := by
  rcases Nat.eq_zero_or_pos period with rfl | periodic
  · exact counted.expire_oneShot earlier armed unsaturated
  · exact counted.expire_periodic periodic earlier armed unsaturated

lemma Counted.not_due (counted : Counted first period (some now) returned timer) :
    timer.due now = false := by
  refine Bool.eq_false_iff.mpr fun due => ?_
  obtain ⟨nonzero, _⟩ := due_iff.mp due
  have deadline := counted.deadline
  by_cases early : now < first
  · rw [expirations_before early, nextDeadline, if_neg (by omega)] at deadline
    omega
  rcases Nat.eq_zero_or_pos period with rfl | periodic
  · rw [expirations_oneShot (by omega), nextDeadline, if_pos ⟨rfl, by decide⟩] at deadline
    exact nonzero deadline
  rw [expirations_periodic periodic (by omega), nextDeadline, if_neg (by omega)] at deadline
  have next := Nat.lt_mul_div_succ (now - first) periodic
  rw [Nat.mul_comm, Nat.add_comm _ 1] at next
  omega

variable {fd : Nat} {state : State}

def Tracks (fd first period now : Nat) (state : State) : Prop :=
  ∃ timer, state.timers fd = some timer ∧
    Counted first period (state.seen fd) (state.returned fd) timer ∧
    (∀ before, state.seen fd = some before → before ≤ now) ∧ timer.Unsaturated now

section

variable (tracks : Tracks fd first period now state)
include tracks

lemma Tracks.observe (armed : first ≠ 0) {other : Nat} (found : state.timers other = some timer) :
    Tracks fd first period now (state.observe now other timer) := by
  obtain ⟨tracked, here, counted, earlier, unsaturated⟩ := tracks
  by_cases same : fd = other
  · subst same
    obtain rfl := Option.some.inj (here.symm.trans found)
    have after := counted.expire earlier armed unsaturated
    refine ⟨tracked.expire now, by simp [State.observe, State.set], ?_, ?_, ?_⟩
    · simpa [State.observe, State.set] using after
    · intro before isBefore
      simp only [State.observe, if_true, Option.some.injEq] at isBefore
      omega
    intro due
    rw [after.not_due] at due
    cases due
  · refine ⟨tracked, ?_, ?_, ?_, unsaturated⟩ <;> simpa [State.observe, State.set, if_neg same]

lemma Tracks.drain {other : Nat} (found : state.timers other = some timer) :
    Tracks fd first period now (state.drain other timer) := by
  obtain ⟨tracked, here, counted, earlier, unsaturated⟩ := tracks
  by_cases same : fd = other
  · subst same
    obtain rfl := Option.some.inj (here.symm.trans found)
    refine ⟨{ tracked with pending := 0 }, by simp [State.drain, State.set], ?_, earlier, ?_⟩
    · have count := counted.count
      simp only [State.drain, State.set, if_true]
      exact ⟨counted.samePeriod, counted.deadline, count⟩
    intro due
    obtain ⟨deadlineFits, pendingFits⟩ := unsaturated due
    exact ⟨deadlineFits, Nat.lt_of_le_of_lt (Nat.add_le_add_right (Nat.zero_le _) _) pendingFits⟩
  · refine ⟨tracked, ?_, ?_, earlier, unsaturated⟩ <;> simpa [State.drain, State.set, if_neg same]

lemma Tracks.collectReady (armed : first ≠ 0)
    (readable : Nat → Bool) (maxevents : Int) (entries : List Nat) (count : Int) :
    Tracks fd first period now (collectReady readable maxevents now entries count state).1 := by
  induction entries generalizing count state with
  | nil => exact tracks
  | cons entry rest ih =>
    rw [collectReady]
    split
    · exact tracks
    split
    · rename_i found
      exact ih (tracks.observe armed found) _
    · exact ih tracks _

lemma Tracks.read (armed : first ≠ 0) (other bufPtr len : Nat) :
    Tracks fd first period now (state.read other bufPtr len now).1 := by
  simp only [State.read]
  iterate 3
    split
    · exact tracks
  rename_i found
  split
  · exact tracks
  split
  · refine (tracks.observe armed found).drain ?_
    simp [State.observe, State.set]
  · exact tracks.observe armed found

lemma Tracks.checkTimerfds (armed : first ≠ 0) :
    Tracks fd first period now (state.checkTimerfds now) := by
  have ⟨timer, here, _⟩ := tracks
  obtain ⟨after, found, rest⟩ := tracks.observe armed here
  refine ⟨after, ?_, ?_⟩
  · rw [← found]
    simp [State.checkTimerfds, State.observe, State.set, here]
  · simpa [State.checkTimerfds, State.observe, State.set, here] using rest

end

def Undisturbed (fd : Nat) (state : State) : Call → Prop
  | .tick now | .scan _ _ _ _ now | .read _ _ _ now =>
    state.clock ≤ now ∧ ∀ timer, state.timers fd = some timer → timer.Unsaturated now
  | .settime other _ _ now => other ≠ fd ∧ state.clock ≤ now
  | .write other _ _ _ => other ≠ fd
  | .forceWake => False
  | .bootstrap => fd ≠ 73

structure Kept (fd first period : Nat) (state : State) : Prop where
  timer : ∃ timer, state.timers fd = some timer ∧
    Counted first period (state.seen fd) (state.returned fd) timer
  earlier : ∀ before, state.seen fd = some before → before ≤ state.clock

lemma Armed.kept (armed : Armed fd first period state) : Kept fd first period state := by
  obtain ⟨timer, seen, returned⟩ := armed
  refine ⟨⟨_, timer, ?_⟩, ?_⟩
  · rw [seen, returned]
    exact ⟨rfl, by simp [nextDeadline, expirations], rfl⟩
  intro before isBefore
  rw [seen] at isBefore
  cases isBefore

lemma Kept.observed {after : State} (kept : Kept fd first period state) (later : state.clock ≤ now)
    (unsaturated : ∀ timer, state.timers fd = some timer → timer.Unsaturated now)
    (observes : Tracks fd first period now state → Tracks fd first period now after) :
    Kept fd first period { after with clock := now } := by
  obtain ⟨⟨timer, here, counted⟩, earlier⟩ := kept
  obtain ⟨timer', here', counted', earlier', _⟩ := observes ⟨timer, here, counted,
    fun before isBefore => Nat.le_trans (earlier before isBefore) later, unsaturated timer here⟩
  exact ⟨⟨timer', here', counted'⟩, earlier'⟩

lemma Kept.untouched {after : State} (kept : Kept fd first period state)
    (timers : after.timers fd = state.timers fd) (seen : after.seen fd = state.seen fd)
    (returned : after.returned fd = state.returned fd) (later : state.clock ≤ after.clock) :
    Kept fd first period after := by
  obtain ⟨timer, earlier⟩ := kept
  refine ⟨by rw [timers, seen, returned]; exact timer, fun before isBefore => ?_⟩
  rw [seen] at isBefore
  exact Nat.le_trans (earlier before isBefore) later

lemma step_kept {call : Call} (kept : Kept fd first period state) (armed : first ≠ 0)
    (undisturbed : Undisturbed fd state call) : Kept fd first period (state.step call) := by
  cases call with
  | tick now =>
    exact kept.observed undisturbed.1 undisturbed.2 fun tracks => tracks.checkTimerfds armed
  | scan watched readable eventsOut maxevents now =>
    refine kept.observed undisturbed.1 undisturbed.2 fun tracks => ?_
    simp only [epollCollectReady]
    split
    · exact tracks
    split
    · exact tracks.collectReady armed readable maxevents _ 0
    · exact tracks
  | read other bufPtr len now =>
    exact kept.observed undisturbed.1 undisturbed.2 fun tracks => tracks.read armed other bufPtr len
  | settime other flags spec now =>
    have different : fd ≠ other := Ne.symm undisturbed.1
    refine kept.untouched ?_ ?_ ?_ undisturbed.2 <;>
      simp [State.step, State.settime, State.set, if_neg different]
  | write other bufPtr len count =>
    have different : fd ≠ other := Ne.symm undisturbed
    simp only [State.step, write]
    split
    · refine kept.untouched ?_ rfl rfl (Nat.le_refl _)
      simp [State.set, if_neg different]
    · exact kept
  | forceWake => exact undisturbed.elim
  | bootstrap =>
    simp only [State.step, bootstrap]
    split
    · refine kept.untouched ?_ rfl rfl (Nat.le_refl _)
      simp only [State.set, if_neg (show fd ≠ 73 from undisturbed)]
    · exact kept

def sampleState : State :=
  { timers := fun fd => if fd = 5 then some ⟨100, 10, 0⟩ else none
    seen := fun _ => none
    returned := fun _ => 0
    clock := 0 }

def sampleCalls : List Call :=
  [.tick 105, .scan (some [7, 5, 5]) (fun _ => false) 1 8 112, .read 5 1 8 131]

end OsCortex.Timerfd
