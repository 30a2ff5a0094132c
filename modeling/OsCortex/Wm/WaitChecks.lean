import OsCortex.Wm.EventQueueChecks
import OsCortex.Wm.WaitCore

/-!
There is one set of cells for all waiters, so a waiter is woken for its events and at its deadline
as long as it is alone.
-/

namespace OsCortex.Wm

open List Function Option EventList WmState Bool

variable {leader : Nat → Nat} {state next : WmState} {pid : Nat} {wait : Wait} {free : Bool}

def Runnable (state : WmState) (pid : Nat) : Prop :=
  state.blocked pid = false ∨ state.pendingWakes pid = true

def WmState.pushes (leader : Nat → Nat) (state : WmState) : Label → List Nat
  | .push ownerPid _ _ _ _ _ => [canonicalPid leader ownerPid]
  | .vsyncBatonPost caller baton _ => if baton = 0 then [] else [canonicalPid leader caller]
  | .call pid buffer _ free =>
    if pid ≠ 0 ∧ (state.drain leader free pid buffer).1.lastDrainSlack = true then [0] else []
  | .advance pid free _ =>
    match state.calls pid with
    | some wait =>
      if (wait.point = .drain ∨ wait.point = .out) ∧
          (state.drain leader free pid wait.buffer).1.lastDrainSlack = true then [0] else []
    | none => []
  | _ => []

def Woken (leader : Nat → Nat) (state : WmState) (label : Label) : Prop :=
  ∀ next, state.step leader label = some next → ∀ pid wait, state.calls pid = some wait →
    wait.point.asleep = true →
    ((∃ owner ∈ state.pushes leader label,
        ownerVisibleToConsumer owner (canonicalPid leader pid) = true) → Runnable next pid) ∧
      ∀ free, label = .tick free → wait.due ≤ state.now → Runnable next pid

def WmState.Arming (state : WmState) : Prop :=
  ∃ pid wait, state.calls pid = some wait ∧ wait.point.armed = true

/-- One waiter at a time. Until it sleeps nothing is taken out of the queue and no baton is
posted. -/
def Alone (state : WmState) : Label → Prop
  | .call pid buffer _ _ =>
    (∀ other, state.calls other = none) ∧ state.waiterPid ≠ pid ∧ buffer.writable = true
  | .push _ _ _ _ _ _ => state.Arming → state.queue.len < eventCap
  | .vsyncBatonPost _ _ _ => ¬ state.Arming
  | .pop _ => ¬ state.Arming
  | _ => True

def Eases (state next : WmState) : Prop :=
  ∀ pid, next.blocked pid = true → state.blocked pid = true ∧
    (state.pendingWakes pid = true → next.pendingWakes pid = true)

lemma Eases.refl (state : WmState) : Eases state state := fun _ blocked => ⟨blocked, id⟩

lemma Eases.trans {middle : WmState} (first : Eases state middle) (second : Eases middle next) :
    Eases state next := by
  intro pid blocked
  obtain ⟨before, pending⟩ := second pid blocked
  obtain ⟨start, kept⟩ := first pid before
  exact ⟨start, fun wake => pending (kept wake)⟩

lemma Runnable.eases (runnable : Runnable state pid) (eases : Eases state next) :
    Runnable next pid := by
  cases blocked : next.blocked pid with
  | false => exact .inl blocked
  | true =>
    obtain ⟨before, pending⟩ := eases pid blocked
    rcases runnable with idle | wake
    · rw [before] at idle
      cases idle
    · exact .inr (pending wake)

lemma wakeProcess_spec (state : WmState) (free : Bool) (pid : Nat) :
    Eases state (state.wakeProcess free pid) ∧ Runnable (state.wakeProcess free pid) pid ∧
      ∃ blocked pendingWakes,
        state.wakeProcess free pid = { state with blocked, pendingWakes } := by
  cases free with
  | false =>
    refine ⟨fun other blocked => ⟨blocked, fun wake => ?_⟩, .inr ?_, _, _, rfl⟩
    · by_cases same : other = pid
      · simp [wakeProcess, same]
      · simpa [wakeProcess, same] using wake
    · simp [wakeProcess]
  | true =>
    refine ⟨fun other blocked => ?_, .inl ?_, _, _, rfl⟩
    · simp only [wakeProcess, if_true, and_eq_true, not_eq_true'] at blocked
      refine ⟨blocked.1, fun wake => ?_⟩
      by_cases same : other = pid
      · simp [same] at blocked
      · simp [same, wake] at blocked
    · simp [wakeProcess]

lemma unblock_eases (state : WmState) (pid : Nat) : Eases state (state.setBlocked pid false) := by
  intro other blocked
  by_cases same : other = pid
  · simp [setBlocked, same] at blocked
  · simp only [setBlocked, update_of_ne same] at blocked
    exact ⟨blocked, id⟩

lemma wakeWaiter_spec (state : WmState) (free : Bool) :
    Eases state (state.wakeWaiter free) ∧ Runnable (state.wakeWaiter free) state.wmWaiter ∧
      ∃ blocked pendingWakes,
        state.wakeWaiter free = { state with wmWaiter := 0, blocked, pendingWakes } :=
  wakeProcess_spec { state with wmWaiter := 0 } free state.wmWaiter

lemma wakeTarget_spec (state : WmState) (free : Bool) (owner kind : Nat) :
    Eases state (state.wakeTarget free owner kind) ∧
      ∃ blocked pendingWakes,
        state.wakeTarget free owner kind = { state with blocked, pendingWakes } := by
  have same : Eases state state ∧ ∃ blocked pendingWakes,
      state = { state with blocked, pendingWakes } := ⟨.refl state, _, _, rfl⟩
  rw [wakeTarget]
  split
  · obtain ⟨target, found⟩ : ∃ target, target = if owner ≠ 0 then owner else state.focusPid :=
      ⟨_, rfl⟩
    rw [← found]
    dsimp only
    split
    · obtain ⟨eases, _, fields⟩ := wakeProcess_spec state free target
      exact ⟨eases, fields⟩
    · exact same
  · exact same

structure Outside (state next : WmState) : Prop where
  eases : Eases state next
  waiter : next.wmWaiter = state.wmWaiter ∨ Runnable next state.wmWaiter
  pid : next.waiterPid = state.waiterPid
  deadline : next.waiterDeadline = state.waiterDeadline
  now : state.now ≤ next.now
  calls : next.calls = state.calls

lemma announce_spec (leader : Nat → Nat) (state : WmState) (free : Bool) (owner kind : Nat) :
    let next := (state.notifyWaiter leader free owner).wakeTarget free owner kind
    let seen := ownerVisibleToConsumer owner (canonicalPid leader state.wmWaiter)
    Outside state next ∧ next.queue = state.queue ∧ (next.wmWaiter = state.wmWaiter ∨ seen) ∧
      (state.wmWaiter ≠ 0 → seen → Runnable next state.wmWaiter) := by
  intro next seen
  obtain ⟨targetEases, _, _, fields⟩ :=
    wakeTarget_spec (state.notifyWaiter leader free owner) free owner kind
  have final : next = (state.notifyWaiter leader free owner).wakeTarget free owner kind := rfl
  rw [final]
  by_cases notified : state.wmWaiter ≠ 0 ∧ seen
  · obtain ⟨eases, runnable, _, _, woken⟩ := wakeWaiter_spec state free
    rw [notifyWaiter, if_pos notified] at fields targetEases ⊢
    have ran := runnable.eases targetEases
    refine ⟨⟨eases.trans targetEases, .inr ran, ?_, ?_, ?_, ?_⟩, ?_, .inr notified.2,
      fun _ _ => ran⟩
    all_goals rw [fields, woken]
  rw [notifyWaiter, if_neg notified] at fields targetEases ⊢
  refine ⟨⟨targetEases, .inl ?_, ?_, ?_, ?_, ?_⟩, ?_, .inl ?_,
    fun some visible => absurd ⟨some, visible⟩ notified⟩
  all_goals rw [fields]

lemma pushEventFor_spec (leader : Nat → Nat) (state : WmState) (free : Bool)
    (ownerPid kind flags a b : Nat) :
    let next := state.pushEventFor leader free ownerPid kind flags a b
    let seen := ownerVisibleToConsumer (canonicalPid leader ownerPid)
      (canonicalPid leader state.wmWaiter)
    Outside state next ∧
      next.queue = state.queue.push { kind, flags, a, b } (canonicalPid leader ownerPid) ∧
      (next.wmWaiter = state.wmWaiter ∨ seen) ∧
      (state.wmWaiter ≠ 0 → seen → Runnable next state.wmWaiter) := by
  obtain ⟨outside, queue, rest⟩ := announce_spec leader { state with
    queue := state.queue.push { kind, flags, a, b } (canonicalPid leader ownerPid) } free
    (canonicalPid leader ownerPid) kind
  exact ⟨{ outside with }, queue, rest⟩

lemma vsyncBatonPost_spec (leader : Nat → Nat) (state : WmState) (free : Bool)
    (caller : Nat) {baton : Nat} (some : baton ≠ 0) :
    let next := state.vsyncBatonPost leader free caller baton
    Outside state next ∧
      next.queue = state.queue.pushFront { kind := evVsync, b := baton }
        (canonicalPid leader caller) ∧
      (state.wmWaiter ≠ 0 → Runnable next state.wmWaiter) := by
  intro next
  obtain ⟨pushed, same⟩ : ∃ pushed : WmState, pushed = { state with
      queue := state.queue.pushFront { kind := evVsync, b := baton }
        (canonicalPid leader caller) } := ⟨_, rfl⟩
  obtain ⟨first, _, _, _, woken⟩ := wakeProcess_spec pushed free (canonicalPid leader caller)
  obtain ⟨posted, there⟩ : ∃ posted,
      posted = pushed.wakeProcess free (canonicalPid leader caller) := ⟨_, rfl⟩
  rw [← there] at first woken
  have final : next = (if posted.wmWaiter ≠ 0 then posted.wakeWaiter free else posted).setBlocked
      caller false := by
    rw [there, same]
    show state.vsyncBatonPost leader free caller baton = _
    rw [vsyncBatonPost, if_neg some]
  have waiter : posted.wmWaiter = state.wmWaiter := by rw [woken, same]
  have eases : Eases state posted := by
    rw [same] at first
    exact first
  rw [final]
  by_cases waits : posted.wmWaiter ≠ 0
  · obtain ⟨second, runnable, _, _, fields⟩ := wakeWaiter_spec posted free
    rw [if_pos waits]
    have ran := runnable.eases (unblock_eases (posted.wakeWaiter free) caller)
    rw [waiter] at ran
    refine ⟨⟨(eases.trans second).trans (unblock_eases _ _), .inr ran, ?_, ?_, ?_, ?_⟩, ?_,
      fun _ => ran⟩
    all_goals rw [setBlocked, fields, woken, same]
  rw [if_neg waits]
  refine ⟨⟨eases.trans (unblock_eases _ _), .inl waiter, ?_, ?_, ?_, ?_⟩, ?_, fun some => ?_⟩
  iterate 5 rw [setBlocked, woken, same]
  · exact absurd (waiter ▸ some) waits

lemma tick_fields (state : WmState) (free : Bool) :
    Eases state (state.tick free) ∧ ∃ blocked pendingWakes,
      state.tick free = { state with blocked, pendingWakes } := by
  rw [tick]
  split
  · obtain ⟨eases, _, fields⟩ := wakeProcess_spec state free state.waiterPid
    exact ⟨eases, fields⟩
  · exact ⟨.refl state, _, _, rfl⟩

def HasVisible (queue : EventQueue) (pid : Nat) : Prop :=
  ∃ entry ∈ queue.contents, entry.visible pid = true

def Sound (queue : EventQueue) : Prop := ∃ list, Refines queue list

variable {queue : EventQueue} {list : EventList}

lemma Sound.push (sound : Sound queue) (ev : WmEvent) (owner : Nat) :
    Sound (queue.push ev owner) := by
  obtain ⟨_, refines⟩ := sound
  exact ⟨_, push_refines refines⟩

lemma Sound.pushFront (sound : Sound queue) (ev : WmEvent) (owner : Nat) :
    Sound (queue.pushFront ev owner) := by
  obtain ⟨_, refines⟩ := sound
  exact ⟨_, pushFront_refines refines⟩

lemma Sound.popFor (sound : Sound queue) (pid : Nat) : Sound (queue.popFor pid).1 := by
  obtain ⟨_, refines⟩ := sound
  exact ⟨_, (popFor_refines refines).1⟩

lemma hasVisible_iff (refines : Refines queue list) :
    HasVisible queue pid ↔ ∃ owner, ownerVisibleToConsumer owner pid ∧
      HasOwner owner list.entries := by
  rw [HasVisible, refines.entries]
  constructor
  · rintro ⟨entry, member, visible⟩
    exact ⟨entry.owner, visible, entry, member, rfl⟩
  · rintro ⟨owner, visible, entry, member, rfl⟩
    exact ⟨entry, member, visible⟩

lemma hasVisible_push (sound : Sound queue) (ev : WmEvent) {owner : Nat}
    (visible : ownerVisibleToConsumer owner pid) :
    HasVisible (queue.push ev owner) pid := by
  obtain ⟨_, refines⟩ := sound
  exact (hasVisible_iff (push_refines refines)).2 ⟨owner, visible, hasOwner_accept ..⟩

lemma HasVisible.push (seen : HasVisible queue pid) (sound : Sound queue) (ev : WmEvent)
    (owner : Nat) (room : queue.len < eventCap) : HasVisible (queue.push ev owner) pid := by
  obtain ⟨list, refines⟩ := sound
  obtain ⟨old, visible, waits⟩ := (hasVisible_iff refines).1 seen
  refine (hasVisible_iff (push_refines refines)).2 ⟨old, visible, ?_⟩
  exact @HasOwner.accept { list with nextSeq := seqAfter list.nextSeq } old waits
    (refines.length ▸ room) _

lemma pendingFor_pos : 0 < queue.pendingFor pid ↔ HasVisible queue pid := by
  have counted : queue.pendingFor pid = queue.contents.countP (Entry.visible pid) := by
    rw [EventQueue.contents, Circular.contents, countP_map]
    rfl
  rw [counted, countP_pos_iff]
  rfl

lemma popFor_none (none : (queue.popFor pid).2 = none) : (queue.popFor pid).1 = queue := by
  rw [EventQueue.popFor] at none ⊢
  split
  · rfl
  rename_i some
  rw [if_neg some] at none
  split
  · rfl
  rename_i found
  rw [found] at none
  cases none

structure Drains (state next : WmState) (drained : Drained) : Prop where
  eases : Eases state next
  queue : Sound state.queue → Sound next.queue
  pid : next.waiterPid = state.waiterPid
  deadline : next.waiterDeadline = state.waiterDeadline
  now : state.now ≤ next.now
  calls : next.calls = state.calls
  quiet : drained ≠ .event → next.pollRequested drained = false →
    next = { state with lastDrainSlack := false }

lemma drain_drains (leader : Nat → Nat) (state : WmState) (free : Bool) (pid : Nat)
    {buffer : Buffer} (writable : buffer.writable) :
    Drains state (state.drain leader free pid buffer).1 (state.drain leader free pid buffer).2 := by
  rw [drain]
  split
  · cases popped : { state with lastDrainSlack := false }.popEventFor leader (leader pid) with
    | mk left event =>
      simp only [popEventFor] at popped
      obtain ⟨rfl, returned⟩ := Prod.mk.inj popped
      cases event with
      | none =>
        have same := popFor_none returned
        simp only [same]
        exact ⟨.refl _, id, rfl, rfl, le_rfl, rfl, fun _ _ => rfl⟩
      | some ev =>
        have sound : Sound state.queue →
            Sound (state.queue.popFor (canonicalPid leader (leader pid))).1 :=
          fun sound => sound.popFor _
        dsimp only
        split
        · split
          · obtain ⟨outside, queue, _⟩ := pushEventFor_spec leader { state with
              lastDrainSlack := false
              queue := (state.queue.popFor (canonicalPid leader (leader pid))).1
              pollSlack := (state.pollSlack + 1) % 2 ^ 32 } free 0 ev.kind ev.flags ev.a ev.b
            refine { outside with queue := fun before => ?_, quiet := nofun }
            rw [queue]
            exact (sound before).push _ _
          · exact ⟨.refl _, sound, rfl, rfl, le_rfl, rfl, fun other => absurd rfl other⟩
        · exact ⟨.refl _, sound, rfl, rfl, le_rfl, rfl, fun other => absurd rfl other⟩
  · exact ⟨.refl _, id, rfl, rfl, le_rfl, rfl, fun _ _ => rfl⟩

structure Own (leader : Nat → Nat) (state : WmState) (pid : Nat) (wait : Wait) : Prop where
  some : pid ≠ 0
  writable : wait.buffer.writable = true
  deadline : wait.deadlineNs = wait.due
  registered : state.waiterPid = pid ∧ state.waiterDeadline = wait.due ∧ wait.due ≠ 0 ∨
    wait.due ≤ state.now ∧ wait.point ≠ .sleep ∧ wait.point.asleep = false
  armed : wait.point.armed = true →
    state.wmWaiter = pid ∨ HasVisible state.queue (canonicalPid leader pid)
  asleep : wait.point.asleep = true → state.wmWaiter = pid ∨ Runnable state pid

structure Solo (leader : Nat → Nat) (state : WmState) : Prop where
  queue : Sound state.queue
  single : ∀ first second, state.calls first ≠ none → state.calls second ≠ none → first = second
  own : ∀ pid wait, state.calls pid = some wait → Own leader state pid wait

lemma Solo.outside (solo : Solo leader state) (outside : Outside state next)
    (queue : Sound next.queue)
    (arming : state.Arming → ∀ pid, HasVisible state.queue pid → HasVisible next.queue pid)
    (notified : state.Arming → next.wmWaiter = state.wmWaiter ∨
      HasVisible next.queue (canonicalPid leader state.wmWaiter)) : Solo leader next := by
  refine ⟨queue, fun first second => ?_, fun pid wait inside => ?_⟩
  · rw [outside.calls]
    exact solo.single first second
  rw [outside.calls] at inside
  have own := solo.own pid wait inside
  refine ⟨own.some, own.writable, own.deadline, ?_, fun armed => ?_, fun asleep => ?_⟩
  · rw [outside.pid, outside.deadline]
    exact own.registered.imp_right fun late => ⟨late.1.trans outside.now, late.2⟩
  · have there : state.Arming := ⟨pid, wait, inside, armed⟩
    rcases own.armed armed with waits | seen
    · rcases notified there with same | seen
      · exact .inl (same.trans waits)
      · exact .inr (waits ▸ seen)
    · exact .inr (arming there _ seen)
  rcases own.asleep asleep with waits | runnable
  · rcases outside.waiter with same | woken
    · exact .inl (same.trans waits)
    · exact .inr (waits ▸ woken)
  · exact .inr (runnable.eases outside.eases)

lemma Solo.relaxed (solo : Solo leader state) (outside : Outside state next)
    (queue : next.queue = state.queue) (waiter : next.wmWaiter = state.wmWaiter) :
    Solo leader next := by
  refine solo.outside outside (queue ▸ solo.queue) (fun _ _ seen => ?_) fun _ => .inl waiter
  rw [queue]
  exact seen

lemma solo_update (others : ∀ other, other ≠ pid → state.calls other = none)
    (queue : Sound next.queue) {call : Option Wait}
    (calls : next.calls = update state.calls pid call)
    (own : ∀ wait, call = some wait → Own leader next pid wait) : Solo leader next := by
  have only : ∀ other, next.calls other ≠ none → other = pid := by
    intro other inside
    by_contra differs
    rw [calls, update_of_ne differs] at inside
    exact inside (others other differs)
  refine ⟨queue, fun first second one two => (only first one).trans (only second two).symm,
    fun other wait inside => ?_⟩
  obtain rfl : other = pid := only other (by rw [inside]; nofun)
  rw [calls, update_self] at inside
  exact own wait inside

lemma Solo.others (solo : Solo leader state) (inside : state.calls pid = some wait) :
    ∀ other, other ≠ pid → state.calls other = none := by
  intro other differs
  by_contra too
  exact differs (solo.single other pid too (by rw [inside]; nofun))

lemma enter_solo (others : ∀ other, other ≠ pid → state.calls other = none)
    (queue : Sound state.queue) (some : pid ≠ 0) (writable : wait.buffer.writable)
    (due : state.waiterPid ≠ pid ∧ wait.due = deadlineAfter state.now wait.timeoutMs ∨
      state.waiterPid = pid ∧ state.waiterDeadline = wait.due ∧ wait.due ≠ 0) :
    Solo leader (state.enter leader free pid wait) := by
  have drains := drain_drains leader state free pid writable
  cases result : state.drain leader free pid wait.buffer with
  | mk left drained =>
    rw [result] at drains
    dsimp only at drains
    have alone : ∀ other, other ≠ pid → left.calls other = none := drains.calls ▸ others
    have sound := drains.queue queue
    simp only [enter, result]
    split
    · exact solo_update alone sound rfl nofun
    rename_i noEvent
    split
    · exact solo_update alone sound rfl nofun
    rename_i noPoll
    have same := drains.quiet noEvent (by simpa using noPoll)
    split
    · rename_i registered
      split
      · exact solo_update alone sound rfl nofun
      refine solo_update alone sound rfl fun next moved => ?_
      cases moved
      obtain ⟨other, _⟩ | ⟨_, deadline, ahead⟩ := due
      · exact absurd (drains.pid.symm.trans registered) other
      · have kept := drains.deadline.trans deadline
        exact ⟨some, writable, kept, .inl ⟨registered, kept, ahead⟩, nofun, nofun⟩
    rename_i unregistered
    split
    · exact solo_update alone sound rfl nofun
    refine solo_update alone sound rfl fun next moved => ?_
    cases moved
    obtain ⟨_, fresh⟩ | ⟨registered, _⟩ := due
    · have now : left.now = state.now := by rw [same]
      have ahead : wait.due ≠ 0 := by
        rw [fresh, deadlineAfter, saturate, saturate]
        omega
      have exact : deadlineAfter left.now wait.timeoutMs = wait.due := by rw [now, fresh]
      exact ⟨some, writable, exact, .inl ⟨rfl, exact, ahead⟩, nofun, nofun⟩
    · exact absurd (drains.pid.trans registered) unregistered

lemma enter_eases (writable : wait.buffer.writable) :
    Eases state (state.enter leader free pid wait) := by
  have drains := drain_drains leader state free pid writable
  cases result : state.drain leader free pid wait.buffer with
  | mk left drained =>
    rw [result] at drains
    have finished : Eases state (left.finish pid) := drains.eases.trans (unblock_eases left pid)
    simp only [enter, result]
    split
    · exact finished
    split
    · exact drains.eases
    split
    · split
      · exact finished
      · exact drains.eases
    split
    all_goals exact drains.eases

lemma advance_solo (solo : Solo leader state) {out : Bool} (inside : state.calls pid = some wait)
    (taken : state.advance leader free out pid wait = some next) : Solo leader next := by
  have own := solo.own pid wait inside
  have others := solo.others inside
  rw [advance] at taken
  cases point : wait.point with
  | arm =>
    simp only [point] at taken
    cases taken
    refine solo_update others solo.queue rfl fun next moved => ?_
    cases moved
    exact ⟨own.some, own.writable, own.deadline,
      own.registered.imp_right fun late => ⟨late.1, nofun, rfl⟩, fun _ => .inl rfl, nofun⟩
  | mark =>
    simp only [point] at taken
    cases taken
    refine solo_update others solo.queue rfl fun next moved => ?_
    cases moved
    exact ⟨own.some, own.writable, own.deadline,
      own.registered.imp_right fun late => ⟨late.1, nofun, rfl⟩,
      fun _ => own.armed (by rw [point]; rfl), nofun⟩
  | drain =>
    have drains := drain_drains leader state free pid own.writable
    cases result : state.drain leader free pid wait.buffer with
    | mk left drained =>
      rw [result] at drains
      dsimp only at drains
      have alone : ∀ other, other ≠ pid → left.calls other = none := drains.calls ▸ others
      have sound := drains.queue solo.queue
      simp only [point, result] at taken
      split at taken
      · cases taken
        exact solo_update alone sound rfl nofun
      rename_i nothing
      split at taken
      · cases taken
        exact solo_update alone sound rfl nofun
      rename_i early
      cases taken
      have same := drains.quiet (fun event => nothing (.inl event))
        (eq_false_iff.2 fun poll => nothing (.inr poll))
      refine solo_update alone sound rfl fun next moved => ?_
      cases moved
      refine ⟨own.some, own.writable, own.deadline, .inl ?_, fun _ => ?_, nofun⟩
      · rcases own.registered with registered | late
        · rw [same]
          exact registered
        · rw [own.deadline, same] at early
          exact absurd (.inr late.1) early
      · rw [same]
        exact own.armed (by rw [point]; rfl)
  | sleep =>
    simp only [point] at taken
    have registered := own.registered.resolve_right fun late => late.2.1 point
    split at taken
    · cases taken
      refine solo_update others solo.queue rfl fun next moved => ?_
      cases moved
      exact ⟨own.some, own.writable, own.deadline, .inl registered, nofun, nofun⟩
    rename_i nothing
    cases taken
    have waits : state.wmWaiter = pid := by
      refine (own.armed (by rw [point]; rfl)).resolve_right fun seen => ?_
      exact nothing (.inl (pendingFor_pos.2 seen))
    refine solo_update others solo.queue rfl fun next moved => ?_
    cases moved
    refine ⟨own.some, own.writable, own.deadline, .inl registered, ?_, fun _ => .inl waits⟩
    cases out <;> nofun
  | halted =>
    simp only [point] at taken
    have registered := own.registered.resolve_right fun late => by
      rw [point] at late
      cases late.2.2
    have asleep := own.asleep (by rw [point]; rfl)
    split at taken
    · split at taken
      · rename_i passed
        cases taken
        refine solo_update others solo.queue rfl fun next moved => ?_
        cases moved
        have late : wait.due ≤ state.now := by
          rw [registered.2.1] at passed
          exact passed.resolve_left registered.2.2
        exact ⟨own.some, own.writable, own.deadline, .inr ⟨late, nofun, rfl⟩, nofun, nofun⟩
      cases taken
      refine solo_update others solo.queue rfl fun next moved => ?_
      cases moved
      refine ⟨own.some, own.writable, own.deadline, .inl registered, ?_, fun _ => asleep⟩
      cases out <;> nofun
    cases taken
    refine solo_update others solo.queue rfl fun next moved => ?_
    cases moved
    exact ⟨own.some, own.writable, own.deadline, .inl registered, nofun, nofun⟩
  | out =>
    simp only [point] at taken
    have registered := own.registered.resolve_right fun late => by
      rw [point] at late
      cases late.2.2
    split at taken <;> cases taken
    exact enter_solo others solo.queue own.some own.writable (.inr registered)

lemma step_solo (solo : Solo leader state) (label : Label) (alone : Alone state label)
    (taken : state.step leader label = some next) : Solo leader next := by
  cases label with try cases taken
  | call pid buffer timeoutMs free =>
    obtain ⟨nobody, other, writable⟩ := alone
    simp only [step] at taken
    split at taken
    · cases taken
      exact solo
    rename_i some
    split at taken
    · cases taken
    cases taken
    exact enter_solo (fun pid _ => nobody pid) solo.queue some writable (.inl ⟨other, rfl⟩)
  | advance pid free out =>
    simp only [step] at taken
    split at taken
    · cases taken
    · rename_i wait inside
      exact advance_solo solo inside taken
  | push ownerPid kind flags a b free =>
    obtain ⟨outside, queue, waiter, _⟩ :=
      pushEventFor_spec leader state free ownerPid kind flags a b
    refine solo.outside outside ?_ (fun arming pid seen => ?_) fun arming => ?_
    · rw [queue]
      exact solo.queue.push _ _
    · rw [queue]
      exact seen.push solo.queue _ _ (alone arming)
    · rw [queue]
      exact waiter.imp_right fun seen => hasVisible_push solo.queue _ seen
  | vsyncBatonPost caller baton free =>
    by_cases none : baton = 0
    · rw [vsyncBatonPost, if_pos none]
      exact solo
    obtain ⟨outside, queue, _⟩ := vsyncBatonPost_spec leader state free caller none
    refine solo.outside outside ?_ (fun arming => absurd arming alone) fun arming =>
      absurd arming alone
    rw [queue]
    exact solo.queue.pushFront _ _
  | pop pid =>
    refine solo.outside ⟨.refl _, .inl rfl, rfl, rfl, le_rfl, rfl⟩ (solo.queue.popFor _)
      (fun arming => absurd arming alone) fun arming => absurd arming alone
  | tick free =>
    obtain ⟨eases, _, _, fields⟩ := tick_fields state free
    refine solo.relaxed ⟨eases, .inl ?_, ?_, ?_, ?_, ?_⟩ ?_ ?_
    all_goals rw [fields]
  | handlePendingWakes =>
    refine solo.relaxed ⟨fun pid blocked => ?_, .inl rfl, rfl, rfl, le_rfl, rfl⟩ rfl rfl
    simp only [and_eq_true, not_eq_true'] at blocked
    exact ⟨blocked.1, fun wake => by rw [wake] at blocked; cases blocked.2⟩
  | wake pid =>
    exact solo.relaxed ⟨unblock_eases state pid, .inl rfl, rfl, rfl, le_rfl, rfl⟩ rfl rfl
  | setFocusPid pid => exact solo.relaxed ⟨.refl _, .inl rfl, rfl, rfl, le_rfl, rfl⟩ rfl rfl
  | pass now =>
    obtain ⟨later, rfl⟩ := of_guard taken
    exact solo.relaxed ⟨.refl _, .inl rfl, rfl, rfl, later.1, rfl⟩ rfl rfl
  | exit pid =>
    have inside : ∀ other wait, update state.calls pid none other = some wait →
        state.calls other = some wait := by
      intro other wait still
      by_cases same : other = pid
      · rw [same, update_self] at still
        cases still
      · rwa [update_of_ne same] at still
    refine ⟨solo.queue, fun first second one two => ?_, fun other wait still => ?_⟩
    · obtain ⟨wait, here⟩ := ne_none_iff_exists'.1 one
      obtain ⟨wait', there⟩ := ne_none_iff_exists'.1 two
      refine solo.single first second ?_ ?_
      · rw [inside first wait here]
        nofun
      · rw [inside second wait' there]
        nofun
    · have own := solo.own other wait (inside other wait still)
      exact { own with }

lemma step_woken (solo : Solo leader state) (label : Label) (alone : Alone state label) :
    Woken leader state label := by
  intro next taken pid wait inside asleep
  have own := solo.own pid wait inside
  have registered := own.registered.resolve_right fun late => by
    rw [asleep] at late
    cases late.2.2
  cases label with try cases taken
  | push ownerPid kind flags a b free =>
    obtain ⟨outside, _, _, woken⟩ := pushEventFor_spec leader state free ownerPid kind flags a b
    refine ⟨fun ⟨owner, pushed, visible⟩ => ?_, nofun⟩
    obtain rfl := mem_singleton.1 pushed
    rcases own.asleep asleep with waits | runnable
    · have seen := woken (waits ▸ own.some) (waits.symm ▸ visible)
      exact waits ▸ seen
    · exact runnable.eases outside.eases
  | vsyncBatonPost caller baton free =>
    refine ⟨fun ⟨owner, pushed, visible⟩ => ?_, nofun⟩
    by_cases none : baton = 0
    · rw [pushes, if_pos none] at pushed
      cases pushed
    obtain ⟨outside, _, woken⟩ := vsyncBatonPost_spec leader state free caller none
    rcases own.asleep asleep with waits | runnable
    · exact waits ▸ woken (waits ▸ own.some)
    · exact runnable.eases outside.eases
  | call caller buffer timeoutMs free =>
    rw [alone.1 pid] at inside
    cases inside
  | advance thread free out =>
    -- only the thread itself can be the one that sleeps, and then it is awake already
    refine ⟨fun ⟨owner, pushed, _⟩ => ?_, nofun⟩
    simp only [step] at taken
    split at taken
    · cases taken
    rename_i moving there
    obtain rfl : thread = pid := solo.single _ _ (by rw [there]; nofun) (by rw [inside]; nofun)
    obtain rfl : moving = wait := some.inj (there.symm.trans inside)
    rw [pushes, inside] at pushed
    dsimp only at pushed
    split at pushed
    · rename_i draining
      rcases draining.1 with drains | out
      · rw [drains] at asleep
        cases asleep
      simp only [advance, out] at taken
      split at taken
      · cases taken
      rename_i awake
      cases taken
      have runnable : Runnable state thread := .inl (eq_false_iff.2 awake)
      exact runnable.eases (enter_eases own.writable)
    · cases pushed
  | tick free =>
    refine ⟨fun ⟨owner, pushed, _⟩ => (nomatch pushed), fun _ _ late => ?_⟩
    cases blocked : state.blocked pid with
    | false =>
      have runnable : Runnable state pid := .inl blocked
      exact runnable.eases (tick_fields state free).1
    | true =>
      have passed : state.waiterDeadline ≠ 0 ∧ state.waiterDeadline ≤ state.now ∧
          state.waiterPid ≠ 0 ∧ state.blocked state.waiterPid := by
        rw [registered.1, registered.2.1]
        exact ⟨registered.2.2, late, own.some, blocked⟩
      rw [tick, if_pos passed]
      exact registered.1 ▸ (wakeProcess_spec state free state.waiterPid).2.1
  | pop | handlePendingWakes | wake | setFocusPid | pass | exit =>
    exact ⟨fun ⟨owner, pushed, _⟩ => (nomatch pushed), nofun⟩

def sleeps (pid : Nat) : List Label :=
  [.call pid {} 1000 true, .advance pid true true, .advance pid true true, .advance pid true true,
    .advance pid true true]

def evApp : Nat := 4

end OsCortex.Wm
