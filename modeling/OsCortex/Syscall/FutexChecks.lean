import OsCortex.Syscall.FutexCore
import OsCortex.Syscall.WakeChecks

/-!
A thread in a futex wait is on the queue, in the hands of a waker, or not Blocked, in runs whose
labels are in step with the queue.
-/

namespace OsCortex.Futex

open List Function State Table Runs Call
open Wake (Translate sameSpace takeWaiters takeWaiters_spec queuedOn queuedOn_iff)

variable {state next : State} {addr pid other count : Nat} {shares : Nat → Bool}
  {waiters : List (Nat × Nat)} {table : Table}

lemma takeWaiters_taken (taken : pid ∈ (takeWaiters addr shares count waiters).1) :
    (addr, pid) ∈ waiters := by
  rw [(takeWaiters_spec addr shares waiters count).1] at taken
  obtain ⟨_, member, rfl⟩ := mem_map.1 taken
  obtain ⟨_, queued⟩ := mem_filter.1 (mem_of_mem_take member)
  rwa [← (queuedOn_iff.1 queued).1]

lemma takeWaiters_split {place : Nat} (entry : (place, pid) ∈ waiters) :
    (place, pid) ∈ (takeWaiters addr shares count waiters).2 ∨
      pid ∈ (takeWaiters addr shares count waiters).1 := by
  obtain ⟨woke, left, others, _⟩ := takeWaiters_spec addr shares waiters count
  by_cases queued : queuedOn addr shares (place, pid)
  · have member := mem_filter.2 ⟨entry, queued⟩
    rw [← take_append_drop count (waiters.filter _), mem_append, ← left] at member
    rcases member with taken | kept
    · rw [woke]
      exact .inr (mem_map_of_mem taken)
    · exact .inl (mem_of_mem_filter kept)
  have member : (place, pid) ∈ waiters.filter (! queuedOn addr shares ·) :=
    mem_filter.2 ⟨entry, by simp [queued]⟩
  rw [← others] at member
  exact .inl (mem_of_mem_filter member)

lemma takeWaiters_only (nodup : waiters.Nodup) (nonzero : count ≠ 0) (share : shares pid)
    (only : ∀ place thread, (place, thread) ∈ waiters → place = addr → thread = pid) :
    (addr, pid) ∉ (takeWaiters addr shares count waiters).2 := by
  intro kept
  obtain ⟨_, left, -⟩ := takeWaiters_spec addr shares waiters count
  have later := mem_filter.2 ⟨kept, queuedOn_iff.2 ⟨rfl, share⟩⟩
  rw [left] at later
  obtain ⟨_, rfl⟩ := Nat.exists_eq_succ_of_ne_zero nonzero
  have distinct := nodup.filter (queuedOn addr shares)
  cases queue : waiters.filter (queuedOn addr shares) with
  | nil => simp [queue] at later
  | cons first others =>
    -- the first of the queue is taken, and it is the only entry there is
    obtain ⟨entry, queued⟩ := mem_filter.1 (queue ▸ mem_cons_self : first ∈ waiters.filter _)
    have here := (queuedOn_iff.1 queued).1
    have same : first = (addr, pid) := Prod.ext here (only _ _ entry here)
    rw [queue] at later distinct
    exact (nodup_cons.1 distinct).1 (same ▸ mem_of_mem_drop later)

def Call.kernel : Call → Bool
  | .entering _ | .checked _ | .passed _ | .queued _ | .parking _ _ | .looping _ | .halted _
  | .leaving _ => true
  | _ => false

def Call.inside : Call → Bool
  | .parked _ _ => true
  | call => call.kernel

def Seated (table : Table) (pid : Nat) : Prop :=
  (table.slotOf pid).pid = pid ∧ (table.slotOf pid).live = true

lemma Seated.setState (seated : Seated table pid) (changed : Nat)
    {procState : ProcState} (live : procState = .running ∨ procState = .blocked) :
    Seated (table.setState changed procState) pid := by
  refine ⟨(setState_pid _ _).trans seated.1, ?_⟩
  rw [slotOf, setState_apply]
  split
  · rcases live with rfl | rfl <;> rfl
  · exact seated.2

lemma Seated.markExited (seated : Seated table pid) {gone : Nat}
    (different : pid ≠ gone) (code : Int) : Seated (table.markExited gone code) pid := by
  rw [Seated, markExited_other code seated.1 different]
  exact seated

structure Own (state : State) (pid : Nat) : Prop where
  entries : ∀ addr, (addr, pid) ∈ state.futexWaiters →
    ∃ wait, (state.calls pid).queues = some wait ∧ wait.addr = addr
  held : (state.calls pid).inside = true → Seated state.table pid
  parked : ∀ wait reexec, state.calls pid = .parked wait reexec →
    state.table.isBlocked pid = true → (wait.addr, pid) ∉ state.futexWaiters → pid ∈ state.inFlight
  active : (state.calls pid).kernel = true → ¬ state.table.isBlocked pid = true
  woken : state.woken pid = true →
    ∃ wait, (state.calls pid).queues = some wait ∧ (wait.addr, pid) ∉ state.futexWaiters

structure Kept (state : State) : Prop where
  nodup : state.futexWaiters.Nodup
  own : ∀ pid, Own state pid

def Careful (state : State) : Label → Prop
  | .wake translate caller addr _ => ∀ pid, sameSpace state.table translate caller addr pid = true →
      ∀ wait, wait.addr = addr → state.calls pid ≠ .checked wait ∧ state.calls pid ≠ .passed wait
  | .advance pid .block => ∀ wait reexec, state.calls pid = .parking wait reexec →
      (wait.addr, pid) ∈ state.futexWaiters
  | .advance pid .resume => ∀ wait reexec, state.calls pid = .parked wait reexec →
      (wait.addr, pid) ∉ state.futexWaiters
  | .advance pid .scan => ∀ woken, state.calls pid = .exiting maxProcs woken → 0 < woken →
      ∀ waiter ∈ state.futexWaiters, ¬ state.table.isBlocked waiter.2 = true
  | .kill pid => (state.calls pid).inside = false
  | _ => True

variable {wait : Wait} {call : Call}

lemma Call.waits_of_queues (queues : call.queues = some wait) :
    call.waits = some wait := by
  cases call <;> first | exact queues | cases queues

lemma Call.inside_of_waits (waits : call.waits = some wait) : call.inside := by
  cases call <;> first | rfl | cases waits

lemma Own.frame (own : Own state pid) (calls : next.calls pid = state.calls pid)
    (queue : ∀ addr, (addr, pid) ∈ next.futexWaiters ↔ (addr, pid) ∈ state.futexWaiters)
    (slot : (state.calls pid).inside → Seated state.table pid → Seated next.table pid)
    (blocked : next.table.isBlocked pid → state.table.isBlocked pid)
    (flight : next.table.isBlocked pid → pid ∈ state.inFlight → pid ∈ next.inFlight)
    (woken : next.woken pid = state.woken pid) : Own next pid := by
  constructor
  · intro addr entry
    rw [calls]
    exact own.entries addr ((queue addr).1 entry)
  · rw [calls]
    exact fun inside => slot inside (own.held inside)
  · intro wait reexec isParked isBlocked absent
    rw [calls] at isParked
    rw [queue] at absent
    exact flight isBlocked (own.parked wait reexec isParked (blocked isBlocked) absent)
  · intro kernel isBlocked
    rw [calls] at kernel
    exact own.active kernel (blocked isBlocked)
  intro isWoken
  rw [woken] at isWoken
  obtain ⟨wait, queues, absent⟩ := own.woken isWoken
  rw [calls]
  exact ⟨wait, queues, fun entry => absent ((queue wait.addr).1 entry)⟩

lemma become_self (state : State) (pid : Nat) (call : Call) :
    (state.become pid call).calls pid = call :=
  update_self ..

lemma become_other (different : other ≠ pid) (call : Call) :
    (state.become pid call).calls other = state.calls other :=
  update_of_ne different ..

section

variable (kept : Kept state)
include kept

lemma Kept.retable
    (slots : ∀ pid, (state.calls pid).inside → Seated state.table pid → Seated table pid)
    (blocked : ∀ pid, table.isBlocked pid → state.table.isBlocked pid) :
    Kept { state with table } :=
  ⟨kept.nodup, fun pid => (kept.own pid).frame rfl (fun _ => Iff.rfl) (slots pid) (blocked pid)
    (fun _ flying => flying) rfl⟩

lemma Kept.deliver (pid : Nat) :
    Kept { state with
      table := state.table.setState pid .running
      inFlight := state.inFlight.erase pid } := by
  refine ⟨kept.nodup, fun thread => (kept.own thread).frame rfl (fun _ => Iff.rfl) ?_ ?_ ?_ rfl⟩
  · exact fun _ seated => seated.setState pid (.inl rfl)
  · exact fun blocked => (setState_running_isBlocked.1 blocked).2
  · intro blocked flying
    exact (mem_erase_of_ne (setState_running_isBlocked.1 blocked).1).2 flying

lemma Kept.setRunning (pid : Nat) :
    Kept { state with table := state.table.setState pid .running } :=
  kept.retable (fun _ _ seated => seated.setState pid (.inl rfl)) fun _ blocked =>
    (setState_running_isBlocked.1 blocked).2

lemma Kept.thread (nodup : next.futexWaiters.Nodup)
    (calls : ∀ other, other ≠ pid → next.calls other = state.calls other)
    (queue : ∀ other, other ≠ pid → ∀ addr,
      (addr, other) ∈ next.futexWaiters ↔ (addr, other) ∈ state.futexWaiters)
    (slots : ∀ other, other ≠ pid → Seated state.table other → Seated next.table other)
    (blocked : ∀ other, other ≠ pid → next.table.isBlocked other → state.table.isBlocked other)
    (flight : next.inFlight = state.inFlight)
    (woken : ∀ other, other ≠ pid → next.woken other = state.woken other) (own : Own next pid) :
    Kept next := by
  refine ⟨nodup, fun other => ?_⟩
  by_cases same : other = pid
  · rw [same]
    exact own
  exact (kept.own other).frame (calls other same) (queue other same)
    (fun _ => slots other same) (blocked other same) (fun _ flying => flight ▸ flying)
    (woken other same)

lemma Kept.record (futexPendingWakes : Nat → Nat) (bypasses : Nat)
    (posts : List (Nat × Nat)) : Kept { state with futexPendingWakes, bypasses, posts } :=
  ⟨kept.nodup, fun pid => (kept.own pid).frame rfl (fun _ => Iff.rfl) (fun _ seated => seated) id
    (fun _ flying => flying) rfl⟩

lemma Kept.become (queues : call.queues = (state.calls pid).queues)
    (inside : call.inside → Seated state.table pid)
    (active : call.kernel → ¬ state.table.isBlocked pid)
    (unparked : ∀ wait reexec, call ≠ .parked wait reexec) : Kept (state.become pid call) := by
  refine kept.thread kept.nodup (fun _ different => become_other different call)
    (fun _ _ _ => Iff.rfl) (fun _ _ seated => seated) (fun _ _ blocked => blocked) rfl
    (fun _ _ => rfl) ?_
  constructor
  · intro addr entry
    rw [become_self, queues]
    exact (kept.own pid).entries addr entry
  · rw [become_self]
    exact inside
  · intro wait reexec parked
    rw [become_self] at parked
    exact absurd parked (unparked wait reexec)
  · rw [become_self]
    exact active
  intro woken
  rw [become_self, queues]
  exact (kept.own pid).woken woken

lemma Kept.onward (kernel : (state.calls pid).kernel)
    (queues : call.queues = (state.calls pid).queues)
    (unparked : ∀ wait reexec, call ≠ .parked wait reexec) : Kept (state.become pid call) := by
  refine kept.become queues (fun _ => (kept.own pid).held ?_)
    (fun _ => (kept.own pid).active kernel) unparked
  cases call : state.calls pid <;> first | rfl | (rw [call] at kernel; cases kernel)

lemma Kept.finish {waiters : List (Nat × Nat)} (nodup : waiters.Nodup)
    (others : ∀ other, other ≠ pid → ∀ addr,
      (addr, other) ∈ waiters ↔ (addr, other) ∈ state.futexWaiters)
    (gone : ∀ addr, (addr, pid) ∉ waiters) (inside : call.inside → Seated state.table pid)
    (active : call.kernel → ¬ state.table.isBlocked pid)
    (unparked : ∀ wait reexec, call ≠ .parked wait reexec) :
    Kept { state.finish pid call with futexWaiters := waiters } := by
  refine kept.thread nodup (fun _ different => become_other different call) others
    (fun _ _ seated => seated) (fun _ _ blocked => blocked) rfl
    (fun _ different => update_of_ne different ..) ?_
  have self : (state.finish pid call).calls pid = call := become_self state pid call
  constructor
  · exact fun addr entry => absurd entry (gone addr)
  · exact fun isInside => inside (self ▸ isInside)
  · exact fun wait reexec parked => absurd (self.symm.trans parked) (unparked wait reexec)
  · exact fun kernel => active (self ▸ kernel)
  intro woken
  have never : (state.finish pid call).woken pid = false := update_self ..
  rw [never] at woken
  cases woken

end

lemma Own.no_entry (own : Own state pid) (queues : (state.calls pid).queues = none) :
    ∀ addr, (addr, pid) ∉ state.futexWaiters := by
  intro addr entry
  obtain ⟨_, queued, _⟩ := own.entries addr entry
  rw [queues] at queued
  cases queued

lemma mem_futexWaiterAdd {place thread : Nat} :
    (place, thread) ∈ futexWaiterAdd waiters addr pid ↔
      (place, thread) ∈ waiters ∨ (place = addr ∧ thread = pid) := by
  unfold futexWaiterAdd
  split
  · constructor
    · exact Or.inl
    rintro (entry | ⟨rfl, rfl⟩)
    · exact entry
    · assumption
  · simp

lemma nodup_futexWaiterAdd (nodup : waiters.Nodup) : (futexWaiterAdd waiters addr pid).Nodup := by
  unfold futexWaiterAdd
  split
  · exact nodup
  rename_i absent
  refine nodup_append.2 ⟨nodup, by simp, ?_⟩
  rintro _ entry _ single rfl
  exact absent (mem_singleton.1 single ▸ entry)

section

variable (kept : Kept state)
include kept

lemma Kept.check (entering : state.calls pid = .entering wait)
    (word : Nat) : Kept (state.check pid wait word) := by
  have gone : ∀ addr, (addr, pid) ∉ state.futexWaiters :=
    (kept.own pid).no_entry (by rw [entering]; rfl)
  have slot : Seated state.table pid := (kept.own pid).held (by rw [entering]; rfl)
  have active : ¬ state.table.isBlocked pid := (kept.own pid).active (by rw [entering]; rfl)
  have finished : ∀ call : Call, (∀ wait reexec, call ≠ .parked wait reexec) →
      Kept (state.finish pid call) := fun call unparked =>
    kept.finish kept.nodup (fun _ _ _ => Iff.rfl) gone (fun _ => slot) (fun _ => active) unparked
  unfold State.check
  split
  · exact finished .user fun _ _ => nofun
  refine (finished _ ?_).record _ _ _
  split
  · nofun
  · split <;> nofun

lemma Kept.takePending
    (checked : state.calls pid = .checked wait) : Kept (state.takePending pid wait) := by
  unfold State.takePending
  split
  · have finished : Kept (state.finish pid .user) :=
      kept.finish kept.nodup (fun _ _ _ => Iff.rfl)
        ((kept.own pid).no_entry (by rw [checked]; rfl)) nofun nofun nofun
    exact finished.record _ _ _
  · exact kept.onward (by rw [checked]; rfl) (by rw [checked]; rfl) nofun

lemma Kept.enqueue (passed : state.calls pid = .passed wait) :
    Kept { state.become pid (.queued wait) with
      futexWaiters := futexWaiterAdd state.futexWaiters wait.addr pid } := by
  have self : (state.become pid (.queued wait)).calls pid = .queued wait := become_self ..
  refine kept.thread (nodup_futexWaiterAdd kept.nodup) (fun _ different => become_other different _)
    ?_ (fun _ _ seated => seated) (fun _ _ blocked => blocked) rfl (fun _ _ => rfl) ?_
  · intro other different addr
    rw [mem_futexWaiterAdd]
    exact or_iff_left fun both => different both.2
  constructor
  · intro addr entry
    rw [self]
    rcases mem_futexWaiterAdd.1 entry with old | ⟨rfl, _⟩
    · exact absurd old ((kept.own pid).no_entry (by rw [passed]; rfl) addr)
    · exact ⟨wait, rfl, rfl⟩
  · exact fun _ => (kept.own pid).held (by rw [passed]; rfl)
  · intro _ _ parked
    rw [self] at parked
    cases parked
  · exact fun _ => (kept.own pid).active (by rw [passed]; rfl)
  intro woken
  obtain ⟨_, queues, _⟩ := (kept.own pid).woken woken
  rw [passed] at queues
  cases queues

lemma Kept.block {reexec : Bool} (parking : state.calls pid = .parking wait reexec)
    (present : (wait.addr, pid) ∈ state.futexWaiters) :
    Kept { state.become pid (.parked wait reexec) with
      table := state.table.setState pid .blocked } := by
  have self : (state.become pid (.parked wait reexec)).calls pid = .parked wait reexec :=
    become_self ..
  refine kept.thread kept.nodup (fun _ different => become_other different _) (fun _ _ _ => Iff.rfl)
    (fun _ _ seated => seated.setState pid (.inr rfl)) ?_ rfl (fun _ _ => rfl) ?_
  · intro other different blocked
    rwa [setState_isBlocked_other _ different] at blocked
  constructor
  · intro addr entry
    rw [self]
    have old := (kept.own pid).entries addr entry
    rw [parking] at old
    exact old
  · intro _
    exact ((kept.own pid).held (by rw [parking]; rfl)).setState pid (.inr rfl)
  · intro wait' reexec' parked _ absent
    rw [self] at parked
    cases parked
    exact absurd present absent
  · rw [self]
    nofun
  intro woken
  obtain ⟨wait', queues, absent⟩ := (kept.own pid).woken woken
  rw [parking] at queues
  cases queues
  exact absurd present absent

lemma Kept.remove (leaving : state.calls pid = .leaving wait) : Kept { state.finish pid .user with
      futexWaiters := futexWaiterRemove state.futexWaiters wait.addr pid } := by
  refine kept.finish (kept.nodup.filter _) ?_ ?_ nofun nofun nofun
  · intro other different addr
    simp [futexWaiterRemove, different]
  intro addr entry
  obtain ⟨entry, apart⟩ := mem_filter.1 entry
  obtain ⟨_, queues, here⟩ := (kept.own pid).entries addr entry
  rw [leaving] at queues
  cases queues
  rw [here] at apart
  simp at apart

end

lemma State.runs_seated (runs : state.runs pid) :
    Seated state.table pid ∧ ¬ state.table.isBlocked pid := by
  simp only [State.runs, Bool.and_eq_true, beq_iff_eq] at runs
  refine ⟨⟨runs.1, by rw [Process.live, runs.2]; rfl⟩, ?_⟩
  rw [Table.isBlocked_iff, runs.2]
  nofun

section

variable (kept : Kept state)
include kept

lemma Kept.resume {reexec : Bool}
    (parked : state.calls pid = .parked wait reexec) (runs : state.runs pid)
    (absent : (wait.addr, pid) ∉ state.futexWaiters) :
    Kept (state.finish pid (if reexec then .entering wait else .user)) := by
  have ⟨seated, active⟩ := State.runs_seated runs
  refine kept.finish kept.nodup (fun _ _ _ => Iff.rfl) ?_ (fun _ => seated) (fun _ => active) ?_
  · intro addr entry
    obtain ⟨_, queues, here⟩ := (kept.own pid).entries addr entry
    rw [parked] at queues
    cases queues
    exact absent (here ▸ entry)
  · intro _ _
    split <;> nofun

lemma Kept.outside {call : Call} {table : Table}
    (before : (state.calls pid).queues = none) (inside : call.inside = false)
    (slots : ∀ other, other ≠ pid → Seated state.table other → Seated table other)
    (blocked : ∀ other, other ≠ pid → table.isBlocked other → state.table.isBlocked other) :
    Kept { state.become pid call with table } := by
  have self : (state.become pid call).calls pid = call := become_self ..
  refine kept.thread kept.nodup (fun _ different => become_other different _) (fun _ _ _ => Iff.rfl)
    slots blocked rfl (fun _ _ => rfl) ?_
  constructor
  · exact fun addr entry => absurd entry ((kept.own pid).no_entry before addr)
  · rw [self, inside]
    nofun
  · intro _ _ parked
    rw [self] at parked
    subst parked
    cases inside
  · rw [self]
    intro kernel
    cases call <;> cases kernel <;> cases inside
  intro woken
  obtain ⟨_, queued, _⟩ := (kept.own pid).woken woken
  rw [before] at queued
  cases queued

lemma Kept.clear (nobody : ∀ waiter ∈ state.futexWaiters, ¬ state.table.isBlocked waiter.2) :
    Kept { state with futexWaiters := [] } := by
  refine ⟨nodup_nil, fun pid => ?_⟩
  have own := kept.own pid
  refine ⟨nofun, own.held, ?_, own.active, ?_⟩
  · intro wait reexec parked blocked _
    exact own.parked wait reexec parked blocked fun entry => nobody _ entry blocked
  intro woken
  obtain ⟨wait, queues, _⟩ := own.woken woken
  exact ⟨wait, queues, nofun⟩

lemma State.advance_kept {input : Input}
    (careful : Careful state (.advance pid input)) (taken : state.advance pid input = some next) :
    Kept next := by
  unfold advance at taken
  split at taken
  -- the call
  · rename_i wait call
    obtain ⟨runs, rfl⟩ := of_guard taken
    have ⟨seated, active⟩ := State.runs_seated runs
    exact kept.become (by rw [call]; rfl) (fun _ => seated) (fun _ => active) nofun
  · rename_i wait word call
    cases taken
    exact kept.check call word
  · rename_i wait call
    cases taken
    exact kept.takePending call
  · rename_i wait call
    cases taken
    exact kept.enqueue call
  iterate 2
    rename_i wait found call
    cases taken
    refine kept.onward (by rw [call]; rfl) ?_ ?_
    · rw [call]
      cases found <;> rfl
    · cases found <;> nofun
  · rename_i wait reexec call
    cases taken
    exact kept.block call (careful wait reexec call)
  · rename_i wait word call
    cases taken
    refine kept.onward (by rw [call]; rfl) ?_ ?_
    · rw [call]
      split <;> rfl
    · intro _ _
      split <;> nofun
  · rename_i wait call
    cases taken
    exact kept.remove call
  · rename_i wait reexec call
    obtain ⟨runs, rfl⟩ := of_guard taken
    exact kept.resume call runs (careful wait reexec call)
  -- other calls of the thread
  · rename_i call
    obtain ⟨-, rfl⟩ := of_guard taken
    have same : state.become pid .user = state := by
      rw [become, ← call, update_eq_self]
    have blocked := @Kept.outside _ pid kept .user (state.table.setState pid .blocked)
      (by rw [call]; rfl) rfl (fun _ _ seated => seated.setState pid (.inr rfl))
      fun other different blocked => by
        rwa [setState_isBlocked_other _ different] at blocked
    rwa [same] at blocked
  · rename_i call
    obtain ⟨-, rfl⟩ := of_guard taken
    refine kept.outside (by rw [call]; rfl) ?_
      (fun _ different seated => seated.markExited different _)
      fun other _ blocked => ((markExited_isBlocked _).1 blocked).2
    split <;> rfl
  -- the loop of an abnormal exit
  · rename_i position woken call
    have become : ∀ call : Call, call.inside = false → Kept (state.become pid call) :=
      fun following inside => kept.outside (by rw [call]; rfl) inside (fun _ _ seated => seated)
        fun _ _ blocked => blocked
    split at taken
    · rename_i done
      cases taken
      by_cases some : 0 < woken
      · rw [if_pos some]
        exact (become .gone rfl).clear (careful woken (done ▸ call) some)
      · rw [if_neg some]
        exact become .gone rfl
    cases taken
    apply become
    split <;> rfl
  · rename_i position woken call
    cases taken
    exact kept.outside (by rw [call]; rfl) rfl (fun _ _ seated => seated.setState _ (.inl rfl))
      fun other _ blocked => (setState_running_isBlocked.1 blocked).2
  · cases taken

lemma State.alone_only (alone : state.alone addr pid)
    (entry : (addr, other) ∈ state.futexWaiters) : other = pid := by
  obtain ⟨_, queues, here⟩ := (kept.own other).entries addr entry
  have waits := waits_of_queues queues
  have slot := (kept.own other).held (inside_of_waits waits)
  have found := all_eq_true.1 alone (idxOf other) (mem_range.2 (Nat.mod_lt other (by decide)))
  have sits : (state.table (idxOf other)).pid = other := slot.1
  rw [sits] at found
  simpa [waitsOn, waits, here] using found

lemma Kept.wake {translate : Translate} {caller : Nat}
    (careful : Careful state (.wake translate caller addr count)) :
    Kept (state.futexWakeWaiters translate caller addr count) := by
  obtain ⟨_, _, _, sublist⟩ := takeWaiters_spec addr
    (sameSpace state.table translate caller addr) state.futexWaiters count
  refine ⟨kept.nodup.sublist sublist, fun pid => ?_⟩
  have own := kept.own pid
  refine ⟨fun place entry => own.entries place (sublist.subset entry), own.held, ?_, own.active, ?_⟩
  · intro wait reexec parked blocked absent
    by_cases entry : (wait.addr, pid) ∈ state.futexWaiters
    · rcases takeWaiters_split entry with left | woke
      · exact absurd left absent
      · exact mem_append_right _ woke
    · exact mem_append_left _ (own.parked wait reexec parked blocked entry)
  intro woken
  rcases Bool.or_eq_true_iff.1 woken with before | now
  · obtain ⟨wait, queues, absent⟩ := own.woken before
    exact ⟨wait, queues, fun entry => absent (sublist.subset entry)⟩
  simp only [Bool.and_eq_true, bne_iff_ne, waitsOn] at now
  obtain ⟨⟨⟨nonzero, waitsOn⟩, share⟩, alone⟩ := now
  obtain ⟨wait, waits, here⟩ := (Option.any_eq_true _ _).1 waitsOn
  have addrEq : wait.addr = addr := by simpa using here
  have queues : (state.calls pid).queues = some wait := by
    have between := careful pid share wait addrEq
    cases call : state.calls pid with
    | checked =>
      rw [call] at waits between
      cases waits
      exact absurd rfl between.1
    | passed =>
      rw [call] at waits between
      cases waits
      exact absurd rfl between.2
    | user | entering | exiting | exitWaking | gone =>
      rw [call] at waits
      cases waits
    | _ =>
      rw [call] at waits
      exact waits
  refine ⟨wait, queues, ?_⟩
  rw [addrEq]
  exact takeWaiters_only kept.nodup nonzero share fun place thread entry same =>
    alone_only kept alone (same ▸ entry)

lemma step_kept {label : Label} (careful : Careful state label)
    (taken : system.step state label = some next) : Kept next := by
  cases label with try cases taken
  | advance pid input => exact advance_kept kept careful taken
  | wake translate caller addr count => exact kept.wake careful
  | deliver pid =>
    obtain ⟨-, rfl⟩ := of_guard taken
    exact kept.deliver pid
  | post addr count =>
    simp only [system, step] at taken
    obtain ⟨-, rfl⟩ := of_guard taken
    unfold futexPendingPost
    split
    all_goals exact kept.record _ _ _
  | forceWake pid => exact kept.setRunning pid
  | kill pid =>
    refine kept.retable (fun thread inside seated => ?_) fun _ blocked =>
      ((markExited_isBlocked _).1 blocked).2
    apply seated.markExited
    rintro rfl
    rw [show (state.calls thread).inside = false from careful] at inside
    cases inside

end

lemma reachable_kept (reached : system.Reachable Careful state) : Kept state := by
  refine reached.invariant ?_ ?_
  · rintro _ ⟨_, rfl⟩
    exact ⟨nodup_nil, fun pid => ⟨nofun, nofun, nofun, nofun, nofun⟩⟩
  · intro state label next kept careful taken
    exact step_kept kept careful taken

theorem wake_not_lost (reached : system.Reachable Careful state) :
    (∀ pid, state.woken pid = true → state.table.isBlocked pid = true → pid ∈ state.inFlight) ∧
      ∀ translate caller addr count pid,
        pid ∈ (takeWaiters addr (sameSpace state.table translate caller addr) count
          state.futexWaiters).1 →
        (state.calls pid).waitsOn addr = true ∧ Seated state.table pid := by
  have kept := reachable_kept reached
  constructor
  · intro pid woken blocked
    obtain ⟨wait, queues, absent⟩ := (kept.own pid).woken woken
    cases call : state.calls pid with
    | parked parkedWait reexec =>
      rw [call] at queues
      cases queues
      exact (kept.own pid).parked wait reexec call blocked absent
    | queued | parking | looping | halted | leaving =>
      exact absurd blocked ((kept.own pid).active (by rw [call]; rfl))
    | _ =>
      rw [call] at queues
      cases queues
  intro translate caller addr count pid taken
  obtain ⟨wait, queues, here⟩ := (kept.own pid).entries addr (takeWaiters_taken taken)
  have waits := waits_of_queues queues
  refine ⟨?_, (kept.own pid).held (inside_of_waits waits)⟩
  rw [waitsOn, waits, Option.any_some, here, beq_self_eq_true]

def process : Table := fun idx =>
  if idx = 1 then { pid := 1, state := .running }
  else if idx = 2 ∨ idx = 3 then { pid := idx, state := .running, isThread := true, parentPid := 1 }
  else if idx = 44 then { pid := 300, state := .running, isThread := true, parentPid := 1 }
  else {}

def unmapped : Translate := fun _ _ => none

def sampleWait : Wait := { addr := 0x2000, val := 0 }

def enqueueSteps (pid : Nat) : List Label :=
  [.advance pid (.call sampleWait), .advance pid (.check 0), .advance pid .takePending,
    .advance pid .enqueue]

def parkSteps (pid : Nat) : List Label := [.advance pid (.pick true), .advance pid .block]

def abnormalExit (pid : Nat) : List Label :=
  [.advance pid (.exit (-1)), .advance pid .scan, .advance pid .scan, .advance pid .force]
    ++ List.replicate 254 (.advance pid .scan)

lemma advance_reachable (pid : Nat) (input : Input) (reached : system.Reachable Careful state)
    (careful : Careful state (.advance pid input)) (taken : state.advance pid input = some next) :
    system.Reachable Careful next :=
  .step reached careful taken

lemma check_other (different : other ≠ pid) (wait : Wait) (word : Nat) :
    (state.check pid wait word).calls other = state.calls other := by
  unfold State.check
  split <;> exact become_other different _

lemma takePending_other (different : other ≠ pid) (wait : Wait) :
    (state.takePending pid wait).calls other = state.calls other := by
  unfold State.takePending
  split <;> exact become_other different _

theorem wake_not_lost_parked : ∃ state, system.Reachable Careful state ∧ state.woken 2 = true ∧
    state.table.isBlocked 2 = true ∧ 2 ∈ state.inFlight := by
  have start : system.Reachable Careful { table := process } := .start ⟨process, rfl⟩
  have entered := advance_reachable 2 (.call sampleWait) start (by trivial) rfl
  have checked := advance_reachable 2 (.check 0) entered (by trivial) rfl
  have passed := advance_reachable 2 .takePending checked (by trivial) rfl
  have queued := advance_reachable 2 .enqueue passed (by trivial) rfl
  have picked := advance_reachable 2 (.pick true) queued (by trivial) rfl
  have parked := advance_reachable 2 .block picked
    (by rintro wait reexec parking; cases parking; exact mem_singleton_self _) rfl
  obtain ⟨state, reached, alone, here, woken⟩ : ∃ state, system.Reachable Careful state ∧
      (∀ pid, pid ≠ 2 → state.calls pid = .user) ∧ state.calls 2 = .parked sampleWait false ∧
      (state.futexWakeWaiters unmapped 1 0x2000 1).woken 2 = true ∧
      state.table.isBlocked 2 = true := by
    refine ⟨_, parked, fun pid different => ?_, rfl, by decide +kernel, rfl⟩
    simp [become_other different, takePending_other different, check_other different]
  have careful : Careful state (.wake unmapped 1 0x2000 1) := by
    intro pid _ wait _
    by_cases same : pid = 2
    · rw [same, here]
      exact ⟨nofun, nofun⟩
    · rw [alone pid same]
      exact ⟨nofun, nofun⟩
  have final : system.Reachable Careful (state.futexWakeWaiters unmapped 1 0x2000 1) :=
    .step reached careful rfl
  exact ⟨_, final, woken.1, woken.2, (wake_not_lost final).1 2 woken.1 woken.2⟩

theorem wake_lost :
    (∃ state, system.Reachable Runs.anyStep state ∧ state.woken 2 = true ∧
      state.table.isBlocked 2 = true ∧ state.inFlight = []) ∧
    (∃ state, system.Reachable Runs.anyStep state ∧
      (takeWaiters 0x2000 (sameSpace state.table unmapped 1 0x2000) 1 state.futexWaiters).1 = [2] ∧
      state.calls 2 = .user ∧ state.table.isBlocked 3 = true) ∧
    ∃ state, system.Reachable Runs.anyStep state ∧ state.woken 300 = true ∧
      state.table.isBlocked 300 = true ∧ state.inFlight = [] := by
  have begun : system.start { table := process } := ⟨process, rfl⟩
  refine ⟨?_, ?_, ?_⟩
  · have ran : (system.run { table := process } (enqueueSteps 2
        ++ [.wake unmapped 1 0x2000 1, .deliver 2] ++ parkSteps 2)).map
          (fun state => (state.woken 2, state.table.isBlocked 2, state.inFlight))
        = some (true, true, []) := by decide +kernel
    obtain ⟨state, reached, seen⟩ := Machine.run_view _ begun ran
    simp only [Prod.mk.injEq] at seen
    exact ⟨state, reached, seen⟩
  · have ran : (system.run { table := process } (enqueueSteps 2 ++ parkSteps 2
        ++ [.forceWake 2, .advance 2 .resume] ++ enqueueSteps 3 ++ parkSteps 3)).map
          (fun state => ((takeWaiters 0x2000 (sameSpace state.table unmapped 1 0x2000) 1
            state.futexWaiters).1, state.calls 2, state.table.isBlocked 3))
        = some ([2], .user, true) := by decide +kernel
    obtain ⟨state, reached, seen⟩ := Machine.run_view _ begun ran
    simp only [Prod.mk.injEq] at seen
    exact ⟨state, reached, seen⟩
  have ran : (system.run { table := process } (enqueueSteps 300 ++ parkSteps 300
      ++ [.advance 2 .blockElsewhere] ++ abnormalExit 3 ++ [.wake unmapped 1 0x2000 1])).map
        (fun state => (state.woken 300, state.table.isBlocked 300, state.inFlight))
      = some (true, true, []) := by decide +kernel
  obtain ⟨state, reached, seen⟩ := Machine.run_view _ begun ran
  simp only [Prod.mk.injEq] at seen
  exact ⟨state, reached, seen⟩

end OsCortex.Futex
