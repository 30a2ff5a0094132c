import OsCortex.Process.TableChecks
import OsCortex.Syscall.ExitCore

/-! What an exit does to the threads of other groups and to the parent of an `exec_wait`. -/

namespace OsCortex.Exit

open List Table Kernel Runs

variable {kernel : Kernel} {table : Table} {pid thread : Nat}

lemma wakeBlocked_other (count : Nat) (held : (table.slotOf thread).pid = thread)
    (other : thread ≠ pid) :
    (wakeBlocked (table, count) pid).1.slotOf thread = table.slotOf thread := by
  simp only [wakeBlocked]
  split
  · simp only [slotOf, setState_apply]
    rw [if_neg]
    rintro ⟨_, same⟩
    exact other (held.symm.trans same)
  · rfl

lemma wakeBlocked_self (count : Nat) (blocked : table.isBlocked pid) :
    (wakeBlocked (table, count) pid).1.slotOf pid = { table.slotOf pid with state := .running } := by
  simp only [wakeBlocked, blocked, if_true, slotOf, setState_apply]
  rw [if_pos ⟨trivial, (isBlocked_iff.1 blocked).1⟩]

lemma wakeBlocked_idle (count : Nat) (idle : ¬ table.isBlocked pid) :
    wakeBlocked (table, count) pid = (table, count) := by
  simp [wakeBlocked, idle]

lemma wakeAll_slot (pids : List Nat) (count : Nat) (held : (table.slotOf thread).pid = thread) :
    ((pids.foldl wakeBlocked (table, count)).1).slotOf thread =
      if thread ∈ pids ∧ table.isBlocked thread then { table.slotOf thread with state := .running }
      else table.slotOf thread := by
  induction pids generalizing table count with
  | nil => simp
  | cons pid rest ih =>
    rw [foldl_cons]
    by_cases here : thread = pid
    · subst here
      by_cases blocked : table.isBlocked thread
      · have woken := wakeBlocked_self count blocked
        have running : ¬ (wakeBlocked (table, count) thread).1.isBlocked thread := by
          rw [isBlocked_iff, woken]
          simp
        rw [ih _ (by rw [woken]; exact held), if_neg fun both => running both.2, woken,
          if_pos ⟨mem_cons_self, blocked⟩]
      · rw [wakeBlocked_idle count blocked, ih _ held, if_neg fun both => blocked both.2,
          if_neg fun both => blocked both.2]
    have same := wakeBlocked_other count held here
    have sameBlocked : (wakeBlocked (table, count) pid).1.isBlocked thread =
        table.isBlocked thread := by
      simp [isBlocked, same]
    rw [ih _ (by rw [same]; exact held), same, sameBlocked]
    simp [here]

lemma wakeAll_count (pids : List Nat) (count : Nat) :
    count ≤ (pids.foldl wakeBlocked (table, count)).2 ∧
      ((pids.foldl wakeBlocked (table, count)).2 = count ↔
        ∀ pid ∈ pids, ¬ table.isBlocked pid) := by
  induction pids generalizing table count with
  | nil => simp
  | cons pid rest ih =>
    rw [foldl_cons]
    by_cases blocked : table.isBlocked pid
    · have counted : wakeBlocked (table, count) pid = (table.setState pid .running, count + 1) := by
        simp [wakeBlocked, blocked]
      rw [counted]
      have more := (@ih (table.setState pid .running) (count + 1)).1
      refine ⟨by omega, fun same => by omega, fun idle => ?_⟩
      exact absurd blocked (idle pid mem_cons_self)
    rw [wakeBlocked_idle count blocked]
    refine ⟨(ih count).1, (ih count).2.trans ?_⟩
    simp [blocked]

def Outside (kernel : Kernel) (pid thread : Nat) : Prop :=
  kernel.table.holds thread = true ∧
    kernel.table.getGroupLeader thread ≠ kernel.table.getGroupLeader pid

structure SameThread (before after : Kernel) (thread : Nat) : Prop where
  state : (after.table.slotOf thread).state = (before.table.slotOf thread).state
  regs : after.regs (idxOf thread) = before.regs (idxOf thread)
  futexWaiters : after.futexWaiters.filter (fun entry => entry.2 = thread) =
    before.futexWaiters.filter fun entry => entry.2 = thread
  condWaitState : after.condWaitState thread = before.condWaitState thread
  epollBlocked : after.epollBlocked.filter (fun entry => entry.1 = thread) =
    before.epollBlocked.filter fun entry => entry.1 = thread

def Unaffected (before after : Kernel) (pid : Nat) : Prop :=
  ∀ thread, Outside before pid thread → SameThread before after thread

def NoneBlocked (kernel : Kernel) (pid : Nat) : Prop :=
  ∀ thread ∈ wakePids, thread ≠ pid → ¬ kernel.table.isBlocked thread = true

/-- A negative code finds no thread of another group blocked, and wakes nobody at all or no
thread of another group has an entry in the futex queues. -/
def Harmless (kernel : Kernel) (pid : Nat) : Departure → Prop
  | .sysExit code =>
    pid = 0 ∨ 0 ≤ code.toInt ∨
      (∀ thread ∈ wakePids, Outside kernel pid thread → ¬ kernel.table.isBlocked thread = true) ∧
        (NoneBlocked kernel pid ∨
          ∀ addr thread, (addr, thread) ∈ kernel.futexWaiters → ¬ Outside kernel pid thread)
  | .fault | .kill => True

lemma Outside.held (outside : Outside kernel pid thread) :
    (kernel.table.slotOf thread).pid = thread := (holds_iff.1 outside.1).1

lemma Outside.ne (outside : Outside kernel pid thread) : thread ≠ pid := by
  rintro rfl
  exact outside.2 rfl

lemma exit_unaffected (kernel : Kernel) (pid : Nat) (code : Int) :
    Unaffected kernel (kernel.exit pid code) pid := by
  intro thread outside
  refine ⟨?_, rfl, rfl, rfl, rfl⟩
  show ((kernel.table.markExited pid code).slotOf thread).state = _
  rw [markExited_other code outside.held outside.ne]

section Abnormal

variable {code : Word}

lemma sysExit_abnormal (user : pid ≠ 0) (negative : code.toInt < 0) :
    kernel.sysExit pid code = let exited := kernel.exit pid (code.setWidth 32).toInt
      { exited with
        table := (wakePids.foldl wakeBlocked (exited.table, 0)).1
        futexWaiters :=
          if 0 < (wakePids.foldl wakeBlocked (exited.table, 0)).2 then []
          else kernel.futexWaiters } := by
  simp only [sysExit, if_neg user, if_pos negative]
  rfl

lemma sysExit_slot (user : pid ≠ 0) (negative : code.toInt < 0)
    (held : (kernel.table.slotOf thread).pid = thread) (other : thread ≠ pid) :
    (kernel.sysExit pid code).table.slotOf thread =
      if thread ∈ wakePids ∧ kernel.table.isBlocked thread then
        { kernel.table.slotOf thread with state := .running }
      else kernel.table.slotOf thread := by
  have same := markExited_other (code.setWidth 32).toInt held other
  have heldAfter : ((kernel.table.markExited pid (code.setWidth 32).toInt).slotOf thread).pid =
      thread := by
    rw [same]
    exact held
  rw [sysExit_abnormal user negative]
  simp only [exit]
  rw [wakeAll_slot wakePids 0 heldAfter, same]
  simp [markExited_isBlocked, other]

lemma sysExit_futexWaiters (user : pid ≠ 0) (negative : code.toInt < 0) :
    (NoneBlocked kernel pid → (kernel.sysExit pid code).futexWaiters = kernel.futexWaiters) ∧
      (¬ NoneBlocked kernel pid → (kernel.sysExit pid code).futexWaiters = []) := by
  have counted := @wakeAll_count (kernel.table.markExited pid (code.setWidth 32).toInt) wakePids 0
  have quiet : NoneBlocked kernel pid ↔
      (wakePids.foldl wakeBlocked (kernel.table.markExited pid (code.setWidth 32).toInt, 0)).2 = 0 := by
    rw [counted.2]
    simp [markExited_isBlocked, NoneBlocked]
  rw [sysExit_abnormal user negative, quiet]
  simp only [exit]
  refine ⟨fun none => if_neg (by omega), fun some => if_pos (by omega)⟩

lemma sysExit_harmless (user : pid ≠ 0) (negative : code.toInt < 0)
    (unaffected : Unaffected kernel (kernel.sysExit pid code) pid) :
    (∀ thread ∈ wakePids, Outside kernel pid thread → ¬ kernel.table.isBlocked thread) ∧
      (NoneBlocked kernel pid ∨
        ∀ addr thread, (addr, thread) ∈ kernel.futexWaiters → ¬ Outside kernel pid thread) := by
  constructor
  · intro thread member outside blocked
    have state := (unaffected thread outside).state
    rw [sysExit_slot user negative outside.held outside.ne, if_pos ⟨member, blocked⟩,
      (isBlocked_iff.1 blocked).2] at state
    cases state
  by_contra neither
  rw [not_or] at neither
  refine neither.2 fun addr thread queued outside => ?_
  have entries := (unaffected thread outside).futexWaiters
  rw [(sysExit_futexWaiters user negative).2 neither.1] at entries
  have kept : (addr, thread) ∈ kernel.futexWaiters.filter fun entry => entry.2 = thread := by
    simp [queued]
  rw [← entries] at kept
  cases kept

lemma sysExit_unaffected (user : pid ≠ 0) (negative : code.toInt < 0)
    (noneWoken : ∀ thread ∈ wakePids, Outside kernel pid thread → ¬ kernel.table.isBlocked thread)
    (queues : NoneBlocked kernel pid ∨
      ∀ addr thread, (addr, thread) ∈ kernel.futexWaiters → ¬ Outside kernel pid thread) :
    Unaffected kernel (kernel.sysExit pid code) pid := by
  intro thread outside
  refine ⟨?_, ?_, ?_, ?_, ?_⟩
  · rw [sysExit_slot user negative outside.held outside.ne, if_neg]
    exact fun both => noneWoken thread both.1 outside both.2
  · rw [sysExit_abnormal user negative]
    rfl
  · by_cases quiet : NoneBlocked kernel pid
    · rw [(sysExit_futexWaiters user negative).1 quiet]
    have absent := queues.resolve_left quiet
    rw [(sysExit_futexWaiters user negative).2 quiet, filter_nil, eq_comm, filter_eq_nil_iff]
    rintro ⟨addr, waiter⟩ queued same
    obtain rfl : waiter = thread := by simpa using same
    exact absent addr waiter queued outside
  all_goals
    rw [sysExit_abnormal user negative]
    rfl

end Abnormal

theorem departure_unaffected_iff (kernel : Kernel) (pid : Nat) (departure : Departure) :
    Unaffected kernel (kernel.depart pid departure) pid ↔ Harmless kernel pid departure := by
  cases departure with
  | fault => exact ⟨fun _ => trivial, fun _ => exit_unaffected kernel pid (-1)⟩
  | kill => exact ⟨fun _ => trivial, fun _ => exit_unaffected kernel pid (-9)⟩
  | sysExit code =>
    simp only [depart, Harmless]
    by_cases idle : pid = 0
    · refine ⟨fun _ => .inl idle, fun _ thread _ => ?_⟩
      rw [sysExit, if_pos idle]
      exact ⟨rfl, rfl, rfl, rfl, rfl⟩
    by_cases negative : code.toInt < 0
    · have notNonneg : ¬ 0 ≤ code.toInt := by omega
      simp only [idle, notNonneg, false_or]
      exact ⟨sysExit_harmless idle negative,
        fun harmless => sysExit_unaffected idle negative harmless.1 harmless.2⟩
    refine ⟨fun _ => .inr (.inl (by omega)), fun _ => ?_⟩
    rw [sysExit, if_neg idle]
    simp only [negative, if_false]
    exact exit_unaffected kernel pid _

theorem shell_woken_by_crash : ∃ kernel, system.Reachable Runs.anyStep kernel ∧
    Outside kernel 2 1 ∧ (kernel.table.slotOf 1).state = .blocked ∧
      kernel.futexWaiters = [(0x5000, 1)] ∧
      ((kernel.depart 2 (.sysExit (-6))).table.slotOf 1).state = .running ∧
      (kernel.depart 2 (.sysExit (-6))).futexWaiters = [] := by
  obtain ⟨kernel, ran, outside, blocked, queued⟩ : ∃ kernel,
      system.run {} [.spawn 0 (some {}), .spawn 0 (some {}), .futexWait 1 0x5000] = some kernel ∧
        Outside kernel 2 1 ∧ kernel.table.isBlocked 1 = true ∧
        kernel.futexWaiters = [(0x5000, 1)] := by
    refine ⟨_, rfl, ⟨rfl, ?_⟩, rfl, rfl⟩
    decide
  have member : 1 ∈ wakePids := mem_range'_1.2 (by decide)
  refine ⟨kernel, Machine.run_reachable (.start rfl) ran, outside, (isBlocked_iff.1 blocked).2,
    queued, ?_, ?_⟩
  · rw [depart, sysExit_slot (by decide) (by decide) outside.held outside.ne,
      if_pos ⟨member, blocked⟩]
  · rw [depart, (sysExit_futexWaiters (by decide) (by decide)).2]
    exact fun quiet => quiet 1 member (by decide) blocked

def Apart (kernel : Kernel) : Prop := ∀ wait ∈ kernel.waits, idxOf wait.1 ≠ idxOf wait.2

lemma spawn_waits (entry : Word) (memory : Option Creation.Resources) :
    (kernel.spawn entry memory).1.waits = kernel.waits := by
  simp only [spawn]
  split <;> rfl

lemma spawn_free {entry : Word} {memory : Option Creation.Resources}
    (spawned : (kernel.spawn entry memory).2 = some pid) :
    (kernel.table.slotOf pid).state = .dead := by
  simp only [spawn] at spawned
  split at spawned <;> cases spawned
  rename_i drawn
  exact allocPidFrom_free (congrArg Prod.snd drawn)

lemma setRegs_waits (change : UserRegs → UserRegs) :
    (kernel.setRegs pid change).waits = kernel.waits := by
  simp only [setRegs]
  split <;> rfl

lemma saveReturnContext_waits (rip rsp : Word) (fs : Nat) :
    (kernel.saveReturnContext pid rip rsp fs).waits = kernel.waits := by
  simp only [saveReturnContext]
  split <;> exact setRegs_waits _

lemma saveFullUserGprs_waits (cpu : Nat) (snap : UserRegs) :
    (kernel.saveFullUserGprs cpu pid snap).waits = kernel.waits := by
  simp only [saveFullUserGprs]
  split
  · rfl
  · exact setRegs_waits _

lemma sysExecWait_apart {caller : Caller} (apart : Apart kernel)
    (holds : kernel.table.holds caller.pid) (lookup : Lookup) :
    Apart (kernel.sysExecWait caller lookup).1 := by
  cases lookup with
  | unreadable | notUtf8 | absent => exact apart
  | program entry memory =>
    simp only [sysExecWait]
    split
    · exact apart
    have same := @spawn_waits kernel entry memory
    split
    · rename_i after failed
      rw [failed] at same
      intro wait member
      exact apart wait (same ▸ member)
    rename_i after child spawned
    rw [spawned] at same
    have free : (kernel.table.slotOf child).state = .dead := spawn_free (congrArg Prod.snd spawned)
    intro wait member
    simp only [saveFullUserGprs_waits, saveReturnContext_waits, mem_append, mem_singleton] at member
    rcases member with before | rfl
    · exact apart wait (same ▸ before)
    intro here
    refine (holds_iff.1 holds).2 ?_
    rw [slotOf, ← here]
    exact free

lemma depart_waits {wait : Nat × Nat} {departure : Departure}
    (member : wait ∈ (kernel.depart pid departure).waits) : wait ∈ kernel.waits := by
  have exits : ∀ code, wait ∈ (kernel.exit pid code).waits → wait ∈ kernel.waits :=
    fun _ kept => (mem_filter.1 kept).1
  cases departure with
  | fault | kill => exact exits _ member
  | sysExit code =>
    simp only [depart, sysExit] at member
    split at member
    · exact member
    · split at member <;> exact exits (code.setWidth 32).toInt member

lemma step_apart {action : Action} {next : Kernel} (apart : Apart kernel)
    (taken : kernel.step action = some next) : Apart next := by
  cases action with try cases taken
  | execWait caller lookup =>
    obtain ⟨holds, rfl⟩ := of_guard taken
    exact sysExecWait_apart apart holds lookup
  | depart pid departure => exact fun wait member => apart wait (depart_waits member)
  | spawn entry memory => exact fun wait member => apart wait (spawn_waits entry memory ▸ member)
  | setState pid state =>
    simp only [step] at taken
    obtain ⟨-, rfl⟩ := of_guard taken
    exact apart
  | setRax pid value => exact fun wait member => apart wait (setRegs_waits _ ▸ member)
  | futexWait pid addr => exact apart
  | reapZombie pid =>
    intro wait member
    refine apart wait ?_
    simp only [Kernel.reapZombie] at member
    split at member <;> exact member

def exitValue (code : Word) : Word := (code.setWidth 32).signExtend 64

def Resumed (kernel : Kernel) (parent : Nat) (code : Word) : Prop :=
  (kernel.table.slotOf parent).pid = parent ∧ (kernel.table.slotOf parent).state = .running ∧
    (kernel.regs (idxOf parent)).rax = exitValue code

/-- Something else woke the parent, or the code is negative, and the stale saved value happens
to be the exit code. -/
def ResumedAnyway (kernel : Kernel) (child parent : Nat) (code : Word) : Prop :=
  (kernel.table.slotOf parent).pid = parent ∧ (kernel.regs (idxOf parent)).rax = exitValue code ∧
    ((kernel.table.slotOf parent).state = .running ∨
      child ≠ 0 ∧ code.toInt < 0 ∧ parent ∈ wakePids ∧ (kernel.table.slotOf parent).state = .blocked)

lemma sysExit_regs (code : Word) : (kernel.sysExit pid code).regs = kernel.regs := by
  simp only [sysExit]
  split
  · rfl
  · split <;> rfl

lemma sysExit_normal_slot {code : Word} (normal : ¬ (pid ≠ 0 ∧ code.toInt < 0))
    (apart : idxOf pid ≠ idxOf thread) :
    (kernel.sysExit pid code).table.slotOf thread = kernel.table.slotOf thread := by
  simp only [sysExit]
  split
  · rfl
  rename_i user
  rw [if_neg fun negative => normal ⟨user, negative⟩]
  simp only [exit, slotOf, markExited_apply]
  rw [if_neg fun both => apart both.1.symm]

lemma wakeAll_pid (pids : List Nat) (count idx : Nat) :
    ((pids.foldl wakeBlocked (table, count)).1 idx).pid = (table idx).pid := by
  induction pids generalizing table count with
  | nil => rfl
  | cons pid rest ih =>
    rw [foldl_cons]
    by_cases blocked : table.isBlocked pid
    · simp only [wakeBlocked, blocked, if_true]
      rw [ih, setState_apply]
      split <;> rfl
    · rw [wakeBlocked_idle count blocked, ih]

lemma sysExit_abnormal_pid {code : Word} (user : pid ≠ 0) (negative : code.toInt < 0) (idx : Nat) :
    ((kernel.sysExit pid code).table idx).pid = (kernel.table idx).pid := by
  rw [sysExit_abnormal user negative]
  simp only [exit, wakeAll_pid, markExited_apply]
  split <;> rfl

theorem exec_wait_resumed_iff (kernel : Kernel) (child parent : Nat) (code : Word)
    (reached : system.Reachable Runs.anyStep kernel) (waiting : (child, parent) ∈ kernel.waits) :
    Resumed (kernel.depart child (.sysExit code)) parent code ↔
      ResumedAnyway kernel child parent code := by
  have apart : idxOf child ≠ idxOf parent := by
    have invariant : Apart kernel := by
      refine reached.invariant ?_ ?_
      · rintro _ rfl _ member
        cases member
      · exact fun _ _ _ apart _ taken => step_apart apart taken
    exact invariant _ waiting
  simp only [depart, Resumed, ResumedAnyway, sysExit_regs]
  by_cases abnormal : child ≠ 0 ∧ code.toInt < 0
  · obtain ⟨user, negative⟩ := abnormal
    have samePid : ((kernel.sysExit child code).table.slotOf parent).pid =
        (kernel.table.slotOf parent).pid := sysExit_abnormal_pid user negative _
    rw [samePid]
    refine and_congr_right fun held => ?_
    have other : parent ≠ child := fun same => apart (same ▸ rfl)
    rw [sysExit_slot user negative held other, and_comm]
    refine and_congr_right fun _ => ?_
    by_cases woken : parent ∈ wakePids ∧ kernel.table.isBlocked parent = true
    · rw [if_pos woken]
      exact ⟨fun _ => .inr ⟨user, negative, woken.1, (isBlocked_iff.1 woken.2).2⟩, fun _ => rfl⟩
    rw [if_neg woken]
    refine ⟨Or.inl, ?_⟩
    rintro (running | ⟨_, _, member, blocked⟩)
    · exact running
    · exact absurd ⟨member, isBlocked_iff.2 ⟨held, blocked⟩⟩ woken
  rw [sysExit_normal_slot abnormal apart]
  constructor
  · rintro ⟨held, running, value⟩
    exact ⟨held, value, .inl running⟩
  rintro ⟨held, value, running | ⟨user, negative, _⟩⟩
  · exact ⟨held, running, value⟩
  · exact absurd ⟨user, negative⟩ abnormal

def execWaitSteps : List Action :=
  [.spawn 0 (some {}),
    .execWait { pid := 1, cpu := 0, rip := 0x400000, rsp := 0x7000, fs := 0, snap := {} }
      (.program 0 (some {}))]

theorem exec_wait_resumed_iff_sample : ∃ kernel, system.Reachable Runs.anyStep kernel ∧
    (2, 1) ∈ kernel.waits ∧
    (Resumed (kernel.depart 2 (.sysExit 0)) 1 0 ↔ ResumedAnyway kernel 2 1 0) := by
  obtain ⟨kernel, ran, waiting⟩ : ∃ kernel,
      system.run {} execWaitSteps = some kernel ∧ kernel.waits = [(2, 1)] := ⟨_, rfl, rfl⟩
  have reached := Machine.run_reachable (.start rfl) ran
  have member : (2, 1) ∈ kernel.waits := waiting ▸ mem_singleton_self _
  exact ⟨kernel, reached, member, exec_wait_resumed_iff kernel 2 1 0 reached member⟩

theorem parent_left_blocked : ∃ kernel, system.Reachable Runs.anyStep kernel ∧
    (2, 1) ∈ kernel.waits ∧
    ((kernel.depart 2 (.sysExit 0)).table.slotOf 2).state = .zombie 0 ∧
    ((kernel.depart 2 (.sysExit 0)).table.slotOf 1).state = .blocked ∧
    ¬ Resumed (kernel.depart 2 (.sysExit 0)) 1 0 := by
  obtain ⟨kernel, ran, waiting, exited, blocked⟩ : ∃ kernel,
      system.run {} execWaitSteps = some kernel ∧ kernel.waits = [(2, 1)] ∧
        ((kernel.depart 2 (.sysExit 0)).table.slotOf 2).state = .zombie 0 ∧
        ((kernel.depart 2 (.sysExit 0)).table.slotOf 1).state = .blocked :=
    ⟨_, rfl, rfl, rfl, rfl⟩
  refine ⟨kernel, Machine.run_reachable (.start rfl) ran, waiting ▸ mem_singleton_self _,
    exited, blocked, fun resumed => ?_⟩
  have running := resumed.2.1
  rw [blocked] at running
  cases running

end OsCortex.Exit
