import OsCortex.Process.TableChecks
import OsCortex.Syscall.WakeCore

/-!
Zombies stay zombies until they are reaped, provided no waker calls `set_state` for one: it only
compares the pid.
-/

namespace OsCortex.Wake

open Creation Table Kernel

def ZombieOf (table : Table) (pid : Nat) : Prop :=
  (table.slotOf pid).pid = pid ∧ (table.slotOf pid).state.isZombie = true

def SparesZombies (kernel : Kernel) : Action → Prop
  | .setState pid _ | .deliver pid => ¬ ZombieOf kernel.table pid
  | _ => True

def Resting (kernel : Kernel) : Prop :=
  ∀ idx, kernel.unreaped idx = true → (kernel.table idx).state.isZombie = true

lemma Resting.same {before after : Kernel} (resting : Resting before)
    (table : after.table = before.table) (unreaped : after.unreaped = before.unreaped) :
    Resting after := by
  intro idx exited
  rw [table]
  exact resting idx (unreaped ▸ exited)

variable {kernel : Kernel}

lemma Resting.wakeSlots {table : Table} {unreaped : Nat → Bool}
    (resting : ∀ idx, unreaped idx → (table idx).state.isZombie)
    (slots : List Nat) :
    ∀ idx, unreaped idx → ((slots.foldl wakeSlot table) idx).state.isZombie := by
  induction slots generalizing table with
  | nil => exact resting
  | cons slot rest ih =>
    refine ih fun idx exited => ?_
    have zombie := resting idx exited
    simp only [wakeSlot]
    split
    · rename_i blocked
      by_cases here : idx = slot
      · subst idx
        rw [blocked.2] at zombie
        cases zombie
      · rw [Function.update_of_ne here]
        exact zombie
    · exact zombie

def SameSlots (before after : Kernel) : Prop :=
  after.table = before.table ∧ after.unreaped = before.unreaped

lemma sameSlots_foldl {α : Type} {step : Kernel → α → Kernel}
    (same : ∀ kernel item, SameSlots kernel (step kernel item)) (items : List α)
    (kernel : Kernel) : SameSlots kernel (items.foldl step kernel) := by
  induction items generalizing kernel with
  | nil => exact ⟨rfl, rfl⟩
  | cons item rest ih =>
    obtain ⟨table, unreaped⟩ := ih (step kernel item)
    exact ⟨table.trans (same kernel item).1, unreaped.trans (same kernel item).2⟩

lemma engineBroadcastStormWake_sameSlots (kernel : Kernel) (translate : Translate)
    (broadcaster cond : Nat) :
    SameSlots kernel (kernel.engineBroadcastStormWake translate broadcaster cond) := by
  simp only [engineBroadcastStormWake]
  iterate 3
    split
    · exact ⟨rfl, rfl⟩
  · refine sameSlots_foldl (fun kernel target => ?_) _ { kernel with stormCount := 0 }
    split <;> exact ⟨rfl, rfl⟩

section

variable (resting : Resting kernel)
include resting

lemma Resting.setState {pid : Nat}
    (spared : ¬ ZombieOf kernel.table pid) (state : ProcState) :
    Resting { kernel with table := kernel.table.setState pid state } := by
  intro idx exited
  have zombie := resting idx exited
  simp only [setState_apply]
  split
  · rename_i target
    obtain ⟨rfl, held⟩ := target
    exact absurd ⟨held, zombie⟩ spared
  · exact zombie

lemma Resting.exit (pid : Nat) (code : Int) :
    Resting (kernel.exit pid code) := by
  intro idx exited
  simp only [Kernel.exit] at exited ⊢
  split at exited
  · rename_i holds
    simp only [if_pos holds, markExited_apply]
    by_cases here : idx = idxOf pid
    · rw [if_pos ⟨here, holds⟩]
      rfl
    rw [if_neg fun both => here both.1]
    simp only [Function.update_of_ne here] at exited
    exact resting idx exited
  rename_i missing
  simp only [if_neg missing]
  exact resting idx exited

lemma Resting.reap (table : Table) : Resting (kernel.reap table) := by
  intro idx exited
  simp only [Kernel.reap, Bool.and_eq_true, decide_eq_true_eq] at exited ⊢
  rw [exited.2]
  exact resting idx exited.1

lemma Resting.create (request : Request)
    (resources : Resources) : Resting (kernel.create request resources) := by
  simp only [Kernel.create]
  split
  · exact resting
  split
  · exact resting
  rename_i pid allocated
  intro idx exited
  have zombie := resting idx exited
  have free : (kernel.table.slotOf pid).state = .dead := allocPidFrom_free allocated
  simp only [write_apply]
  split
  · subst idx
    simp only [slotOf] at free
    rw [free] at zombie
    cases zombie
  · exact zombie

lemma killGroup_resting (pids : List Nat) :
    Resting (pids.foldl (fun kernel pid => kernel.exit pid (-9)) kernel) := by
  induction pids generalizing kernel with
  | nil => exact resting
  | cons pid rest ih => exact ih (resting.exit pid (-9))

lemma step_resting {next : Kernel} {action : Action}
    (spares : SparesZombies kernel action) (stepped : kernel.step action = some next) :
    Resting next := by
  cases action with try cases stepped
  | create request resources => exact resting.create request resources
  | exit pid code => exact resting.exit pid code
  | kill pid => exact resting.exit pid (-9)
  | killGroup leader => exact killGroup_resting resting _
  | sysExit pid code =>
    simp only [sysExit]
    split <;> exact (resting.exit pid code).same rfl rfl
  | waitpid pid | reapZombie pid | reapOneZombie parent | reapZombieChildren parent =>
    exact resting.reap _
  | setState pid state =>
    obtain ⟨-, rfl⟩ := of_guard stepped
    exact resting.setState spares state
  | deliver pid =>
    simp only [Kernel.step] at stepped
    obtain ⟨-, rfl⟩ := of_guard stepped
    exact (resting.setState spares .running).same rfl rfl
  | futexWakeAllKnownWaiters translate caller =>
    have same : ∀ kernel addr, SameSlots kernel
        (kernel.futexWakeWaiters translate caller addr (2 ^ 32 - 1)).1 :=
      fun _ _ => ⟨rfl, rfl⟩
    obtain ⟨table, unreaped⟩ := sameSlots_foldl same (kernel.futexWaiters.map Prod.fst) kernel
    exact resting.same table unreaped
  | engineBroadcastStormWake translate broadcaster cond =>
    obtain ⟨table, unreaped⟩ := engineBroadcastStormWake_sameSlots kernel translate broadcaster cond
    exact resting.same table unreaped
  | vsyncBatonPost caller baton | appCloseForeground caller =>
    simp only [Kernel.step] at stepped
    split at stepped <;> (cases stepped; exact resting.same rfl rfl)
  | handlePendingWakes => exact Resting.wakeSlots resting kernel.pendingWakes
  | futexWait | futexWaiterRemove | futexWake | condWait | condWaitEnd | epollCtl
  | timerfdCreate | eventfdCreate | epollWait | epollReturn | epollWake
  | forceWakeAllTaskRunners => exact resting.same rfl rfl

end

theorem zombie_until_reaped (kernel : Kernel) (reached : system.Reachable SparesZombies kernel) :
    ∀ idx, kernel.unreaped idx = true → (kernel.table idx).state.isZombie = true := by
  have resting : Resting kernel := by
    refine reached.invariant ?_ ?_
    · rintro _ rfl _ impossible
      cases impossible
    · intro before action after holds spares stepped
      exact step_resting holds spares stepped
  exact resting

def killedWaiter : List Action :=
  [.create (.spawn { rdi := hostModeShell }) {}, .create (.thread 1 4096) {},
    .futexWait 2 0x7000, .setState 2 .blocked, .kill 2]

theorem zombie_until_reaped_killed :
    ∃ kernel, system.Reachable SparesZombies kernel ∧ kernel.unreaped 2 = true ∧
      (kernel.table 2).pid = 2 ∧ (kernel.table 2).state.isZombie = true := by
  have created : system.Reachable SparesZombies
      ((boot.create (.spawn { rdi := hostModeShell }) {}).create (.thread 1 4096) {}) :=
    ((Runs.Machine.Reachable.start rfl).step
      (show SparesZombies boot (.create (.spawn { rdi := hostModeShell }) {}) from trivial) rfl).step
      (show SparesZombies _ (.create (.thread 1 4096) {}) from trivial) rfl
  have killed := created.step (show SparesZombies _ (.kill 2) from trivial) rfl
  exact ⟨_, killed, by decide +kernel, by decide +kernel,
    zombie_until_reaped _ killed 2 (by decide +kernel)⟩

theorem zombie_revived :
    ∃ kernel, system.Reachable Runs.anyStep kernel ∧ kernel.unreaped 2 = true ∧
      (kernel.table 2).pid = 2 ∧ (kernel.table 2).state = .running := by
  have ran : (system.run boot (killedWaiter ++
      [.futexWake (fun _ _ => none) 1 0x7000 1, .deliver 2])).map (fun kernel =>
        (kernel.unreaped 2, (kernel.table 2).pid, (kernel.table 2).state)) =
      some (true, 2, .running) := by
    decide +kernel
  obtain ⟨kernel, reached, facts⟩ := Option.map_eq_some_iff.mp ran
  simp only [Prod.mk.injEq] at facts
  exact ⟨kernel, Runs.Machine.run_reachable (.start rfl) reached, facts⟩

def queuedOn (addr : Nat) (shares : Nat → Bool) (waiter : Nat × Nat) : Bool :=
  waiter.1 == addr && shares waiter.2

lemma queuedOn_iff {addr : Nat} {shares : Nat → Bool} {waiter : Nat × Nat} :
    queuedOn addr shares waiter ↔ waiter.1 = addr ∧ shares waiter.2 := by
  rw [queuedOn, Bool.and_eq_true, beq_iff_eq]

lemma takeWaiters_spec (addr : Nat) (shares : Nat → Bool) (waiters : List (Nat × Nat))
    (count : Nat) :
    let queue := waiters.filter (queuedOn addr shares)
    let taken := takeWaiters addr shares count waiters
    taken.1 = (queue.take count).map Prod.snd ∧
      taken.2.filter (queuedOn addr shares) = queue.drop count ∧
      taken.2.filter (! queuedOn addr shares ·) = waiters.filter (! queuedOn addr shares ·) ∧
      taken.2.Sublist waiters := by
  induction waiters generalizing count with
  | nil => simp [takeWaiters]
  | cons waiter rest ih =>
    simp only [takeWaiters]
    by_cases here : queuedOn addr shares waiter
    · have parts := queuedOn_iff.1 here
      cases count with
      | zero => simpa [here] using ih 0
      | succ count =>
        obtain ⟨woke, left, others, sublist⟩ := ih count
        simp [parts, here, woke, left, others, sublist.cons waiter]
    obtain ⟨woke, left, others, sublist⟩ := ih count
    have passed : ¬ (waiter.1 = addr ∧ count ≠ 0 ∧ shares waiter.2) :=
      fun ⟨same, _, share⟩ => here (queuedOn_iff.2 ⟨same, share⟩)
    simp [passed, here, woke, left, others, sublist]

def Shares (table : Table) (translate : Translate) (caller addr waiter : Nat) : Prop :=
  match futexPhysOf table translate caller addr, futexPhysOf table translate waiter addr with
  | some word, some other => word = other
  | _, _ => table.getGroupLeader waiter = table.getGroupLeader caller

lemma sameSpace_iff (table : Table) (translate : Translate) (caller addr waiter : Nat) :
    sameSpace table translate caller addr waiter ↔
      caller = 0 ∨ table.getGroupLeader caller = 0 ∨ Shares table translate caller addr waiter := by
  by_cases kernel : caller = 0
  · simp [sameSpace, kernel]
  by_cases none : table.getGroupLeader caller = 0
  · simp [sameSpace, none]
  simp only [sameSpace, kernel, none, if_false, false_or, Shares]
  cases futexPhysOf table translate caller addr <;>
    cases futexPhysOf table translate waiter addr <;> simp

theorem wakes_in_order (kernel : Kernel) (translate : Translate) (caller addr count : Nat) :
    let (next, woken) := kernel.futexWakeWaiters translate caller addr count
    let queued := queuedOn addr (sameSpace kernel.table translate caller addr)
    let queue := kernel.futexWaiters.filter queued
    (∀ waiter, queued waiter ↔ waiter.1 = addr ∧ (caller = 0 ∨
        kernel.table.getGroupLeader caller = 0 ∨
        Shares kernel.table translate caller addr waiter.2)) ∧
      next = { kernel with
        futexWaiters := next.futexWaiters
        inFlight := kernel.inFlight ++ (queue.take count).map Prod.snd } ∧
      woken = min count queue.length ∧
      next.futexWaiters.filter queued = queue.drop count ∧
      next.futexWaiters.filter (! queued ·) = kernel.futexWaiters.filter (! queued ·) ∧
      next.futexWaiters.Sublist kernel.futexWaiters := by
  obtain ⟨woke, left, others, sublist⟩ := takeWaiters_spec addr
    (sameSpace kernel.table translate caller addr) kernel.futexWaiters count
  refine ⟨fun waiter => ?_, ?_, ?_, left, others, sublist⟩
  · rw [← sameSpace_iff, queuedOn_iff]
  · rw [woke]
  · rw [woke, List.length_map, List.length_take]

theorem kernel_wakes_stranger :
    let kernel : Kernel := { boot with
      table := fun idx => if idx = 5 then { pid := 5, state := .blocked } else {}
      futexWaiters := [(0x7000, 5)] }
    ¬ Shares kernel.table (fun _ _ => none) 0 0x7000 5 ∧
      (kernel.futexWakeWaiters (fun _ _ => none) 0 0x7000 1).2 = 1 := by
  intro kernel
  have apart : kernel.table.getGroupLeader 5 ≠ kernel.table.getGroupLeader 0 := by decide +kernel
  exact ⟨apart, by decide +kernel⟩

end OsCortex.Wake
