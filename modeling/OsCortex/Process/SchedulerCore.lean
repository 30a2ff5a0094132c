import OsCortex.Syscall.ExitCore

/-!
Which CPU runs which thread, in `process/mod.rs`, `syscall/handlers/fd.rs` and `arch/x86_64/idt.rs`.
One action is one critical section of the process table, or a step that only touches its own CPU.
-/

namespace OsCortex.Scheduler

open Creation (Resources)
open Exit (claimProcessOnCpu)

structure Wm where
  focusPid : Nat := 0
  inputPendingFor : Nat → Nat := fun _ => 0
  embedderBatonDue : Nat → Bool := fun _ => false
  /-- `flutter_init_ready` without `flutter_bootstrap_spin_active` -/
  ready : Bool := true

def Wm.target (wm : Wm) : Nat := if wm.focusPid ≠ 0 then wm.focusPid else 1

inductive AssistStage where
  | wake
  | claim
  | enter
  deriving DecidableEq

inductive Halt where
  | idle
  | waiting
  | missed (pid : Nat)
  deriving DecidableEq

/-- Where a CPU stands. In `serving`, `loaded` and `user` it acts for its `current_pid`. -/
inductive Pc where
  | idle
  | serving
  /-- `alloc_pid` gave `child`. Without a bootstrap the caller is `sys_exec_wait`. -/
  | publishing (child : Nat) (bootstrap : Option SpawnBootstrap)
  | claiming (child : Nat)
  | linking (child : Nat)
  | blocking (child : Nat)
  | waiting
  | picked (next : Nat)
  /-- At the head of the loop of `enter_user_by_pid_noreturn`. -/
  | requested (pid : Nat)
  | missed (pid : Nat)
  | chosen (pid : Nat)
  /-- The wake assist of the timer interrupt, which came in at `back`. -/
  | assist (stage : AssistStage) (target : Nat) (back : Halt)
  | loaded
  | user
  | panicked
  deriving DecidableEq

def Halt.pc : Halt → Pc
  | .idle => .idle
  | .waiting => .waiting
  | .missed pid => .missed pid

def Pc.halt? : Pc → Option Halt
  | .idle => some .idle
  | .waiting => some .waiting
  | .missed pid => some (.missed pid)
  | _ => none

structure Cpu where
  pc : Pc := .idle
  currentPid : Nat := 0
  deriving DecidableEq

structure State where
  table : Table := Table.empty
  home : Nat → Nat := fun _ => 0
  nextPid : Nat := 1
  nextAppCpu : Nat := 0
  pendingInitPid : Nat := 1
  cpus : Nat → Cpu := fun _ => {}

def claimable (process : Process) (cpu : Nat) : Bool :=
  process.currentCpu.isNone || process.currentCpu == some cpu

variable (table : Table)

def claimSlot (idx cpu : Nat) : Table :=
  Function.update table idx { table idx with currentCpu := some cpu }

def free (pid cpu : Nat) : Bool :=
  (table.slotOf pid).pid == pid && (table.slotOf pid).state == .running
    && claimable (table.slotOf pid) cpu

def tryClaimCpuFor (pid cpu : Nat) : Option Table :=
  if free table pid cpu then some (claimSlot table (idxOf pid) cpu) else none

variable (cpuCount : Nat)

def atHome (home : Nat → Nat) (idx cpu : Nat) : Bool := cpuCount ≤ 1 || home idx == cpu

variable (state : State)

def tryClaimCpuForTry (pid cpu : Nat) : Option Table :=
  if atHome cpuCount state.home (idxOf pid) cpu then tryClaimCpuFor state.table pid cpu else none

def foreground (wm : Wm) : Option Nat :=
  let group := if wm.focusPid > 1 then table.getGroupLeader wm.focusPid else 1
  let leader := table.slotOf group
  if group > 1 ∧ leader.pid = group ∧ leader.live then some group else none

def inForeground (wm : Wm) (pid : Nat) : Bool :=
  match foreground table wm with
  | none => true
  | some group => table.getGroupLeader pid == group

def ready (idx cpu : Nat) : Bool :=
  (state.table idx).state == .running && atHome cpuCount state.home idx cpu
    && claimable (state.table idx) cpu

def readyPid (pid cpu : Nat) : Bool :=
  (state.table.slotOf pid).pid == pid && ready cpuCount state (idxOf pid) cpu

def roundRobin (current : Nat) : List Nat :=
  let start := if current = 0 then 0 else idxOf ((current + 1) % 2 ^ 32)
  (List.range maxProcs).map fun off => (start + off) % maxProcs

def scanned (wm : Wm) (current cpu idx : Nat) : Bool :=
  let pid := (state.table idx).pid
  pid != 0 && ready cpuCount state idx cpu && inForeground state.table wm pid
    && (current == 0 || pid != current)

def pickSlot (wm : Wm) (current cpu : Nat) : Option Nat :=
  let target := wm.target
  if inForeground state.table wm target ∧ 0 < wm.inputPendingFor target ∧ current ≠ target
      ∧ readyPid cpuCount state target cpu then
    some (idxOf target)
  else if (foreground state.table wm).isNone ∧ current ≠ 1 ∧ wm.embedderBatonDue 1
      ∧ readyPid cpuCount state 1 cpu then
    some (idxOf 1)
  else
    match (roundRobin current).find? (scanned cpuCount state wm current cpu) with
    | some idx => some idx
    | none =>
      if current ≠ 0 ∧ readyPid cpuCount state current cpu
          ∧ inForeground state.table wm current then
        some (idxOf current)
      else none

def nextRunnablePidLocked (wm : Wm) (current cpu : Nat) : Table × Option Nat :=
  match pickSlot cpuCount state wm current cpu with
  | some idx => (claimSlot state.table idx cpu, some (state.table idx).pid)
  | none => (state.table, none)

def nextRunnablePid (wm : Wm) (current cpu : Nat) : Table × Option Nat :=
  if state.pendingInitPid ≠ 0 then (state.table, none)
  else nextRunnablePidLocked cpuCount state wm current cpu

def saveCurrent (current : Nat) : Table :=
  let slot := table.slotOf current
  if slot.pid = current ∧ slot.state = .running then
    table.write current { slot with currentCpu := none }
  else table

def loadNext (current next cpu : Nat) : Table × Option Nat :=
  let slot := table.slotOf next
  if slot.pid ≠ next ∨ slot.state ≠ .running then (claimSlot table (idxOf current) cpu, none)
  else (claimSlot table (idxOf next) cpu, some next)

def timerPreemptSwitch (wm : Wm) (current cpu : Nat) : Table × Option Nat :=
  match nextRunnablePidLocked cpuCount state wm current cpu with
  | (table, none) => (table, none)
  | (table, some next) =>
    if next = current then (table, none)
    else loadNext (saveCurrent table current) current next cpu

def pickHomeCpu (bootstrap : SpawnBootstrap) : Nat × Nat :=
  if bootstrap.rdi = hostModeApp ∧ 1 < cpuCount then
    (1 + state.nextAppCpu % (cpuCount - 1), (state.nextAppCpu + 1) % 2 ^ 32)
  else (0, state.nextAppCpu)

inductive Action where
  /-- `sys_exec_wait` when there is no bootstrap, another `spawn` when there is. -/
  | alloc (bootstrap : Option SpawnBootstrap)
  | publish (memory : Option Resources)
  | claimChild
  | linkChild
  | blockParent
  | launchInit
  | block
  /-- `locked` callers hold the table's lock already: they do not ask for the pending init. -/
  | pick (wm : Wm) (locked : Bool)
  | claimFor (target : Nat)
  | handOff (block : Bool)
  | handToInit
  | enterClaim
  | repick (wm : Wm)
  | load
  | enter
  | trap
  | sysret
  /-- `preempt`: the slice is over or input is due, and the lock was free. -/
  | timer (wm : Wm) (preempt : Bool)
  | assist (wm : Wm)
  | assistNext (locked : Bool)
  | exit (code : Int)
  | fault
  | kill (pid : Nat)
  | reap (pid : Nat)

inductive Label where
  | on (cpu : Nat) (action : Action)
  | wake (pid : Nat)
  | deliverWake (idx : Nat)

def State.goto (cpu : Nat) (pc : Pc) : State :=
  { state with cpus := Function.update state.cpus cpu { state.cpus cpu with pc } }

def State.leaveFor (cpu pid : Nat) : State :=
  { state with cpus := Function.update state.cpus cpu { pc := .loaded, currentPid := pid } }

def State.alloc (cpu : Nat) (bootstrap : Option SpawnBootstrap) : State :=
  match state.table.allocPid state.nextPid with
  | (nextPid, some child) => { state.goto cpu (.publishing child bootstrap) with nextPid }
  | (nextPid, none) => { state with nextPid }

def State.publish (cpu child : Nat) (bootstrap : Option SpawnBootstrap)
    (memory : Option Resources) : State :=
  match memory with
  | none => state.goto cpu .serving
  | some resources =>
    let given := bootstrap.getD {}
    let (homeCpu, nextAppCpu) := pickHomeCpu cpuCount state given
    { state.goto cpu (if bootstrap.isNone then .claiming child else .serving) with
      table := state.table.write child
        ((state.table.slotOf child).spawned child resources.pml4Phys resources.stackBase given)
      home := Function.update state.home (idxOf child) homeCpu
      nextAppCpu }

def State.took (cpu : Nat) (held : Bool) : Table × Option Nat → State
  | (table, none) => { state with table }
  | (table, some next) =>
    let pc :=
      if next = (state.cpus cpu).currentPid then .serving
      else if held then .picked next
      else .requested next
    { state.goto cpu pc with table }

def State.assistNext (cpu target : Nat) (back : Halt) (locked : Bool) : AssistStage → State
  | .wake =>
    -- `set_state_try` does not look at the old state
    if locked ∨ (state.table.slotOf target).pid ≠ target then state.goto cpu back.pc
    else
      { state.goto cpu
          (if (state.cpus cpu).currentPid = target then back.pc
            else .assist .claim target back) with
        table := state.table.setState target .running }
  | .claim =>
    match if locked then none else tryClaimCpuForTry cpuCount state target cpu with
    | some table => { state.goto cpu (.assist .enter target back) with table }
    | none => state.goto cpu back.pc
  | .enter =>
    if locked ∨ (state.table.slotOf target).pid ≠ target then state.goto cpu back.pc
    else state.leaveFor cpu target

def assists (cpu : Nat) (wm : Wm) : Bool :=
  let current := (state.cpus cpu).currentPid
  let slot := state.table.slotOf wm.target
  (if slot.pid = wm.target then state.home (idxOf wm.target) else 0) == cpu && wm.ready
    && (current == 0 || state.table.isBlocked current)
    && (0 < wm.inputPendingFor wm.target || wm.embedderBatonDue wm.target)

def State.act (cpu : Nat) (action : Action) : Option State :=
  let current := (state.cpus cpu).currentPid
  match (state.cpus cpu).pc, action with
  | .serving, .alloc bootstrap =>
    if bootstrap.isNone ∧ current = 0 then none else some (state.alloc cpu bootstrap)
  | .publishing child bootstrap, .publish memory =>
    some (state.publish cpuCount cpu child bootstrap memory)
  | .claiming child, .claimChild =>
    some { state.goto cpu (.linking child) with
      table := claimProcessOnCpu state.table child cpu }
  | .linking child, .linkChild =>
    some { state.goto cpu (.blocking child) with
      table := state.table.setChildParent child current }
  | .blocking child, .blockParent =>
    some { state.goto cpu (.requested child) with
      table := state.table.setState current .blocked }
  | .idle, .launchInit =>
    if state.pendingInitPid = 0 then none
    else
      some { state.goto cpu (.requested state.pendingInitPid) with
        table := claimProcessOnCpu state.table state.pendingInitPid cpu
        pendingInitPid := 0 }
  | .serving, .block =>
    some { state.goto cpu .waiting with table := state.table.setState current .blocked }
  | .idle, .pick wm _ =>
    match nextRunnablePid cpuCount state wm 0 cpu with
    | (table, none) => some { state with table }
    | (table, some next) => some { state.goto cpu (.requested next) with table }
  | .serving, .pick wm locked =>
    some (state.took cpu true
      (if locked then nextRunnablePidLocked cpuCount state wm current cpu
        else nextRunnablePid cpuCount state wm current cpu))
  | .waiting, .pick wm locked =>
    some (state.took cpu false
      (if locked then nextRunnablePidLocked cpuCount state wm current cpu
        else nextRunnablePid cpuCount state wm current cpu))
  | .serving, .claimFor target =>
    match if target = current then none else tryClaimCpuFor state.table target cpu with
    | some table => some { state.goto cpu (.picked target) with table }
    | none => some state
  | .picked next, .handOff block =>
    some { state.goto cpu (.requested next) with
      table := if block then state.table.setState current .blocked else state.table }
  | .waiting, .handToInit =>
    if 2 ≤ current ∧ state.table.getGroupLeader current = 1 then
      some { state.goto cpu (.requested 1) with table := state.table.setState 1 .running }
    else none
  | .requested pid, .enterClaim =>
    if (state.table.slotOf pid).pid = pid ∧ claimable (state.table.slotOf pid) cpu then
      some { state.goto cpu (.chosen pid) with table := claimSlot state.table (idxOf pid) cpu }
    else some (state.goto cpu (.missed pid))
  | .missed pid, .repick wm =>
    match nextRunnablePid cpuCount state wm current cpu with
    | (table, none) => some { state.goto cpu (.requested pid) with table }
    | (table, some other) =>
      some { state.goto cpu (if other ≠ pid then .chosen other else .requested pid) with table }
  | .chosen pid, .load =>
    if (state.table.slotOf pid).pid ≠ pid then some (state.goto cpu .panicked)
    else some { state.leaveFor cpu pid with table := claimSlot state.table (idxOf pid) cpu }
  | .loaded, .enter => some (state.goto cpu .user)
  | .user, .trap => some (state.goto cpu .serving)
  | .serving, .sysret => some (state.goto cpu .loaded)
  | .user, .timer wm preempt =>
    match if preempt then timerPreemptSwitch cpuCount state wm current cpu
      else (state.table, none) with
    | (table, none) => some { state.goto cpu .loaded with table }
    | (table, some next) => some { state.leaveFor cpu next with table }
  | .assist stage target back, .assistNext locked =>
    some (state.assistNext cpuCount cpu target back locked stage)
  | .serving, .exit code =>
    some { state.goto cpu .idle with table := state.table.markExited current code }
  | .user, .fault =>
    some
      { state with
        table := state.table.markExited current (-1)
        cpus := Function.update state.cpus cpu {} }
  | .serving, .kill pid => some { state with table := state.table.markExited pid (-9) }
  | .serving, .reap pid => some { state with table := state.table.reapZombie pid }
  | pc, .assist wm =>
    match if assists state cpu wm then pc.halt? else none with
    | some back => some (state.goto cpu (.assist .wake wm.target back))
    | none => none
  | _, _ => none

def State.step : Label → Option State
  | .on cpu action => state.act cpuCount cpu action
  | .wake pid => some { state with table := state.table.setState pid .running }
  | .deliverWake idx => some { state with table := state.table.wakeSlot idx }

def Placed : Prop := ∀ idx, (table idx).pid ≠ 0 → idxOf (table idx).pid = idx

/-- The boot may have created threads; no CPU has entered one. -/
def system : Runs.Machine State Label where
  start state := Placed state.table ∧ ∀ cpu, state.cpus cpu = {}
  step := State.step cpuCount

end OsCortex.Scheduler
