import OsCortex.Process.CreationCore

/-!
The wake-up paths of the system calls. A waker collects pids from a waiter table and calls
`set_state` for each of them afterwards; the calls still to come are kept in `inFlight`.
-/

namespace OsCortex.Wake

open Creation

instance lawfulPairs : LawfulBEq (Nat × Nat) := inferInstance

structure Kernel where
  table : Table
  nextPid : Nat
  /-- `FUTEX_WAITERS` as pairs of address and pid, oldest first. -/
  futexWaiters : List (Nat × Nat)
  /-- `EPOLL_TABLE` as pairs of epoll descriptor and watched descriptor. -/
  epollTable : List (Nat × Nat)
  /-- `EPOLL_BLOCKED`: pid and the epoll descriptor it waits on. -/
  epollBlocked : List (Nat × Nat)
  timerFds : List Nat
  eventFds : List Nat
  /-- The `Waiting` entries of `COND_WAIT_STATE`: pid and condition variable. -/
  condWaits : List (Nat × Nat)
  stormCond : Nat
  stormCount : Nat
  pendingWakes : List Nat
  inFlight : List Nat
  unreaped : Nat → Bool

abbrev Translate := Nat → Nat → Option Nat

variable (table : Table)

def pml4PhysOf (pid : Nat) : Option Nat :=
  if table.holds pid then some (table.slotOf pid).pml4Phys else none

def futexPhysOf (translate : Translate) (pid addr : Nat) : Option Nat := do
  let root ← pml4PhysOf table pid
  let frame ← translate root (addr - addr % 4096)
  return frame ||| addr % 4096

def sameSpace (translate : Translate) (caller addr waiter : Nat) : Bool :=
  let callerGroup := if caller = 0 then 0 else table.getGroupLeader caller
  let callerPhys := if caller = 0 then none else futexPhysOf table translate caller addr
  if callerGroup = 0 then true
  else
    match callerPhys, futexPhysOf table translate waiter addr with
    | some callerWord, some waiterWord => callerWord == waiterWord
    | _, _ => table.getGroupLeader waiter == callerGroup

def takeWaiters (addr : Nat) (shares : Nat → Bool) :
    Nat → List (Nat × Nat) → List Nat × List (Nat × Nat)
  | _, [] => ([], [])
  | count, (parkedAt, waiter) :: rest =>
    if parkedAt = addr ∧ count ≠ 0 ∧ shares waiter then
      let (woke, kept) := takeWaiters addr shares (count - 1) rest
      (waiter :: woke, kept)
    else
      let (woke, kept) := takeWaiters addr shares count rest
      (woke, (parkedAt, waiter) :: kept)

variable (kernel : Kernel)

def Kernel.futexWakeWaiters (translate : Translate) (caller addr count : Nat) : Kernel × Nat :=
  let (woke, kept) :=
    takeWaiters addr (sameSpace kernel.table translate caller addr) count kernel.futexWaiters
  ({ kernel with futexWaiters := kept, inFlight := kernel.inFlight ++ woke }, woke.length)

def Kernel.futexWakeAllKnownWaiters (translate : Translate) (caller : Nat) : Kernel :=
  (kernel.futexWaiters.map Prod.fst).foldl
    (fun kernel addr => (kernel.futexWakeWaiters translate caller addr (2 ^ 32 - 1)).1) kernel

def siblingPids (current : Nat) : List Nat :=
  if (table.slotOf current).pid ≠ current then []
  else
    ((List.range maxProcs).map fun idx => (table idx).pid).filter fun pid =>
      pid ≠ 0 ∧ table.getGroupLeader pid = table.getGroupLeader current

def Kernel.engineBroadcastStormWake (translate : Translate) (broadcaster cond : Nat) : Kernel :=
  if cond ≠ kernel.stormCond then { kernel with stormCond := cond, stormCount := 0 }
  else if kernel.stormCount < 3 then { kernel with stormCount := kernel.stormCount + 1 }
  else
    let siblings := siblingPids kernel.table broadcaster
    if siblings.length ≤ 1 then { kernel with stormCount := 0 }
    else
      let targets := kernel.condWaits.filter fun (pid, waitsOn) =>
        pid ∈ siblings ∧ pid ≠ broadcaster ∧ waitsOn ≠ cond
      targets.foldl (fun kernel (pid, waitsOn) =>
        let (woken, count) := kernel.futexWakeWaiters translate broadcaster waitsOn (2 ^ 31 - 1)
        if count = 0 then woken else { woken with inFlight := woken.inFlight ++ [pid] })
        { kernel with stormCount := 0 }

def Kernel.epollWaitersOf (fds : List Nat) : List Nat :=
  let watching := (kernel.epollTable.filter fun (_, fd) => fd ∈ fds).map Prod.fst
  (kernel.epollBlocked.filter fun (_, epfd) => epfd ∈ watching).map Prod.fst

def Kernel.releaseEpoll (pids : List Nat) : Kernel :=
  { kernel with epollBlocked := kernel.epollBlocked.filter fun (pid, _) => pid ∉ pids }

def Kernel.epollWake (fd : Nat) : Kernel :=
  let pids := kernel.epollWaitersOf [fd]
  { kernel.releaseEpoll pids with pendingWakes := kernel.pendingWakes ++ pids.map idxOf }

def Kernel.forceWakeAllTaskRunners : Kernel :=
  let pids := kernel.epollWaitersOf (kernel.timerFds ++ kernel.eventFds)
  { kernel.releaseEpoll pids with inFlight := kernel.inFlight ++ pids }

def Kernel.handlePendingWakes : Kernel :=
  { kernel with
    table := kernel.pendingWakes.foldl Table.wakeSlot kernel.table
    pendingWakes := [] }

def Kernel.exit (pid : Nat) (code : Int) : Kernel :=
  if kernel.table.holds pid then
    { kernel with
      table := kernel.table.markExited pid code
      unreaped := Function.update kernel.unreaped (idxOf pid) true }
  else kernel

def Kernel.killGroup (leader : Nat) : Kernel :=
  (kernel.table.groupMembers leader).foldl (fun kernel pid => kernel.exit pid (-9)) kernel

/-- The tail of `sys_exit`: an abnormal exit wakes everything that is blocked. -/
def Kernel.sysExit (pid : Nat) (code : Int) : Kernel :=
  let exited := kernel.exit pid code
  let blocked := (List.range' 1 (maxProcs - 1)).filter exited.table.isBlocked
  if code < 0 ∧ blocked ≠ [] then
    { exited with futexWaiters := [], inFlight := exited.inFlight ++ blocked }
  else exited

def Kernel.reap (table : Table) : Kernel :=
  { kernel with
    table
    unreaped := fun idx => kernel.unreaped idx && decide (table idx = kernel.table idx) }

inductive Action where
  | create (request : Request) (resources : Resources)
  | exit (pid : Nat) (code : Int)
  | kill (pid : Nat)
  | killGroup (leader : Nat)
  | sysExit (pid : Nat) (code : Int)
  | waitpid (pid : Nat)
  | reapZombie (pid : Nat)
  | reapOneZombie (parent : Nat)
  | reapZombieChildren (parent : Nat)
  | setState (pid : Nat) (state : ProcState)
  | deliver (pid : Nat)
  | futexWait (pid addr : Nat)
  | futexWaiterRemove (pid addr : Nat)
  | futexWake (translate : Translate) (caller addr count : Nat)
  | futexWakeAllKnownWaiters (translate : Translate) (caller : Nat)
  | condWait (pid cond : Nat)
  | condWaitEnd (pid : Nat)
  | engineBroadcastStormWake (translate : Translate) (broadcaster cond : Nat)
  | vsyncBatonPost (caller baton : Nat)
  | appCloseForeground (caller : Nat)
  | epollCtl (epfd fd : Nat)
  | timerfdCreate (fd : Nat)
  | eventfdCreate (fd : Nat)
  | epollWait (pid epfd : Nat)
  | epollReturn (pid : Nat)
  | epollWake (fd : Nat)
  | handlePendingWakes
  | forceWakeAllTaskRunners

def Kernel.create (request : Request) (resources : Resources) : Kernel :=
  match inherit kernel.table request with
  | none => kernel
  | some inherited =>
    let (nextPid, allocated) := kernel.table.allocPid kernel.nextPid
    match allocated with
    | none => { kernel with nextPid }
    | some pid =>
      { kernel with
        nextPid
        table := kernel.table.write pid
          (published kernel.table request inherited pid resources) }

def shellPid : Nat := 1

def Kernel.step : Action → Option Kernel
  | .create request resources => some (kernel.create request resources)
  | .exit pid code => some (kernel.exit pid code)
  | .kill pid => some (kernel.exit pid (-9))
  | .killGroup leader => some (kernel.killGroup leader)
  | .sysExit pid code => some (kernel.sysExit pid code)
  | .waitpid pid => some (kernel.reap (kernel.table.waitpid pid).1)
  | .reapZombie pid => some (kernel.reap (kernel.table.reapZombie pid))
  | .reapOneZombie parent => some (kernel.reap (kernel.table.reapOneZombie parent).1)
  | .reapZombieChildren parent => some (kernel.reap (kernel.table.reapZombieChildren parent))
  | .setState pid state =>
    if state = .running ∨ state = .blocked then
      some { kernel with table := kernel.table.setState pid state }
    else none
  | .deliver pid =>
    if pid ∈ kernel.inFlight then
      some { kernel with
        table := kernel.table.setState pid .running
        inFlight := kernel.inFlight.erase pid }
    else none
  | .futexWait pid addr =>
    some { kernel with
      futexWaiters :=
        if (addr, pid) ∈ kernel.futexWaiters then kernel.futexWaiters
        else kernel.futexWaiters ++ [(addr, pid)] }
  | .futexWaiterRemove pid addr =>
    some { kernel with
      futexWaiters := kernel.futexWaiters.filter fun waiter => waiter ≠ (addr, pid) }
  | .futexWake translate caller addr count =>
    some (kernel.futexWakeWaiters translate caller addr count).1
  | .futexWakeAllKnownWaiters translate caller =>
    some (kernel.futexWakeAllKnownWaiters translate caller)
  | .condWait pid cond =>
    some { kernel with
      condWaits := (kernel.condWaits.filter fun entry => entry.1 ≠ pid) ++ [(pid, cond)] }
  | .condWaitEnd pid =>
    some { kernel with condWaits := kernel.condWaits.filter fun entry => entry.1 ≠ pid }
  | .engineBroadcastStormWake translate broadcaster cond =>
    some (kernel.engineBroadcastStormWake translate broadcaster cond)
  | .vsyncBatonPost caller baton =>
    if baton = 0 then some kernel
    else some { kernel with inFlight := kernel.inFlight ++ [caller] }
  | .appCloseForeground caller =>
    if caller ≠ shellPid ∧ kernel.table.isBlocked shellPid then
      some { kernel with inFlight := kernel.inFlight ++ [shellPid] }
    else some kernel
  | .epollCtl epfd fd => some { kernel with epollTable := kernel.epollTable ++ [(epfd, fd)] }
  | .timerfdCreate fd => some { kernel with timerFds := kernel.timerFds ++ [fd] }
  | .eventfdCreate fd => some { kernel with eventFds := kernel.eventFds ++ [fd] }
  | .epollWait pid epfd =>
    some { kernel.releaseEpoll [pid] with
      epollBlocked := (kernel.releaseEpoll [pid]).epollBlocked ++ [(pid, epfd)] }
  | .epollReturn pid => some (kernel.releaseEpoll [pid])
  | .epollWake fd => some (kernel.epollWake fd)
  | .handlePendingWakes => some kernel.handlePendingWakes
  | .forceWakeAllTaskRunners => some kernel.forceWakeAllTaskRunners

def boot : Kernel :=
  { table := Table.empty, nextPid := 1, futexWaiters := [], epollTable := [], epollBlocked := []
    timerFds := [], eventFds := [], condWaits := [], stormCond := 0, stormCount := 0
    pendingWakes := [], inFlight := [], unreaped := fun _ => false }

def system : Runs.Machine Kernel Action where
  start kernel := kernel = boot
  step := Kernel.step

end OsCortex.Wake
