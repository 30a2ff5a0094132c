import Mathlib

/-!
The process table of `process/mod.rs` and the capability words of `security/mod.rs`.
-/

namespace OsCortex

abbrev Capabilities := BitVec 64

namespace Capabilities

def cortex : Capabilities := 1#64 <<< 0
def driver : Capabilities := 1#64 <<< 1
def net : Capabilities := 1#64 <<< 2
def fs : Capabilities := 1#64 <<< 3
def proc : Capabilities := 1#64 <<< 4
def mem : Capabilities := 1#64 <<< 5
def irq : Capabilities := 1#64 <<< 6
def audit : Capabilities := 1#64 <<< 7
def time : Capabilities := 1#64 <<< 8

end Capabilities

def allCaps : Capabilities :=
  [Capabilities.cortex, Capabilities.driver, Capabilities.net, Capabilities.fs, Capabilities.proc,
    Capabilities.mem, Capabilities.irq, Capabilities.audit, Capabilities.time].foldl (· ||| ·) 0#64

def noCaps : Capabilities := 0#64

def check (holder required : Capabilities) : Bool := holder &&& required == required

inductive ProcState where
  | dead
  | running
  | blocked
  | zombie (code : Int)
  deriving DecidableEq

def ProcState.isZombie : ProcState → Bool
  | .zombie _ => true
  | _ => false

/-- One slot of the table; the defaults are those of `Process::empty`. -/
structure Process where
  pid : Nat := 0
  pml4Phys : Nat := 0
  state : ProcState := .dead
  exitCode : Int := 0
  caps : Capabilities := noCaps
  syscallStackBase : Nat := 0
  isThread : Bool := false
  parentPid : Nat := 0
  fsBase : Nat := 0
  userStackBase : Nat := 0
  userStackSize : Nat := 0
  currentCpu : Option Nat := none
  deriving DecidableEq

def Process.empty : Process := {}

variable (process : Process)

def Process.live : Bool := process.state == .running || process.state == .blocked

def maxProcs : Nat := 256

abbrev Table := Nat → Process

def idxOf (pid : Nat) : Nat := pid % maxProcs

def Table.empty : Table := fun _ => Process.empty

variable (table : Table)

def Table.slotOf (pid : Nat) : Process := table (idxOf pid)

def Table.write (pid : Nat) (process : Process) : Table := Function.update table (idxOf pid) process

def Table.allocPidFrom (table : Table) : Nat → Nat → Nat × Option Nat
  | 0, nextPid => (nextPid, none)
  | fuel + 1, nextPid =>
    let advanced := (nextPid + 1) % 2 ^ 32
    if (table.slotOf nextPid).state = .dead then (advanced, some nextPid)
    else table.allocPidFrom fuel advanced

def Table.allocPid (nextPid : Nat) : Nat × Option Nat := table.allocPidFrom maxProcs nextPid

/-- Follows `parent_pid` from thread to thread. A chain that visits more slots than there
are repeats one, and the source loop then never ends. -/
def Table.groupLeaderFrom (table : Table) : Nat → Nat → Nat
  | 0, pid => pid
  | fuel + 1, pid =>
    let process := table.slotOf pid
    if process.pid = pid ∧ process.isThread ∧ process.parentPid ≠ 0 then
      table.groupLeaderFrom fuel process.parentPid
    else pid

def Table.getGroupLeader (pid : Nat) : Nat := table.groupLeaderFrom maxProcs pid

def Table.setState (pid : Nat) (state : ProcState) : Table :=
  if (table.slotOf pid).pid = pid then table.write pid { table.slotOf pid with state }
  else table

/-- The deferred wake of `wake_process`, applied by `handle_pending_wakes_try`. -/
def Table.wakeSlot (idx : Nat) : Table :=
  if (table idx).pid ≠ 0 ∧ (table idx).state = .blocked then
    Function.update table idx { table idx with state := .running }
  else table

def Table.isBlocked (pid : Nat) : Bool :=
  (table.slotOf pid).pid == pid && (table.slotOf pid).state == .blocked

def Table.holds (pid : Nat) : Bool :=
  (table.slotOf pid).pid == pid && (table.slotOf pid).state != .dead

def Process.exited (code : Int) : Process :=
  { process with
    syscallStackBase := 0
    state := .zombie code
    exitCode := code
    currentCpu := none }

def Table.markExited (pid : Nat) (code : Int) : Table :=
  if table.holds pid then table.write pid ((table.slotOf pid).exited code) else table

def Table.groupMembers (leader : Nat) : List Nat :=
  ((List.range maxProcs).map table).filterMap fun process =>
    if process.pid ≠ 0 ∧ process.live ∧ table.getGroupLeader process.pid = leader then
      some process.pid
    else none

def Table.waitpid (pid : Nat) : Table × Except String Int :=
  if ¬ table.holds pid then (table, .error "no such process")
  else
    match (table.slotOf pid).state with
    | .zombie code => (table.write pid Process.empty, .ok code)
    | _ => (table, .error "not exited")

def Table.reapZombie (pid : Nat) : Table :=
  if (table.slotOf pid).pid = pid ∧ (table.slotOf pid).state.isZombie then
    table.write pid Process.empty
  else table

def Process.reapableBy (parent : Nat) : Bool :=
  process.pid != 0 && process.parentPid == parent && process.state.isZombie

def Table.reapOneZombie (parent : Nat) : Table × Option (Nat × Int) :=
  match (List.range maxProcs).find? fun idx => (table idx).reapableBy parent with
  | some idx =>
    (Function.update table idx Process.empty, some ((table idx).pid, (table idx).exitCode))
  | none => (table, none)

def Table.reapZombieChildren (parent : Nat) : Table :=
  fun idx => if idx < maxProcs ∧ (table idx).reapableBy parent then Process.empty else table idx

/-- The page-table root `get_user_context` reports: of Running slots only. -/
def Table.getUserContext (pid : Nat) : Option Nat :=
  if (table.slotOf pid).pid = pid ∧ (table.slotOf pid).state = .running then
    some (table.slotOf pid).pml4Phys
  else none

def Table.setChildParent (child parent : Nat) : Table :=
  if (table.slotOf child).pid = child then
    table.write child { table.slotOf child with parentPid := parent }
  else table

def hostModeShell : Nat := 1
def hostModeApp : Nat := 2

def userStackTop : Nat := 0x7FFFFFFF0000
def userStackSize : Nat := 4 * 1024 * 1024

structure SpawnBootstrap where
  rdi : Nat := 0
  rsi : Nat := 0
  rdx : Nat := 0
  parentPid : Nat := 0
  deriving DecidableEq

def bootstrapCaps (bootstrap : SpawnBootstrap) : Capabilities :=
  if bootstrap.rdi = hostModeShell then allCaps else Capabilities.net

def Process.spawned (slot : Process) (pid pml4Phys stackBase : Nat) (bootstrap : SpawnBootstrap) :
    Process :=
  { slot with
    pid
    pml4Phys
    state := .running
    exitCode := 0
    caps := bootstrapCaps bootstrap
    syscallStackBase := stackBase
    isThread := false
    parentPid := bootstrap.parentPid
    fsBase := 0
    userStackBase := userStackTop - OsCortex.userStackSize
    userStackSize := OsCortex.userStackSize
    currentCpu := none }

def Process.threadOf (slot : Process) (tid pml4Phys stackBase owner : Nat) (caps : Capabilities)
    (fsBase stackVa stackSize : Nat) : Process :=
  { slot with
    pid := tid
    pml4Phys
    state := .running
    exitCode := 0
    caps
    syscallStackBase := stackBase
    isThread := true
    parentPid := owner
    fsBase
    userStackBase := stackVa
    userStackSize := stackSize
    currentCpu := none }

/-- `fork_current` leaves the TLS base and the stack bounds of the slot as they were. -/
def Process.forked (slot : Process) (pid pml4Phys stackBase parent : Nat) (caps : Capabilities) :
    Process :=
  { slot with
    pid
    pml4Phys
    state := .running
    exitCode := 0
    caps
    syscallStackBase := stackBase
    isThread := false
    parentPid := parent }

end OsCortex
