import OsCortex.Process.CreationCore

/-!
`sys_exit` and `sys_exec_wait` of `syscall/handlers/fd.rs` with the exits by fault and by kill.
-/

namespace OsCortex.Exit

open Creation (Resources)

abbrev Word := BitVec 64

structure UserRegs where
  rip : Word := 0
  rsp : Word := 0
  rflags : Word := 0
  rax : Word := 0
  rbx : Word := 0
  rcx : Word := 0
  rdx : Word := 0
  rsi : Word := 0
  rdi : Word := 0
  rbp : Word := 0
  r8 : Word := 0
  r9 : Word := 0
  r10 : Word := 0
  r11 : Word := 0
  r12 : Word := 0
  r13 : Word := 0
  r14 : Word := 0
  r15 : Word := 0
  deriving DecidableEq

inductive CondWaitState where
  | waiting (cond mutex seq timeoutNs : Nat)
  | acquiringMutex (mutex : Nat) (timedOut : Bool)
  deriving DecidableEq

structure Kernel where
  table : Table := Table.empty
  nextPid : Nat := 1
  regs : Nat → UserRegs := fun _ => {}
  futexWaiters : List (Nat × Nat) := []
  condWaitState : Nat → Option CondWaitState := fun _ => none
  epollBlocked : List (Nat × Nat) := []
  gprsCaptured : Nat → Bool := fun _ => false
  /-- Child and parent of each `exec_wait` whose child has not exited. -/
  waits : List (Nat × Nat) := []

variable (kernel : Kernel)

def Kernel.exit (pid : Nat) (code : Int) : Kernel :=
  { kernel with
    table := kernel.table.markExited pid code
    waits := kernel.waits.filter fun wait => wait.1 ≠ pid }

def wakeBlocked : Table × Nat → Nat → Table × Nat
  | (table, count), pid =>
    if table.isBlocked pid then (table.setState pid .running, count + 1) else (table, count)

def wakePids : List Nat := List.range' 1 (maxProcs - 1)

/-- The code is a `u64`: the slot gets it `as i32`, the test for an abnormal exit is `as i64`. -/
def Kernel.sysExit (pid : Nat) (code : Word) : Kernel :=
  if pid = 0 then kernel
  else
    let exited := kernel.exit pid (code.setWidth 32).toInt
    if code.toInt < 0 then
      let (table, woken) := wakePids.foldl wakeBlocked (exited.table, 0)
      { exited with
        table
        futexWaiters := if 0 < woken then [] else exited.futexWaiters }
    else exited

def Kernel.reapZombie (kernel : Kernel) (pid : Nat) : Kernel :=
  if (kernel.table.slotOf pid).pid = pid ∧ (kernel.table.slotOf pid).state.isZombie then
    { kernel with
      table := kernel.table.reapZombie pid
      regs := Function.update kernel.regs (idxOf pid) {} }
  else kernel

inductive Departure where
  | sysExit (code : Word)
  | fault
  | kill
  deriving DecidableEq

def Kernel.depart (pid : Nat) : Departure → Kernel
  | .sysExit code => kernel.sysExit pid code
  | .fault => kernel.exit pid (-1)
  | .kill => kernel.exit pid (-9)

def Kernel.setRegs (pid : Nat) (change : UserRegs → UserRegs) : Kernel :=
  if (kernel.table.slotOf pid).pid = pid then
    { kernel with
      regs := Function.update kernel.regs (idxOf pid) (change (kernel.regs (idxOf pid))) }
  else kernel

def Kernel.setRax (pid : Nat) (value : Word) : Kernel :=
  kernel.setRegs pid fun regs => { regs with rax := value }

def Kernel.saveReturnContext (pid : Nat) (rip rsp : Word) (fs : Nat) : Kernel :=
  let saved := kernel.setRegs pid fun regs => { regs with rip, rsp, rflags := 0x202 }
  if (kernel.table.slotOf pid).pid = pid then
    { saved with table := kernel.table.write pid { kernel.table.slotOf pid with fsBase := fs } }
  else saved

/-- Only the first capture of a system call reads the snapshot of its CPU. -/
def Kernel.saveFullUserGprs (cpu pid : Nat) (snap : UserRegs) : Kernel :=
  if kernel.gprsCaptured cpu then kernel
  else
    let saved := kernel.setRegs pid fun regs =>
      { regs with
        rdi := snap.rdi
        rsi := snap.rsi
        rdx := snap.rdx
        r10 := snap.r10
        r8 := snap.r8
        r9 := snap.r9
        rbx := snap.rbx
        rbp := snap.rbp
        r12 := snap.r12
        r13 := snap.r13
        r14 := snap.r14
        r15 := snap.r15 }
    { saved with gprsCaptured := Function.update kernel.gprsCaptured cpu true }

/-- `memory` is `none` when the set-up of the new address space fails. -/
def Kernel.spawn (entry : Word) (memory : Option Resources) : Kernel × Option Nat :=
  match kernel.table.allocPid kernel.nextPid, memory with
  | (nextPid, some pid), some resources =>
    ({ kernel with
        nextPid
        table := kernel.table.write pid
          ((kernel.table.slotOf pid).spawned pid resources.pml4Phys resources.stackBase {})
        regs := Function.update kernel.regs (idxOf pid)
          { rip := entry, rsp := BitVec.ofNat 64 (userStackTop - 8), rflags := 0x202 } },
      some pid)
  | (nextPid, _), _ => ({ kernel with nextPid }, none)

def claimProcessOnCpu (table : Table) (pid cpu : Nat) : Table :=
  if (table.slotOf pid).pid = pid then
    table.write pid { table.slotOf pid with currentCpu := some cpu }
  else table

inductive Lookup where
  | unreadable
  | notUtf8
  | absent
  | program (entry : Word) (memory : Option Resources)

structure Caller where
  pid : Nat
  cpu : Nat
  rip : Word
  rsp : Word
  fs : Nat
  snap : UserRegs

def Kernel.sysExecWait (caller : Caller) : Lookup → Kernel × Except Int Nat
  | .unreadable => (kernel, .error (-14))
  | .notUtf8 => (kernel, .error (-22))
  | .absent => (kernel, .error (-2))
  | .program entry memory =>
    if caller.pid = 0 then (kernel, .error (-1))
    else
      match kernel.spawn entry memory with
      | (kernel, none) => (kernel, .error (-12))
      | (kernel, some child) =>
        let claimed := { kernel with
          table := (claimProcessOnCpu kernel.table child caller.cpu).setChildParent child
            caller.pid }
        let saved :=
          (claimed.saveReturnContext caller.pid caller.rip caller.rsp caller.fs).saveFullUserGprs
            caller.cpu caller.pid caller.snap
        ({ saved with
            table := saved.table.setState caller.pid .blocked
            waits := saved.waits ++ [(child, caller.pid)] },
          .ok child)

/-! The kernel as its threads call it, and what other system calls do to a waiting thread. -/

inductive Action where
  | execWait (caller : Caller) (lookup : Lookup)
  | depart (pid : Nat) (departure : Departure)
  | spawn (entry : Word) (memory : Option Resources)
  | setState (pid : Nat) (state : ProcState)
  | setRax (pid : Nat) (value : Word)
  | futexWait (pid addr : Nat)
  | reapZombie (pid : Nat)

def Kernel.step : Action → Option Kernel
  | .execWait caller lookup =>
    if kernel.table.holds caller.pid then some (kernel.sysExecWait caller lookup).1 else none
  | .depart pid departure => some (kernel.depart pid departure)
  | .spawn entry memory => some (kernel.spawn entry memory).1
  | .setState pid state =>
    if state = .running ∨ state = .blocked then
      some { kernel with table := kernel.table.setState pid state }
    else none
  | .setRax pid value => some (kernel.setRax pid value)
  | .futexWait pid addr =>
    some { kernel with
      table := kernel.table.setState pid .blocked
      futexWaiters := kernel.futexWaiters ++ [(addr, pid)] }
  | .reapZombie pid => some (kernel.reapZombie pid)

def system : Runs.Machine Kernel Action where
  start kernel := kernel = {}
  step := Kernel.step

end OsCortex.Exit
