import OsCortex.Process.CreationCore

/-! The system calls that create processes and threads, one after the other. -/

namespace OsCortex.Launch

open Creation

inductive Syscall where
  | exec
  | execWait
  | appLaunch (appId : Nat)
  | appLaunchPath (flags : Nat)
  | fork
  | clone (flags childRip stackTop : Nat)
  | threadCreate (stackSize : Nat)
  | isolateSpawn (aotVa aotSize entryOffset stackSize : Nat)
  deriving DecidableEq

def pathBootstrap (caller flags : Nat) : SpawnBootstrap :=
  let mode := flags &&& 0xFF
  let appId := flags >>> 32
  let rdi := if mode = 0 then hostModeShell else mode
  { rdi, rsi := if rdi = hostModeApp then appId else 0, rdx := 0, parentPid := max caller 1 }

def cloneVm : Nat := 0x100

def requestOf (caller : Nat) : Syscall → Option Request
  | .exec | .execWait => some (.spawn {})
  | .appLaunch appId => some (.spawn { rdi := hostModeApp, rsi := appId, parentPid := 1 })
  | .appLaunchPath flags => some (.spawn (pathBootstrap caller flags))
  | .fork => some (.fork caller)
  | .clone flags childRip stackTop =>
    if flags &&& cloneVm = 0 ∨ childRip = 0 ∨ stackTop = 0 then none else some (.clone caller)
  | .threadCreate stackSize =>
    some (.thread caller (if stackSize = 0 then 1024 * 1024 else max stackSize (512 * 1024)))
  | .isolateSpawn aotVa aotSize entryOffset stackSize =>
    if aotVa = 0 ∨ max aotSize 1 ≤ entryOffset then none
    else some (.thread caller (if stackSize = 0 then 131072 else stackSize))

structure Grant where
  holder : Capabilities
  given : Capabilities
  deriving DecidableEq

structure Kernel where
  table : Table
  nextPid : Nat
  grants : List Grant

variable (kernel : Kernel)

def Kernel.create (caller pid : Nat) (syscall : Syscall) (process : Process) : Kernel :=
  let published := kernel.table.write pid process
  { kernel with
    table :=
      if syscall = .execWait then (published.setChildParent pid caller).setState caller .blocked
      else published
    grants := { holder := (kernel.table.slotOf caller).caps, given := process.caps } ::
      kernel.grants }

/-- A call of `caller`. With `none` for the resources the creation fails after `alloc_pid`:
no memory, or an image that does not load. -/
def Kernel.call (caller : Nat) (syscall : Syscall) (resources : Option Resources) : Option Kernel :=
  if caller = 0 ∨ kernel.table.holds caller = false then none
  else
    match requestOf caller syscall with
    | none => some kernel
    | some request =>
      match inherit kernel.table request with
      | none => some kernel
      | some inherited =>
        let (nextPid, allocated) := kernel.table.allocPid kernel.nextPid
        match allocated, resources with
        | some pid, some resources =>
          some (({ kernel with nextPid } : Kernel).create caller pid syscall
            (published kernel.table request inherited pid resources))
        | _, _ => some { kernel with nextPid }

inductive Action where
  | call (caller : Nat) (syscall : Syscall) (resources : Option Resources)
  | exit (pid : Nat) (code : Int)
  | waitpid (pid : Nat)
  | reapZombie (pid : Nat)
  | reapOneZombie (parent : Nat)
  | reapZombieChildren (parent : Nat)
  | setState (pid : Nat) (state : ProcState)

def Kernel.step : Action → Option Kernel
  | .call caller syscall resources => kernel.call caller syscall resources
  | .exit pid code => some { kernel with table := kernel.table.markExited pid code }
  | .waitpid pid => some { kernel with table := (kernel.table.waitpid pid).1 }
  | .reapZombie pid => some { kernel with table := kernel.table.reapZombie pid }
  | .reapOneZombie parent => some { kernel with table := (kernel.table.reapOneZombie parent).1 }
  | .reapZombieChildren parent =>
    some { kernel with table := kernel.table.reapZombieChildren parent }
  | .setState pid state =>
    if state = .dead then none else some { kernel with table := kernel.table.setState pid state }

def boot (resources : Resources) : Kernel :=
  { table := Table.empty.write 1 (Process.empty.spawned 1 resources.pml4Phys resources.stackBase
      { rdi := hostModeShell })
    nextPid := 2
    grants := [] }

def system : Runs.Machine Kernel Action where
  start kernel := ∃ resources, kernel = boot resources
  step := Kernel.step

end OsCortex.Launch
