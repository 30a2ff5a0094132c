import OsCortex.Process.DlCore
import OsCortex.Process.ElfCore
import OsCortex.Process.TableCore

/-!
The life of a process in `process/mod.rs` with the frames and page tables it takes and gives back. A
result of `none` is a kernel panic.
-/

namespace OsCortex.Lifecycle

open Paging (Memory)

structure Kernel where
  table : Table
  nextPid : Nat
  memory : Memory
  libs : Dl.LibTable
  hhdm : Nat

def stackFrames : Nat := 16

/-- The base is an HHDM address; those sums do not overflow. -/
def allocSyscallStack (hhdm : Nat) (memory : Memory) : Outcome Memory String Nat :=
  match memory.allocContiguousFrames stackFrames with
  | (memory, some phys) => .ok memory (phys + hhdm)
  | (memory, none) => .fail memory "OOM: syscall stack"

def freeSyscallStack (hhdm base : Nat) (memory : Memory) : Memory :=
  if base = 0 ∨ base < hhdm then memory
  else memory.freeAll ((List.range stackFrames).map fun i => base - hhdm + i * 4096)

def allocUserPml4 (cr3 : Nat) (memory : Memory) : Outcome Memory String Nat :=
  match memory.allocUserPml4 cr3 with
  | (memory, some phys) => .ok memory phys
  | (memory, none) => .fail memory "OOM: pml4"

def mapStackPage (pml4Phys : Nat) (memory : Memory) (i : Nat) (_ : Unit) :
    Outcome Memory String Unit :=
  (memory.allocFrameOr "OOM: stack").andThen fun memory phys =>
    memory.mapUserPage pml4Phys (userStackTop - userStackSize + i * 4096) phys

def trampolinePagesVa : Nat := 0x7FFFE000
def sysdataVa : Nat := 0x7FFFC000

def mapTrampolinePages (pml4Phys : Nat) (memory : Memory) : Outcome Memory String Unit :=
  (memory.allocFrameOr "OOM: trampoline page 0").andThen fun memory phys0 =>
    (memory.allocFrameOr "OOM: trampoline page 1").andThen fun memory phys1 =>
      (memory.mapUserPageWithFlags pml4Phys trampolinePagesVa phys0 false true).andThen
        fun memory _ =>
          memory.mapUserPageWithFlags pml4Phys (trampolinePagesVa + 0x1000) phys1 false true

def mapSysdataPage (pml4Phys : Nat) (memory : Memory) : Outcome Memory String Unit :=
  (memory.allocFrameOr "OOM: sysdata page").andThen fun memory phys =>
    memory.mapUserPageWithFlags pml4Phys sysdataVa phys true false

def buildSpace (image : Elf.Image) (pml4Phys : Nat) (memory : Memory) :
    Outcome Memory String Unit :=
  (Elf.load image memory pml4Phys).andThen fun memory _ =>
    (Outcome.forEach (mapStackPage pml4Phys) (List.range (userStackSize / 4096)) memory ()).andThen
      fun memory _ =>
        (mapTrampolinePages pml4Phys memory).andThen fun memory _ => mapSysdataPage pml4Phys memory

def setUp (hhdm cr3 : Nat) (image : Elf.Image) (memory : Memory) :
    Outcome Memory String (Nat × Nat) :=
  (allocSyscallStack hhdm memory).andThen fun memory stackBase =>
    (allocUserPml4 cr3 memory).andThen fun memory pml4Phys =>
      (buildSpace image pml4Phys memory).andThen fun memory _ => .ok memory (stackBase, pml4Phys)

variable (kernel : Kernel)

/-- `cr3` is the root of the CPU that runs the call. -/
def Kernel.spawn (cr3 : Nat) (image : Elf.Image) (bootstrap : SpawnBootstrap) :
    Outcome Kernel String Nat :=
  match kernel.table.allocPid kernel.nextPid with
  | (nextPid, none) => .fail { kernel with nextPid } "process table full"
  | (nextPid, some pid) =>
    ((setUp kernel.hhdm cr3 image kernel.memory).focus fun memory =>
      { kernel with nextPid, memory }).andThen fun kernel (stackBase, pml4Phys) =>
        let process := (kernel.table.slotOf pid).spawned pid pml4Phys stackBase bootstrap
        .ok { kernel with table := kernel.table.write pid process } pid

def Kernel.mmapThread (pml4Phys stackBase pages : Nat) (oom : String) : Outcome Kernel String Nat :=
  let mapped := fun va => (kernel.memory.translateUserPage pml4Phys va).isSome
  match kernel.libs.mmapAnon mapped pml4Phys 0 pages with
  | (libs, some va) => .ok { kernel with libs } va
  | (libs, none) =>
    let memory := freeSyscallStack kernel.hhdm stackBase kernel.memory
    .fail { kernel with libs, memory } oom

/-- The kernel writes a byte of user memory: a fault that is not resolved is fatal. -/
def Kernel.touch (pml4Phys virt : Nat) : Outcome Kernel String Unit :=
  match kernel.memory.demandPage pml4Phys virt false with
  | some (memory, true) => .ok { kernel with memory } ()
  | _ => none

def Kernel.threadMemory (pml4Phys stackBase stackSize : Nat) : Outcome Kernel String (Nat × Nat) :=
  (kernel.mmapThread pml4Phys stackBase (Dl.u64 (stackSize + 4095) / 4096)
    "OOM: thread stack").andThen fun kernel stackVa =>
      let stackTop := Dl.u64 (stackVa + stackSize)
      -- the return address may lie across a page boundary
      (kernel.touch pml4Phys (Dl.u64 (stackTop + 2 ^ 64 - 8))).andThen fun kernel _ =>
        (kernel.touch pml4Phys (Dl.u64 (stackTop + 2 ^ 64 - 1))).andThen fun kernel _ =>
          (kernel.mmapThread pml4Phys stackBase 1 "OOM: thread TLS").andThen fun kernel tlsVa =>
            (kernel.touch pml4Phys tlsVa).andThen fun kernel _ => .ok kernel (stackVa, tlsVa)

def Kernel.createThread (parent stackSize : Nat)
    (prepare : Kernel → Nat → Nat → Outcome Kernel String (Nat × Nat)) :
    Outcome Kernel String Nat :=
  if kernel.table.holds parent then
    let pml4Phys := (kernel.table.slotOf parent).pml4Phys
    let owner := kernel.table.getGroupLeader parent
    match kernel.table.allocPid kernel.nextPid with
    | (nextPid, none) => .fail { kernel with nextPid } "process table full"
    | (nextPid, some tid) =>
      ((allocSyscallStack kernel.hhdm kernel.memory).focus fun memory =>
        { kernel with nextPid, memory }).andThen fun kernel stackBase =>
          (prepare kernel pml4Phys stackBase).andThen fun kernel (stackVa, tlsVa) =>
            let process := (kernel.table.slotOf tid).threadOf tid pml4Phys stackBase owner
              (kernel.table.slotOf owner).caps tlsVa stackVa stackSize
            .ok { kernel with table := kernel.table.write tid process } tid
  else .fail kernel "parent not found"

def Kernel.spawnThread (parent stackSize : Nat) : Outcome Kernel String Nat :=
  kernel.createThread parent stackSize fun kernel pml4Phys stackBase =>
    kernel.threadMemory pml4Phys stackBase stackSize

def Kernel.cloneThread (parent : Nat) : Outcome Kernel String Nat :=
  kernel.createThread parent 0 fun kernel _ _ => .ok kernel (0, 0)

def Kernel.reclaim (pid va size : Nat) : Option Kernel :=
  match kernel.memory.unmapUserRange (kernel.table.slotOf pid).pml4Phys va size with
  | some memory =>
    let libs :=
      match kernel.table.getUserContext pid with
      | some pml4Phys => kernel.libs.recycleAnonVa pml4Phys va size
      | none => kernel.libs
    some { kernel with memory, libs }
  | none => none

def anonStack (process : Process) : Bool :=
  process.userStackBase != 0 && process.userStackSize != 0 && Dl.isAnon process.userStackBase

def anonTls (process : Process) : Bool := process.fsBase != 0 && Dl.isAnon process.fsBase

def Kernel.releaseSpace (pid : Nat) : Option Kernel :=
  let process := kernel.table.slotOf pid
  if process.isThread then
    let stackGone :=
      if anonStack process then kernel.reclaim pid process.userStackBase process.userStackSize
      else some kernel
    stackGone.bind fun kernel =>
      if anonTls process then kernel.reclaim pid process.fsBase 4096 else some kernel
  else some { kernel with memory := kernel.memory.freeUserPml4 process.pml4Phys }

def Kernel.exit (pid : Nat) (code : Int) : Option Kernel :=
  if kernel.table.holds pid then
    (kernel.releaseSpace pid).map fun after =>
      { after with
        memory := freeSyscallStack kernel.hhdm (kernel.table.slotOf pid).syscallStackBase
          after.memory
        table := after.table.markExited pid code }
  else some kernel

def Kernel.exitAll : List Nat → Kernel → Option Kernel
  | [], kernel => some kernel
  | pid :: rest, kernel => (kernel.exit pid (-9)).bind (Kernel.exitAll rest)

inductive Call where
  | spawn (cr3 : Nat) (image : Elf.Image) (bootstrap : SpawnBootstrap)
  | spawnThread (parent stackSize : Nat)
  | cloneThread (parent : Nat)
  | exit (pid : Nat) (code : Int)
  | kill (pid : Nat)
  | killGroup (leader : Nat)
  | waitpid (pid : Nat)
  | reapZombie (pid : Nat)
  | reapOneZombie (parent : Nat)
  | reapZombieChildren (parent : Nat)
  | setState (pid : Nat) (state : ProcState)

def Kernel.step : Call → Option Kernel
  | .spawn cr3 image bootstrap => (kernel.spawn cr3 image bootstrap).map Prod.fst
  -- the stack size is a `usize`
  | .spawnThread parent stackSize => (kernel.spawnThread parent (Dl.u64 stackSize)).map Prod.fst
  | .cloneThread parent => (kernel.cloneThread parent).map Prod.fst
  | .exit pid code => kernel.exit pid code
  | .kill pid => if kernel.table.holds pid then kernel.exit pid (-9) else some kernel
  | .killGroup leader => kernel.exitAll (kernel.table.groupMembers leader)
  | .waitpid pid => some { kernel with table := (kernel.table.waitpid pid).1 }
  | .reapZombie pid => some { kernel with table := kernel.table.reapZombie pid }
  | .reapOneZombie parent => some { kernel with table := (kernel.table.reapOneZombie parent).1 }
  | .reapZombieChildren parent =>
    some { kernel with table := kernel.table.reapZombieChildren parent }
  | .setState pid state =>
    if (kernel.table.slotOf pid).live ∧ (state = .running ∨ state = .blocked) then
      some { kernel with table := kernel.table.setState pid state }
    else none

def Takes (_ : FrameAllocator.Session) : FrameAllocator.Call → Prop
  | .freeFrame _ => False
  | _ => True

structure Boots (regions : List FrameAllocator.MemRegion) (kernel : Kernel) : Prop where
  table : kernel.table = Table.empty
  nextPid : kernel.nextPid = 1
  libs : kernel.libs = Dl.LibTable.new
  frames : (FrameAllocator.allocator regions).Reachable Takes kernel.memory.frames

def system (regions : List FrameAllocator.MemRegion) : Runs.Machine Kernel Call where
  start := Boots regions
  step := Kernel.step

end OsCortex.Lifecycle
