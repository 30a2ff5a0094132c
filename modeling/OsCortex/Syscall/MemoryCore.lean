import OsCortex.Process.LifecycleCore

/-!
The system calls on user memory in `syscall/handlers/engine.rs` and the page faults between them. An
error is the errno returned; a result of `none` is a kernel panic.
-/

namespace OsCortex.UserMemory

open Lifecycle (Kernel)
open Paging (Memory pageRange)

variable (kernel : Kernel)

def sysMmap (pid : Nat) (hintVa size : UInt64) : Outcome Kernel Int Nat :=
  if size ≥ 0x80000000 then .ok kernel 0x80000000
  else if size = 0 ∨ size > 0x10000000 then .fail kernel (-22)
  else if pid = 0 then .fail kernel (-1)
  else
    match kernel.table.getUserContext pid with
    | none => .fail kernel (-9)
    | some pml4Phys =>
      let mapped := fun va => (kernel.memory.translateUserPage pml4Phys va).isSome
      let pages := (size.toNat + 4095) / 4096
      match kernel.libs.mmapAnon mapped pml4Phys hintVa.toNat pages with
      | (libs, some va) => .ok { kernel with libs } va
      | (libs, none) => .fail { kernel with libs } (-12)

def sysMunmap (pid : Nat) (va size : UInt64) : Outcome Kernel Int Unit :=
  if size = 0 then .ok kernel ()
  else if pid = 0 then .fail kernel (-1)
  else
    match kernel.table.getUserContext pid with
    | none => .fail kernel (-9)
    | some pml4Phys =>
      match kernel.memory.unmapUserRange pml4Phys va.toNat size.toNat with
      | some memory =>
        let libs := kernel.libs.recycleAnonVa pml4Phys va.toNat size.toNat
        .ok { kernel with memory, libs } ()
      | none => none

/-- Low memory is mirrored at 4 GiB and at 8 GiB. -/
def isMirrored (va : Nat) : Bool := va < 0x300000000 && va % 0x100000000 ≥ 0x100000

variable (pml4Phys : Nat)

def protectOrMap (writable exec : Bool) (phys : Nat) (memory : Memory)
    (virt : Nat) : Outcome Memory Int Unit :=
  (memory.updateUserPage pml4Phys virt writable exec).orElse fun memory =>
    (memory.mapUserPageWithFlags pml4Phys virt phys writable exec).orElse fun memory =>
      .fail memory (-12)

def protectAlias (writable exec : Bool) (memory : Memory) (virt : Nat) : Outcome Memory Int Unit :=
  if (memory.translateUserPage pml4Phys virt).isSome then
    (memory.updateUserPage pml4Phys virt writable exec).discard
  else .ok memory ()

def mirroredFrame (pml4Phys base : Nat) (memory : Memory) : Outcome Memory Int Nat :=
  match (memory.translateUserPage pml4Phys base).or
      ((memory.translateUserPage pml4Phys (base + 0x100000000)).or
        (memory.translateUserPage pml4Phys (base + 0x200000000))) with
  | some phys => .ok memory phys
  | none => memory.allocFrameOr (-12)

def protectMirrored (writable exec : Bool) (memory : Memory) (va : Nat) : Outcome Memory Int Unit :=
  let base := va % 0x100000000
  (mirroredFrame pml4Phys base memory).andThen fun memory phys =>
    (protectOrMap pml4Phys writable exec phys memory va).andThen fun memory _ =>
      (protectOrMap pml4Phys writable exec phys memory base).andThen fun memory _ =>
        (protectAlias pml4Phys writable exec memory (base + 0x100000000)).andThen fun memory _ =>
          protectAlias pml4Phys writable exec memory (base + 0x200000000)

def protectPage (writable exec : Bool) (memory : Memory) (va : Nat) (_ : Unit) :
    Outcome Memory Int Unit :=
  if isMirrored va then protectMirrored pml4Phys writable exec memory va
  else (memory.updateUserPage pml4Phys va writable exec).discard

def sysMprotect (pid : Nat) (va size prot : UInt64) : Outcome Kernel Int Unit :=
  if size = 0 then .ok kernel ()
  else if pid = 0 then .fail kernel (-1)
  else
    match kernel.table.getUserContext pid with
    | none => .fail kernel (-9)
    | some pml4Phys =>
      let writable := prot.toNat.testBit 1
      let exec := prot.toNat.testBit 2
      (Outcome.forEach (protectPage pml4Phys writable exec) (pageRange va.toNat size.toNat)
        kernel.memory ()).focus fun memory => { kernel with memory }

structure Framebuffer where
  phys : Nat
  height : Nat
  pitch : Nat

def fbUserBase : Nat := 0x40000000

def Framebuffer.pageCount (framebuffer : Framebuffer) : Nat :=
  (framebuffer.height * framebuffer.pitch + 0xFFF) / 0x1000

def mapFramebufferPage (pml4Phys fbPhys : Nat) (memory : Memory) (i : Nat) (_ : Unit) :
    Outcome Memory Int Unit :=
  (memory.mapUserPage pml4Phys (fbUserBase + i * 0x1000) (fbPhys + i * 0x1000)).orElse
    fun memory => .fail memory (-12)

def sysFbMap (fbInfo : Option Framebuffer) (pid : Nat) : Outcome Kernel Int Unit :=
  match fbInfo with
  | none => .fail kernel (-6)
  | some framebuffer =>
    match kernel.table.getUserContext pid with
    | none => .fail kernel (-9)
    | some pml4Phys =>
      (Outcome.forEach (mapFramebufferPage pml4Phys framebuffer.phys)
        (List.range framebuffer.pageCount) kernel.memory ()).focus
          fun memory => { kernel with memory }

def fault (pid : Nat) (cr2 : UInt64) (isPresent : Bool) : Option Kernel :=
  if (kernel.table.slotOf pid).live then
    (kernel.memory.demandPage (kernel.table.slotOf pid).pml4Phys cr2.toNat isPresent).map
      fun (memory, _) => { kernel with memory }
  else none

inductive Call where
  | process (call : Lifecycle.Call)
  | mmap (pid : Nat) (hintVa size : UInt64)
  | munmap (pid : Nat) (va size : UInt64)
  | mprotect (pid : Nat) (va size prot : UInt64)
  | fbMap (pid : Nat)
  | fault (pid : Nat) (cr2 : UInt64) (isPresent : Bool)

def step (fbInfo : Option Framebuffer) (kernel : Kernel) : Call → Option Kernel
  | .process call => kernel.step call
  | .mmap pid hintVa size => (sysMmap kernel pid hintVa size).map Prod.fst
  | .munmap pid va size => (sysMunmap kernel pid va size).map Prod.fst
  | .mprotect pid va size prot => (sysMprotect kernel pid va size prot).map Prod.fst
  | .fbMap pid => (sysFbMap kernel fbInfo pid).map Prod.fst
  | .fault pid cr2 isPresent => fault kernel pid cr2 isPresent

def system (regions : List FrameAllocator.MemRegion) (fbInfo : Option Framebuffer) :
    Runs.Machine Kernel Call where
  start := Lifecycle.Boots regions
  step := step fbInfo

end OsCortex.UserMemory
