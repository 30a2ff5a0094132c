import OsCortex.Mm.PagingCore

/-! The aarch64 page tables of `mm/paging.rs` (`aarch64_impl`) over the kernel's identity map. -/

namespace OsCortex.Aarch64

open FrameAllocator (FrameBitmap frameSize)
open Paging (walkable pageRange)

/-- `addr` is the descriptor under `ADDR_MASK`. `table` is bit 1: a table at L1 and L2, a page at
L3. `el0` and `readOnly` are the two bits of `AP`. -/
structure Descriptor where
  addr : Nat := 0
  valid : Bool := false
  table : Bool := false
  device : Bool := false
  el0 : Bool := false
  readOnly : Bool := false
  innerShareable : Bool := false
  accessed : Bool := false
  pxn : Bool := false
  uxn : Bool := false
  deriving DecidableEq

variable (desc : Descriptor)

def Descriptor.next : Option Nat :=
  if desc.valid && desc.table then some desc.addr else none

def Descriptor.isBlock : Bool := desc.valid && !desc.table

def addrMask (phys : Nat) : Nat := phys % 2 ^ 48 / 4096 * 4096

def idxL1 (virt : Nat) : Nat := virt / 2 ^ 30 % 512
def idxL2 (virt : Nat) : Nat := virt / 2 ^ 21 % 512
def idxL3 (virt : Nat) : Nat := virt / 2 ^ 12 % 512

/-! The kernel's L1 table: 1 GiB blocks only. -/

def blockDesc (phys : Nat) (device : Bool) : Descriptor :=
  { addr := phys % 2 ^ 48 / 2 ^ 30 * 2 ^ 30, valid := true, device, innerShareable := true
    accessed := true }

def fillIdentity (ramGibs : Nat) : Nat → Descriptor := fun g =>
  if g = 0 then blockDesc 0 true
  else if g ≤ ramGibs ∧ g < 512 then blockDesc (g * 2 ^ 30) false
  else {}

def mapDevice1gib (l1 : Nat → Descriptor) (phys : Nat) : Nat → Descriptor :=
  let idx := phys / 2 ^ 30
  if idx ≥ 512 then l1
  else fun g => if g = idx then blockDesc (idx * 2 ^ 30) true else l1 g

def kernelTtbr0 (ramGibs : Nat) (devices : List Nat) : Nat → Descriptor :=
  devices.foldl mapDevice1gib (fillIdentity ramGibs)

/-- `held` lists the frames allocated for the address space and not given back since, `loose` the
frames that callers of the allocator hold otherwise. -/
structure Memory where
  tables : Radix.Store Descriptor
  bitmap : FrameBitmap
  held : List Nat
  loose : List Nat

variable (memory : Memory)

def Memory.allocTable : Memory × Option Nat :=
  match memory.bitmap.alloc with
  | (bitmap, some phys) =>
    ({ memory with
        bitmap
        tables := memory.tables.fill phys fun _ => {}
        held := phys :: memory.held }, some phys)
  | (bitmap, none) => ({ memory with bitmap }, none)

def Memory.allocUserPml4 (kernelL1 : Nat → Descriptor) : Memory × Option Nat :=
  match memory.allocTable with
  | (memory, some root) => ({ memory with tables := memory.tables.fill root kernelL1 }, some root)
  | (memory, none) => (memory, none)

def splitBlock (levelShift : Nat) : Nat → Descriptor := fun i =>
  { desc with
    addr := addrMask (desc.addr + i * 2 ^ levelShift)
    valid := true
    table := decide (levelShift = 12) }

def tableDesc (child : Nat) : Descriptor := { addr := addrMask child, valid := true, table := true }

def Memory.ensureTable (table index levelShift : Nat) : Memory × Option Nat :=
  let desc := memory.tables table index
  if desc.valid then
    if desc.table then (memory, some desc.addr)
    else
      match memory.allocTable with
      | (memory, some child) =>
        let filled := memory.tables.fill child (splitBlock desc levelShift)
        ({ memory with tables := filled.write table index (tableDesc child) }, some child)
      | (memory, none) => (memory, none)
  else
    match memory.allocTable with
    | (memory, some child) =>
      ({ memory with tables := memory.tables.write table index (tableDesc child) }, some child)
    | (memory, none) => (memory, none)

def pageDesc (phys : Nat) (writable exec : Bool) : Descriptor :=
  { addr := addrMask phys, valid := true, table := true, el0 := true, readOnly := !writable
    innerShareable := true, accessed := true, pxn := true, uxn := !exec }

def Memory.mapPageIn (root virt phys : Nat) (writable exec : Bool) : Memory × Except String Unit :=
  match memory.ensureTable root (idxL1 virt) 21 with
  | (memory, none) => (memory, .error "OOM: l2 table")
  | (memory, some l2) =>
    match memory.ensureTable l2 (idxL2 virt) 12 with
    | (memory, none) => (memory, .error "OOM: l3 table")
    | (memory, some l3) =>
      let tables := memory.tables.write l3 (idxL3 virt) (pageDesc phys writable exec)
      ({ memory with tables }, .ok ())

variable (tables : Radix.Store Descriptor)

def walk (root virt : Nat) : Option (Nat × Nat) :=
  match (tables root (idxL1 virt)).next with
  | none => none
  | some l2 =>
    match (tables l2 (idxL2 virt)).next with
    | none => none
    | some l3 => if (tables l3 (idxL3 virt)).valid then some (l3, idxL3 virt) else none

def Memory.translateUserPage (root virt : Nat) : Option Nat :=
  (walk memory.tables root (virt / 4096 * 4096)).map fun (l3, index) =>
    (memory.tables l3 index).addr + virt % 4096

def Memory.updateUserPageFlags (root virt : Nat) (writable exec : Bool) :
    Memory × Except String Unit :=
  match walk memory.tables root (virt / 4096 * 4096) with
  | none => (memory, .error "page not mapped")
  | some (l3, index) =>
    let desc := memory.tables l3 index
    let updated := { desc with el0 := true, readOnly := !writable, uxn := !exec }
    ({ memory with tables := memory.tables.write l3 index updated }, .ok ())

def Memory.unmapUserPage (root virt : Nat) : Memory × Except String Nat :=
  if walkable root then
    match walk memory.tables root (virt / 4096 * 4096) with
    | none => (memory, .error "not present")
    | some (l3, index) =>
      ({ memory with tables := memory.tables.write l3 index {} },
        .ok (memory.tables l3 index).addr)
  else (memory, .error "dead/null pml4")

def Memory.giveBack (phys : Nat) : Memory :=
  { memory with bitmap := memory.bitmap.free phys, held := memory.held.erase phys }

def Memory.unmapPages (memory : Memory) (root : Nat) : List Nat → Memory
  | [] => memory
  | virt :: rest =>
    match memory.unmapUserPage root virt with
    | (memory, .ok phys) => (memory.giveBack phys).unmapPages root rest
    | (memory, .error _) => memory.unmapPages root rest

def Memory.unmapUserRange (root startVa size : Nat) : Memory :=
  if walkable root ∧ size ≠ 0 then memory.unmapPages root (pageRange startVa size) else memory

/-! The frames `free_user_pml4` gives back, in its order. At L3 only the valid bit is looked at. -/

def pageFrames : List Nat := if desc.valid then [desc.addr] else []

def tableFrames (below : Descriptor → List Nat) (desc : Descriptor) : List Nat :=
  if desc.valid && desc.table then
    (List.range 512).flatMap (fun index => below (tables desc.addr index)) ++ [desc.addr]
  else []

def userFrames (root : Nat) : List Nat :=
  (List.range 512).flatMap (fun index =>
    tableFrames tables (tableFrames tables pageFrames) (tables root index)) ++ [root]

def Memory.returned (root : Nat) : List Nat :=
  if walkable root then userFrames memory.tables root else []

def Memory.freeUserPml4 (root : Nat) : Memory := (memory.returned root).foldl Memory.giveBack memory

/-! An address space in use. The rest of the kernel allocates and frees frames and writes to
memory, but not to frames of this address space. -/

inductive Label where
  | allocFrame
  | allocContiguousFrames (count : Nat)
  | freeFrame (phys : Nat)
  | write (frame index : Nat) (desc : Descriptor)
  /-- `owned`: the caller hands the frame over to the address space. -/
  | map (virt phys : Nat) (writable exec owned : Bool)
  | update (virt : Nat) (writable exec : Bool)
  | unmapRange (startVa size : Nat)

def Memory.allocFrames (count : Nat) : FrameBitmap × Option Nat → Memory
  | (bitmap, none) => { memory with bitmap }
  | (bitmap, some phys) =>
    let frames := (List.range' (phys / frameSize) count).map (· * frameSize)
    { memory with bitmap, loose := frames ++ memory.loose }

def Memory.handOver (phys : Nat) : Memory :=
  { memory with held := phys :: memory.held, loose := memory.loose.erase phys }

def step (root : Nat) (memory : Memory) : Label → Option Memory
  | .allocFrame => some (memory.allocFrames 1 memory.bitmap.alloc)
  | .allocContiguousFrames count =>
    some (memory.allocFrames count (memory.bitmap.allocContiguous count))
  | .freeFrame phys =>
    if phys ∈ memory.loose then
      some { memory with bitmap := memory.bitmap.free phys, loose := memory.loose.erase phys }
    else none
  | .write frame index desc =>
    if frame ∈ memory.held then none
    else some { memory with tables := memory.tables.write frame index desc }
  | .map virt phys writable exec false => some (memory.mapPageIn root virt phys writable exec).1
  | .map virt phys writable exec true =>
    if phys ∈ memory.loose then
      match memory.mapPageIn root virt phys writable exec with
      | (memory, .ok ()) => some (memory.handOver phys)
      | (memory, .error _) => some memory
    else none
  | .update virt writable exec => some (memory.updateUserPageFlags root virt writable exec).1
  | .unmapRange startVa size => some (memory.unmapUserRange root startVa size)

structure Taken (bitmap : FrameBitmap) (phys : Nat) : Prop where
  aligned : phys % frameSize = 0
  lower : FrameAllocator.minAllocPhys ≤ phys
  upper : phys < FrameAllocator.maxFrames * frameSize
  marked : Bitmap.test bitmap.bits (phys / frameSize) = false

structure Before (memory : Memory) : Prop where
  empty : memory.held = []
  taken : ∀ phys ∈ memory.loose, Taken memory.bitmap phys
  once : memory.loose.Nodup

def addressSpace (kernelL1 : Nat → Descriptor) (root : Nat) : Runs.Machine Memory Label where
  start memory := ∃ before, Before before ∧ before.allocUserPml4 kernelL1 = (memory, some root)
  step := step root

end OsCortex.Aarch64
