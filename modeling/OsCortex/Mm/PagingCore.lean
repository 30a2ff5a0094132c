import OsCortex.Lib.Outcome
import OsCortex.Lib.Radix
import OsCortex.Mm.FrameAllocatorCore

/-!
The x86_64 page tables of `mm/paging.rs`. Physical memory is seen as tables of entries. A result of
`none` is a kernel panic (`phys_to_virt` of an address no RAM can have).
-/

namespace OsCortex.Paging

open FrameAllocator (frameSize)

/-- `addr` is the entry under `PHYS_MASK`; the flags are those the code tests or sets. -/
structure Entry where
  addr : Nat := 0
  present : Bool := false
  writable : Bool := false
  user : Bool := false
  huge : Bool := false
  noExecute : Bool := false
  deriving DecidableEq

def Entry.next (entry : Entry) : Option Nat := if entry.present then some entry.addr else none

def physMask (phys : Nat) : Nat := phys % 2 ^ 52 / 4096 * 4096

structure Memory where
  tables : Radix.Store Entry
  frames : FrameAllocator.Session

def ramLimit : Nat := 0x400000000

def walkable (phys : Nat) : Bool := decide (phys ≠ 0 ∧ phys < ramLimit)

def indices (virt : Nat) : List Nat :=
  [virt / 2 ^ 39 % 512, virt / 2 ^ 30 % 512, virt / 2 ^ 21 % 512, virt / 2 ^ 12 % 512]

variable (memory : Memory)

def Memory.allocFrame : Memory × Option Nat :=
  let result := memory.frames.bitmap.alloc
  ({ memory with frames := memory.frames.handOut 1 result }, result.2)

def Memory.allocFrameOr {Error : Type} (memory : Memory) (oom : Error) : Outcome Memory Error Nat :=
  match memory.allocFrame with
  | (memory, some phys) => .ok memory phys
  | (memory, none) => .fail memory oom

def Memory.allocContiguousFrames (count : Nat) : Memory × Option Nat :=
  let result := memory.frames.bitmap.allocContiguous count
  ({ memory with frames := memory.frames.handOut count result }, result.2)

def Memory.freeFrame (phys : Nat) : Memory :=
  { memory with
    frames :=
      { bitmap := memory.frames.bitmap.free phys
        log := .freed (phys / frameSize) :: memory.frames.log } }

def Memory.freeAll (frames : List Nat) : Memory := frames.foldl Memory.freeFrame memory

def Memory.allocPageTable : Memory × Option Nat :=
  match memory.allocFrame with
  | (memory, some phys) => ({ memory with tables := memory.tables.fill phys fun _ => {} }, some phys)
  | (memory, none) => (memory, none)

def Memory.ensureNextTable (table index : Nat) : Memory × Option Nat :=
  let entry := memory.tables table index
  if entry.present then (memory, some entry.addr)
  else
    match memory.allocPageTable with
    | (memory, some phys) =>
      let entry : Entry := { addr := phys, present := true, writable := true, user := true }
      ({ memory with tables := memory.tables.write table index entry }, some phys)
    | (memory, none) => (memory, none)

def Memory.ensureTables (memory : Memory) : Nat → List (Nat × String) → Outcome Memory String Nat
  | table, [] => .ok memory table
  | table, (index, oom) :: rest =>
    match memory.ensureNextTable table index with
    | (memory, none) => .fail memory oom
    | (memory, some child) => if child < ramLimit then memory.ensureTables child rest else none

def leafEntry (phys : Nat) (writable exec : Bool) : Entry :=
  { addr := physMask phys, present := true, writable, user := true, noExecute := !exec }

def Memory.mapUserPageWithFlags (pml4Phys virt phys : Nat)
    (writable exec : Bool) : Outcome Memory String Unit :=
  if pml4Phys < ramLimit then
    (memory.ensureTables pml4Phys
      [(virt / 2 ^ 39 % 512, "OOM: PDPT"), (virt / 2 ^ 30 % 512, "OOM: PD"),
        (virt / 2 ^ 21 % 512, "OOM: PT")]).andThen fun memory pt =>
      let tables := memory.tables.write pt (virt / 2 ^ 12 % 512) (leafEntry phys writable exec)
      .ok { memory with tables } ()
  else none

def Memory.mapUserPage (pml4Phys virt phys : Nat) : Outcome Memory String Unit :=
  memory.mapUserPageWithFlags pml4Phys virt phys true false

/-- The present entry at the end of a read-only walk; `walk_table` stops at bad tables. -/
def walkEntry (tables : Radix.Store Entry) : Nat → List Nat → Option Entry
  | _, [] => none
  | table, index :: rest =>
    if walkable table ∧ (tables table index).present then
      match rest with
      | [] => some (tables table index)
      | _ :: _ => walkEntry tables (tables table index).addr rest
    else none

def Memory.translateUserPage (pml4Phys virt : Nat) : Option Nat :=
  (walkEntry memory.tables pml4Phys (indices virt)).map Entry.addr

def Memory.translateUserPageFlags (pml4Phys virt : Nat) : Option (Nat × Bool × Bool) :=
  (walkEntry memory.tables pml4Phys (indices virt)).map fun entry =>
    (entry.addr, entry.writable, !entry.noExecute)

/-- The walk of the functions that write through `phys_to_virt`: the table holding the last
entry if every entry on the way is present. -/
def locate (tables : Radix.Store Entry) : Nat → List Nat → Option (Option (Nat × Nat))
  | _, [] => some none
  | table, index :: rest =>
    if table < ramLimit then
      if (tables table index).present then
        match rest with
        | [] => some (some (table, index))
        | _ :: _ => locate tables (tables table index).addr rest
      else some none
    else none

def Memory.updateUserPage (pml4Phys virt : Nat) (writable exec : Bool) :
    Outcome Memory String Unit :=
  match locate memory.tables pml4Phys (indices virt) with
  | some (some (table, index)) =>
    let addr := (memory.tables table index).addr
    let entry : Entry := { addr, present := true, writable, user := true, noExecute := !exec }
    .ok { memory with tables := memory.tables.write table index entry } ()
  | some none => .fail memory "not present"
  | none => none

def Memory.unmapUserPage (pml4Phys virt : Nat) : Outcome Memory String Nat :=
  if walkable pml4Phys then
    match locate memory.tables pml4Phys (indices virt) with
    | some (some (table, index)) =>
      .ok { memory with tables := memory.tables.write table index {} }
        (memory.tables table index).addr
    | some none => .fail memory "not present"
    | none => none
  else .fail memory "dead/null pml4"

def Memory.unmapPages (memory : Memory) (pml4Phys : Nat) : List Nat → Option Memory
  | [] => some memory
  | virt :: rest =>
    match memory.unmapUserPage pml4Phys virt with
    | some (memory, .ok phys) => (memory.freeFrame phys).unmapPages pml4Phys rest
    | some (memory, .error _) => memory.unmapPages pml4Phys rest
    | none => none

def pageRange (va size : Nat) : List Nat :=
  let start := va / 4096 * 4096
  let stop := (va + size + 4095) % 2 ^ 64 / 4096 * 4096
  (List.range ((stop - start) / 4096)).map fun page => start + page * 4096

def Memory.unmapUserRange (pml4Phys startVa size : Nat) : Option Memory :=
  if walkable pml4Phys ∧ size ≠ 0 then memory.unmapPages pml4Phys (pageRange startVa size)
  else some memory

/-! The frames `free_user_pml4` gives back, in its order: what an entry of each level leads
to. Only the two middle levels know huge pages. -/

def pteFrames (entry : Entry) : List Nat := if entry.present then [entry.addr] else []

variable (tables : Radix.Store Entry)

def tableFrames (below : Entry → List Nat) (entry : Entry) : List Nat :=
  if entry.present ∧ walkable entry.addr then
    (List.range 512).flatMap (fun index => below (tables entry.addr index)) ++ [entry.addr]
  else []

def hugeOr (frames : Entry → List Nat) (entry : Entry) : List Nat :=
  if entry.present ∧ entry.huge then [entry.addr] else frames entry

def pdeFrames : Entry → List Nat := hugeOr (tableFrames tables pteFrames)

def pdpteFrames : Entry → List Nat := hugeOr (tableFrames tables (pdeFrames tables))

def pml4eFrames : Entry → List Nat := tableFrames tables (pdpteFrames tables)

def userFrames (pml4Phys : Nat) : List Nat :=
  (List.range 256).flatMap (fun index => pml4eFrames tables (tables pml4Phys index)) ++ [pml4Phys]

def Memory.freeUserPml4 (pml4Phys : Nat) : Memory :=
  if walkable pml4Phys then memory.freeAll (userFrames memory.tables pml4Phys) else memory

def Memory.allocUserPml4 (cr3 : Nat) : Memory × Option Nat :=
  match memory.allocPageTable with
  | (memory, some phys) =>
    let entries := fun index =>
      if 256 ≤ index ∧ index < 512 then memory.tables cr3 index else memory.tables phys index
    ({ memory with tables := memory.tables.fill phys entries }, some phys)
  | (memory, none) => (memory, none)

def Memory.demandAnon (cr3 pageVa : Nat) : Option (Memory × Bool) :=
  if pageVa ≥ 0x300000000 ∧ pageVa < 0x10000000000 then
    match memory.allocFrame with
    | (memory, some phys) =>
      match memory.mapUserPageWithFlags cr3 pageVa phys true true with
      | some (memory, .ok ()) => some (memory, true)
      | some (memory, .error _) => some (memory.freeFrame phys, false)
      | none => none
    | (memory, none) => some (memory, false)
  else some (memory, false)

/-- `demand_page` for the fault address `cr2`; `isPresent` is bit 0 of the error code. -/
def Memory.demandPage (cr3 cr2 : Nat) (isPresent : Bool) : Option (Memory × Bool) :=
  let pageVa := cr2 / 4096 * 4096
  if isPresent then some (memory, false)
  else if (memory.translateUserPage cr3 pageVa).isSome then some (memory, true)
  else if pageVa ≥ 0x100000000 ∧ pageVa < 0x300000000 then
    match memory.translateUserPageFlags cr3 (pageVa - 0x100000000) with
    | some (phys, writable, exec) =>
      match memory.mapUserPageWithFlags cr3 pageVa phys writable exec with
      | some (memory, .ok ()) => some (memory, true)
      | some (memory, .error _) => some (memory, false)
      | none => none
    | none => memory.demandAnon cr3 pageVa
  else memory.demandAnon cr3 pageVa

end OsCortex.Paging
