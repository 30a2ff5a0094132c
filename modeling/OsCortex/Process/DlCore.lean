import OsCortex.Lib.Runs
import OsCortex.Lib.Scan

/-!
Address-space bookkeeping of `process/dl.rs`: the bump cursors, the recycled ranges, `mmap_anon`,
and the calls that go through them. Sums of `u64` values wrap, as in the release build.
-/

namespace OsCortex.Dl

def libVaBase : Nat := 0x140000000
def anonVaBase : Nat := 0x310000000
def libVaStride : Nat := 0x1000000
def maxLibs : Nat := 16
def maxRecycled : Nat := 256
def maxAsSlots : Nat := 64
def pageSize : Nat := 4096

def u64 (value : Nat) : Nat := value % 2 ^ 64

def alignDown (align value : Nat) : Nat := value / align * align

def alignUp (align value : Nat) : Nat := alignDown align (u64 (value + (align - 1)))

structure AsSlot where
  pml4Phys : Nat
  nextLibVa : Nat
  nextAnonVa : Nat
  deriving DecidableEq

structure RecycledRange where
  pml4Phys : Nat
  va : Nat
  size : Nat
  deriving DecidableEq

structure LoadedLib where
  pid : Nat
  handle : Nat
  loadBase : Nat
  size : Nat
  deriving DecidableEq

structure LibTable where
  entries : List LoadedLib
  nextHandle : Nat
  asSlots : List AsSlot
  recycled : List (Option RecycledRange)

def LibTable.new : LibTable :=
  { entries := []
    nextHandle := 1
    asSlots := List.replicate maxAsSlots ⟨0, 0, 0⟩
    recycled := List.replicate maxRecycled none }

variable (libs : LibTable)

def LibTable.slotFor (pml4Phys : Nat) : Option AsSlot :=
  libs.asSlots.find? fun slot => slot.pml4Phys == pml4Phys

/-- The loops every cursor function starts with: change the slot of the address space, or else take
a free one. Also returns the slot as it was. -/
def LibTable.upsertSlot (pml4Phys : Nat) (change : AsSlot → AsSlot)
    (fresh : AsSlot) : Option (Option AsSlot × LibTable) :=
  match Scan.updateFirst (fun slot => slot.pml4Phys == pml4Phys) change libs.asSlots with
  | some (slot, asSlots) => some (some slot, { libs with asSlots })
  | none =>
    match Scan.updateFirst (fun slot => slot.pml4Phys == 0) (fun _ => fresh) libs.asSlots with
    | some (_, asSlots) => some (none, { libs with asSlots })
    | none => none

def LibTable.fallback (read : AsSlot → Nat) (change : AsSlot → AsSlot) : LibTable × Nat :=
  match libs.asSlots with
  | [] => (libs, 0)
  | slot :: rest => ({ libs with asSlots := change slot :: rest }, read slot)

def LibTable.bumpLibVa (pml4Phys size : Nat) : LibTable × Nat :=
  let aligned := u64 (size + libVaStride - 1) / libVaStride * libVaStride
  let advance := fun slot : AsSlot => { slot with nextLibVa := u64 (slot.nextLibVa + aligned) }
  match libs.upsertSlot pml4Phys advance
      ⟨pml4Phys, u64 (libVaBase + aligned), anonVaBase⟩ with
  | some (some slot, libs) => (libs, slot.nextLibVa)
  | some (none, libs) => (libs, libVaBase)
  | none => libs.fallback AsSlot.nextLibVa advance

def anonAlign (size : Nat) : Nat := if size > pageSize then 0x200000 else 0x1000

def RecycledRange.fits (align aligned pml4Phys : Nat) : Option RecycledRange → Bool
  | some range =>
    range.pml4Phys == pml4Phys &&
      decide (u64 (alignUp align range.va + aligned) ≤ u64 (range.va + range.size))
  | none => false

def RecycledRange.remainder (align aligned : Nat) : Option RecycledRange → Option RecycledRange
  | some range =>
    let endVa := u64 (alignUp align range.va + aligned)
    let remainingEnd := u64 (range.va + range.size)
    if endVa < remainingEnd then some { range with va := endVa, size := remainingEnd - endVa }
    else none
  | none => none

def LibTable.bumpAnonVa (pml4Phys size : Nat) : LibTable × Nat :=
  let aligned := u64 (size + 4095) / 4096 * 4096
  let align := anonAlign size
  let advance := fun slot : AsSlot =>
    { slot with nextAnonVa := u64 (alignUp align slot.nextAnonVa + aligned) }
  match Scan.updateFirst (RecycledRange.fits align aligned pml4Phys)
      (RecycledRange.remainder align aligned) libs.recycled with
  | some (some range, recycled) => ({ libs with recycled }, alignUp align range.va)
  | _ =>
    let base := alignUp align anonVaBase
    match libs.upsertSlot pml4Phys advance ⟨pml4Phys, libVaBase, u64 (base + aligned)⟩ with
    | some (some slot, libs) => (libs, alignUp align slot.nextAnonVa)
    | some (none, libs) => (libs, base)
    | none => libs.fallback (fun slot => alignUp align slot.nextAnonVa) advance

def LibTable.setAnonCursor (pml4Phys va : Nat) : LibTable :=
  match libs.upsertSlot pml4Phys
      (fun slot => if va > slot.nextAnonVa then { slot with nextAnonVa := va } else slot)
      ⟨pml4Phys, libVaBase, va⟩ with
  | some (_, libs) => libs
  | none => libs

/-- The `'retry` loop; `fuel` is the number of conflicts left before the source gives up and keeps
the candidate it has. -/
def resolve (mapped : Nat → Bool) (align pages : Nat) : Nat → Nat → Nat
  | 0, candidate => candidate
  | fuel + 1, candidate =>
    match (List.range pages).find? fun page => mapped (u64 (candidate + page * 4096)) with
    | some page =>
      resolve mapped align pages fuel (alignUp align (candidate + page * 4096 + 4096))
    | none => candidate

def maxConflicts : Nat := 131073

/-- `mapped` answers `translate_user_page(pml4_phys, va).is_some()`. -/
def LibTable.mmapAnon (mapped : Nat → Bool) (pml4Phys hintVa pages : Nat) : LibTable × Option Nat :=
  if pages = 0 ∨ pages > 65536 then (libs, none)
  else if hintVa ≠ 0 then
    let aligned := alignDown 4096 hintVa
    if (List.range pages).any fun page => mapped (u64 (aligned + page * 4096)) then
      let (libs, base) := libs.bumpAnonVa pml4Phys (pages * 4096)
      (libs, some base)
    else (libs, some aligned)
  else
    let sizeBytes := pages * 4096
    let (libs, base) := libs.bumpAnonVa pml4Phys sizeBytes
    let candidate := resolve mapped (anonAlign sizeBytes) pages maxConflicts base
    (libs.setAnonCursor pml4Phys (u64 (candidate + sizeBytes)), some candidate)

def RecycledRange.touches (pml4Phys va size : Nat) : Option RecycledRange → Bool
  | some range =>
    range.pml4Phys == pml4Phys &&
      (u64 (range.va + range.size) == va || u64 (va + size) == range.va)
  | none => false

def RecycledRange.merge (va size : Nat) : Option RecycledRange → Option RecycledRange
  | some range =>
    if u64 (range.va + range.size) = va then some { range with size := u64 (range.size + size) }
    else some { range with va, size := u64 (range.size + size) }
  | none => none

def LibTable.recycleAnonVa (pml4Phys va size : Nat) : LibTable :=
  if pml4Phys = 0 ∨ va = 0 ∨ size = 0 then libs
  else
    match Scan.updateFirst (RecycledRange.touches pml4Phys va size) (RecycledRange.merge va size)
        libs.recycled with
    | some (_, recycled) => { libs with recycled }
    | none =>
      match Scan.updateFirst Option.isNone (fun _ => some ⟨pml4Phys, va, size⟩)
          libs.recycled with
      | some (_, recycled) => { libs with recycled }
      | none => libs

def LibTable.cloneAsSlot (parent child : Nat) : LibTable :=
  if parent = 0 ∨ child = 0 then libs
  else
    let cursors := (libs.slotFor parent).getD ⟨parent, libVaBase, anonVaBase⟩
    let copied : AsSlot := { cursors with pml4Phys := child }
    match libs.upsertSlot child (fun _ => copied) copied with
    | some (_, libs) => libs
    | none => libs

def LibTable.sysMmap (mapped : Nat → Bool) (pml4Phys hintVa size : Nat) :
    LibTable × Except Int Nat :=
  if size ≥ 0x80000000 then (libs, .ok 0x80000000)
  else if size = 0 ∨ size > 0x10000000 then (libs, .error (-22))
  else
    match libs.mmapAnon mapped pml4Phys hintVa ((size + 4095) / 4096) with
    | (libs, some va) => (libs, .ok va)
    | (libs, none) => (libs, .error (-12))

def LibTable.register (pid loadBase size : Nat) : LibTable × Bool :=
  if libs.entries.length ≥ maxLibs then (libs, false)
  else
    ({ libs with
        entries := libs.entries ++ [⟨pid, libs.nextHandle, loadBase, size⟩]
        nextHandle := max ((libs.nextHandle + 1) % 2 ^ 32) 1 }, true)

/-! Runs. `live` has one entry for each page of each range `mmap` returned and nobody has
unmapped since; `loaded` the spans of the libraries of each address space. -/

structure Library where
  pml4Phys : Nat
  base : Nat
  span : Nat
  deriving DecidableEq

structure AddressSpaces where
  libs : LibTable
  live : List (Nat × Nat)
  loaded : List Library

inductive Call where
  | mmap (pml4Phys hintVa size : Nat) (mapped : Nat → Bool)
  | kernelMmap (pml4Phys pages : Nat) (mapped : Nat → Bool)
  | munmap (pml4Phys va size : Nat)
  | threadExit (pml4Phys stackBase stackSize fsBase : Nat) (running : Bool)
  | dlopen (pml4Phys pid span : Nat) (mappedSegments : Bool)
  | processExit (pml4Phys : Nat)
  | fork (parent child : Nat)

def Call.root : Call → Nat
  | .mmap pml4Phys _ _ _ | .kernelMmap pml4Phys _ _ | .munmap pml4Phys _ _
  | .threadExit pml4Phys _ _ _ _ | .dlopen pml4Phys _ _ _ | .processExit pml4Phys => pml4Phys
  | .fork _ child => child

def pagesOf (pml4Phys va pages : Nat) : List (Nat × Nat) :=
  (List.range pages).map fun page => (pml4Phys, u64 (va + page * 4096))

def isAnon (va : Nat) : Bool := va ≥ 0x300000000 && va < 0x10000000000

variable (spaces : AddressSpaces)

def AddressSpaces.returned (libs : LibTable) (pml4Phys pages : Nat) : Option Nat → AddressSpaces
  | some va => { spaces with libs, live := pagesOf pml4Phys va pages ++ spaces.live }
  | none => { spaces with libs }

def unmaps (va size page : Nat) : Bool :=
  decide (size ≠ 0 ∧ alignDown 4096 va ≤ page ∧ page < alignDown 4096 (u64 (va + size + 4095)))

def AddressSpaces.reclaim (pml4Phys va size : Nat) (running : Bool) : AddressSpaces :=
  { spaces with
    live := spaces.live.filter fun entry => !(entry.1 == pml4Phys && unmaps va size entry.2)
    libs := if running then spaces.libs.recycleAnonVa pml4Phys va size else spaces.libs }

def AddressSpaces.step : Call → AddressSpaces
  | .mmap pml4Phys hintVa size mapped =>
    let (libs, result) := spaces.libs.sysMmap mapped pml4Phys hintVa size
    spaces.returned libs pml4Phys ((size + 4095) / 4096) result.toOption
  | .kernelMmap pml4Phys pages mapped =>
    let (libs, result) := spaces.libs.mmapAnon mapped pml4Phys 0 pages
    spaces.returned libs pml4Phys pages result
  | .munmap pml4Phys va size =>
    if size = 0 then spaces else spaces.reclaim pml4Phys va size true
  | .threadExit pml4Phys stackBase stackSize fsBase running =>
    let spaces :=
      if stackBase ≠ 0 ∧ stackSize ≠ 0 ∧ isAnon stackBase then
        spaces.reclaim pml4Phys stackBase stackSize running
      else spaces
    if fsBase ≠ 0 ∧ isAnon fsBase then spaces.reclaim pml4Phys fsBase 4096 running else spaces
  | .dlopen pml4Phys pid span mappedSegments =>
    let (libs, base) := spaces.libs.bumpLibVa pml4Phys span
    let (libs, registered) := if mappedSegments then libs.register pid base span else (libs, false)
    { spaces with
      libs
      loaded := if registered then ⟨pml4Phys, base, span⟩ :: spaces.loaded else spaces.loaded }
  | .processExit pml4Phys =>
    { spaces with
      live := spaces.live.filter fun entry => entry.1 != pml4Phys
      loaded := spaces.loaded.filter fun lib => lib.pml4Phys != pml4Phys }
  | .fork parent child =>
    { libs := spaces.libs.cloneAsSlot parent child
      live := ((spaces.live.filter fun entry => entry.1 == parent).map fun entry =>
        (child, entry.2)) ++ spaces.live
      loaded := ((spaces.loaded.filter fun lib => lib.pml4Phys == parent).map fun lib =>
        { lib with pml4Phys := child }) ++ spaces.loaded }

/-- Page-table roots are frames of the allocator, so never `0`. -/
def system : Runs.Machine AddressSpaces Call where
  start spaces := spaces = { libs := LibTable.new, live := [], loaded := [] }
  step spaces call := if call.root = 0 then none else some (spaces.step call)

end OsCortex.Dl
