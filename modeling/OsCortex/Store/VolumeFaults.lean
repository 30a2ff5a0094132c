import OsCortex.Store.AppStoreChecks

/-!
The calls of the store on a device whose sector writes can fail and in a machine that can stop
between two of them.
-/

namespace OsCortex.AppStore

open Bytes AppRegistry

/-- After `done` sector writes of a call the next one fails, and leaves `left` at the front of its
sector; or the machine stops. -/
structure Fault where
  done : Nat
  failed : Option (List UInt8)

inductive Halt where
  | error (text : String)
  | stop

def tryWrite (disk : Disk) (sector count : Nat) (data : List UInt8) :
    Option Fault → Disk × Except Halt (Option Fault)
  | none => (writeSectors disk sector count data, .ok none)
  | some fault =>
    if count ≤ fault.done then
      (writeSectors disk sector count data, .ok (some { fault with done := fault.done - count }))
    else
      let partly := writeSectors disk sector fault.done data
      match fault.failed with
      | some left =>
        (writeSectors partly (sector + fault.done) 1 left,
          .error (.error "virtio-blk: I/O error"))
      | none => (partly, .error .stop)

def State.tryPersist (state : State) (appId : Nat) (bundle : Bundle) (after : Nat → Nat)
    (fault : Option Fault) : State × Except Halt Unit :=
  match parseHeader bundle with
  | none => (state, .error (.error "bad bundle"))
  | some hdr =>
    let sectors := sectorsForBytes bundle.length
    match tryWrite state.disk state.nextDataSector sectors (resize bundle (sectors * 512))
      fault with
    | (disk, .error halt) => ({ state with disk }, .error halt)
    | (disk, .ok fault) =>
      let entries := readCatalog disk
      if catalogEntries ≤ entries.length then
        ({ state with disk }, .error (.error "catalog full"))
      else
        let listed := entries ++ [entryOf state appId bundle hdr]
        match tryWrite disk catalogSector catalogSectors (encodeCatalog listed after) fault with
        | (disk, .error halt) => ({ state with disk }, .error halt)
        | (disk, .ok fault) =>
          let advanced := { state with
            nextDataSector := state.nextDataSector + sectors
            nextAppId := max (min (appId + 1) (2 ^ 32 - 1)) state.nextAppId }
          match tryWrite disk superSector 1
            (encodeSuperblock (advanced.superblock (entries.length + 1))) fault with
          | (disk, .error halt) => ({ advanced with disk }, .error halt)
          | (disk, .ok _) => ({ advanced with disk }, .ok ())

def State.tryRemove (state : State) (appId : Nat) (after : Nat → Nat) (fault : Option Fault) :
    State × Except Halt Unit :=
  let entries := readCatalog state.disk
  let kept := entries.filter fun entry => entry.id ≠ appId
  if kept.length = entries.length then (state, .error (.error "not found"))
  else
    match tryWrite state.disk catalogSector catalogSectors (encodeCatalog kept after) fault with
    | (disk, .error halt) => ({ state with disk }, .error halt)
    | (disk, .ok fault) =>
      match tryWrite disk superSector 1 (encodeSuperblock (state.superblock kept.length))
        fault with
      | (disk, .error halt) => ({ state with disk }, .error halt)
      | (disk, .ok _) => ({ state with disk }, .ok ())

deriving instance DecidableEq for CatalogEntry

structure Volume where
  store : State
  up : Bool
  created : List (CatalogEntry × Bundle)

inductive Call where
  | persistBundle (appId : Nat) (bundle : Bundle) (after : Nat → Nat) (fault : Option Fault)
  | removeBundle (appId : Nat) (after : Nat → Nat) (fault : Option Fault)
  | reboot

def running : Except Halt Unit → Bool
  | .error .stop => false
  | .error (.error _) | .ok () => true

def Volume.record (volume : Volume) (appId : Nat) (bundle : Bundle) (next : State) :
    List (CatalogEntry × Bundle) :=
  match parseHeader bundle with
  | none => volume.created
  | some hdr =>
    let entry := entryOf volume.store appId bundle hdr
    if entry ∈ readCatalog next.disk then (entry, bundle) :: volume.created else volume.created

def Volume.step (image : AppTable.Image) (volume : Volume) : Call → Option Volume
  | .persistBundle appId bundle after fault =>
    if volume.up then
      let (store, result) := volume.store.tryPersist (appId % 2 ^ 32) bundle after fault
      some
        { store
          up := running result
          created := volume.record (appId % 2 ^ 32) bundle store }
    else none
  | .removeBundle appId after fault =>
    if volume.up then
      let (store, result) := volume.store.tryRemove (appId % 2 ^ 32) after fault
      some { volume with store, up := running result }
    else none
  | .reboot =>
    some { volume with store := boot image volume.store.disk volume.store.owed, up := true }

def volumes (image : AppTable.Image) : Runs.Machine Volume Call where
  start volume := ∃ disk, readSuperblock disk = none ∧
    volume = { store := boot image disk [], up := true, created := [] }
  step := Volume.step image

end OsCortex.AppStore
