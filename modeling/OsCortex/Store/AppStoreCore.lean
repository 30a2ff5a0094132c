import OsCortex.Lib.Runs
import OsCortex.Store.RegistryCore

/-!
The block store of `app_store/mod.rs` behind the registry, with the part of the boot that touches
its volume. No block operation fails; bytes are addressed flat.
-/

namespace OsCortex.AppStore

open Bytes AppRegistry

abbrev Disk := Store

def sectorSize : Nat := 512

variable (disk : Disk)

def readSectors (sector count : Nat) : List UInt8 :=
  disk.read (sector * sectorSize) (count * sectorSize)

def writeSectors (sector count : Nat) (data : List UInt8) : Disk :=
  disk.write (sector * sectorSize) (data.take (count * sectorSize))

def superSector : Nat := 0
def catalogSector : Nat := 1
def catalogSectors : Nat := 12
def catalogEntries : Nat := 48
def catalogEntryBytes : Nat := 128
def dataStartSector : Nat := 64

/-! The superblock. Its type is eight bytes longer than a sector; those are padding. -/

structure Superblock where
  nextAppId : Nat
  nextDataSector : Nat
  entryCount : Nat

def storeMagic : List UInt8 := [0x4F, 0x53, 0x53, 0x54, 0x4F, 0x52, 0x45, 0x31]

def encodeSuperblock (sb : Superblock) : List UInt8 :=
  storeMagic ++ leBytes 4 1 ++ leBytes 4 sb.nextAppId ++ leBytes 8 sb.nextDataSector ++
    leBytes 4 sb.entryCount ++ List.replicate 484 0

def readSuperblock : Option Superblock :=
  let buf := readSectors disk superSector 1
  if slice buf 0 8 = storeMagic then
    some
      { nextAppId := ofLe (slice buf 12 4)
        nextDataSector := ofLe (slice buf 16 8)
        entryCount := ofLe (slice buf 24 4) }
  else none

def writeSuperblock (sb : Superblock) : Disk :=
  writeSectors disk superSector 1 (encodeSuperblock sb)

def formatStore : Disk :=
  writeSectors
    (writeSuperblock disk
      { nextAppId := 1, nextDataSector := dataStartSector, entryCount := 0 })
    catalogSector catalogSectors (List.replicate (catalogSectors * sectorSize) 0)

structure CatalogEntry where
  flags : Nat
  id : Nat
  name : List UInt8
  version : List UInt8
  entryOffset : Nat
  stackSize : Nat
  dataSector : Nat
  bundleSectors : Nat
  bundleBytes : Nat
  pad : Nat

def encodeEntry (entry : CatalogEntry) : List UInt8 :=
  leBytes 4 entry.flags ++ leBytes 4 entry.id ++ entry.name ++ entry.version ++
    leBytes 8 entry.entryOffset ++ leBytes 8 entry.stackSize ++ leBytes 8 entry.dataSector ++
    leBytes 4 entry.bundleSectors ++ leBytes 4 entry.bundleBytes ++ leBytes 4 entry.pad

variable (bytes : List UInt8)

def decodeEntry : CatalogEntry :=
  { flags := ofLe (slice bytes 0 4)
    id := ofLe (slice bytes 4 4)
    name := slice bytes 8 64
    version := slice bytes 72 16
    entryOffset := ofLe (slice bytes 88 8)
    stackSize := ofLe (slice bytes 96 8)
    dataSector := ofLe (slice bytes 104 8)
    bundleSectors := ofLe (slice bytes 112 4)
    bundleBytes := ofLe (slice bytes 116 4)
    pad := ofLe (slice bytes 120 4) }

def validEntry : Option CatalogEntry :=
  if (decodeEntry bytes).flags = 1 then some (decodeEntry bytes) else none

def entryAt (index : Nat) : Option CatalogEntry :=
  let buf := readSectors disk catalogSector catalogSectors
  validEntry (slice buf (index * catalogEntryBytes) catalogEntryBytes)

def readCatalog : List CatalogEntry := (List.range catalogEntries).filterMap (entryAt disk)

/-- An entry is copied with the four bytes that follow it in memory: `after`, by place. -/
def encodeCatalog (entries : List CatalogEntry) (after : Nat → Nat) : List UInt8 :=
  let places := (entries.take catalogEntries).zipIdx.map fun place =>
    encodeEntry place.1 ++ leBytes 4 (after place.2)
  places.flatten ++
    List.replicate (catalogSectors * sectorSize - places.length * catalogEntryBytes) 0

def writeCatalog (entries : List CatalogEntry) (after : Nat → Nat) : Disk :=
  writeSectors disk catalogSector catalogSectors (encodeCatalog entries after)

def bundleFromEntry (entry : CatalogEntry) : Bundle :=
  (readSectors disk entry.dataSector entry.bundleSectors).take entry.bundleBytes

structure State where
  disk : Disk
  registry : AppTable
  nextAppId : Nat
  nextDataSector : Nat
  /-- Id and snapshot of each app `install` returned an id for and nobody uninstalled. -/
  owed : List (Nat × List UInt8)

def sectorsForBytes (len : Nat) : Nat := (len + 511) / 512 % 2 ^ 32

def resize (len : Nat) : List UInt8 := (bytes ++ List.replicate (len - bytes.length) 0).take len

variable (state : State)

def State.superblock (entryCount : Nat) : Superblock :=
  { nextAppId := state.nextAppId, nextDataSector := state.nextDataSector, entryCount }

def State.persistBundle (appId : Nat) (bundle : Bundle) (after : Nat → Nat) :
    State × Except String Unit :=
  match parseHeader bundle with
  | none => (state, .error "bad bundle")
  | some hdr =>
    let sectors := sectorsForBytes bundle.length
    let written := { state with
      disk := writeSectors state.disk state.nextDataSector sectors
        (resize bundle (sectors * 512)) }
    let entries := readCatalog written.disk
    if catalogEntries ≤ entries.length then (written, .error "catalog full")
    else
      let entry : CatalogEntry :=
        { flags := 1
          id := appId
          name := hdr.name
          version := hdr.version
          entryOffset := hdr.entryOffset
          stackSize := hdr.stackSize
          dataSector := state.nextDataSector
          bundleSectors := sectors
          bundleBytes := bundle.length % 2 ^ 32
          pad := 0 }
      let advanced := { written with
        nextDataSector := state.nextDataSector + sectors
        nextAppId := max (min (appId + 1) (2 ^ 32 - 1)) state.nextAppId }
      let disk := writeCatalog written.disk (entries ++ [entry]) after
      ({ advanced with disk := writeSuperblock disk (advanced.superblock (entries.length + 1)) },
        .ok ())

def State.removeBundle (appId : Nat) (after : Nat → Nat) : State × Except String Unit :=
  let entries := readCatalog state.disk
  let kept := entries.filter fun entry => entry.id ≠ appId
  if kept.length = entries.length then (state, .error "not found")
  else
    ({ state with
        disk := writeSuperblock (writeCatalog state.disk kept after) (state.superblock kept.length) },
      .ok ())

/-- The result of the store is ignored. -/
def State.install (state : State) (bundle : Bundle) (after : Nat → Nat) : State × Option Nat :=
  match state.registry.install bundle with
  | (registry, none) => ({ state with registry }, none)
  | (registry, some id) =>
    let persisted := ({ state with registry }.persistBundle id bundle after).1
    let snapshots := (parseHeader bundle).toList.map (aotOf bundle)
    ({ persisted with owed := snapshots.map (id, ·) ++ state.owed }, some id)

def State.uninstall (appId : Nat) (after : Nat → Nat) : State × Bool :=
  if (state.registry.find appId).any (·.system) then (state, false)
  else
    match state.registry.remove appId with
    | (_, false) => (state, false)
    | (registry, true) =>
      let removed := ({ state with registry }.removeBundle appId after).1
      ({ removed with owed := state.owed.filter fun app => app.1 ≠ appId }, true)

def testPattern : List UInt8 :=
  [0x4F, 0x53, 0x43, 0x54, 0x45, 0x53, 0x54, 0x31] ++ List.replicate 504 0

def selfTest : Disk := writeSectors disk 1 1 testPattern

def hydrateRegistry (table : AppTable) : AppTable :=
  (readCatalog disk).foldl
    (fun table entry => (table.installFromStore (bundleFromEntry disk entry) entry.id).1) table

variable (image : AppTable.Image)

/-- `init_block_and_net`: the driver tests the device, the store is opened or formatted, the
registry is filled from it and then with the system apps. -/
def boot (disk : Disk) (owed : List (Nat × List UInt8)) : State :=
  let tested := selfTest disk
  let opened := if (readSuperblock tested).isNone then formatStore tested else tested
  let sb := (readSuperblock opened).getD { nextAppId := 1, nextDataSector := 0, entryCount := 0 }
  { disk := opened
    registry := AppTable.installSystemApps image (hydrateRegistry opened {})
    nextAppId := max sb.nextAppId 1
    nextDataSector := max sb.nextDataSector dataStartSector
    owed }

inductive Action where
  | install (bundle : Bundle) (after : Nat → Nat)
  | uninstall (appId : Nat) (after : Nat → Nat)
  | reboot
  /-- `sys_blk_write`, open to every process. -/
  | blkWrite (sector : Nat) (data : List UInt8)

def State.step (state : State) : Action → State
  | .install bundle after => (state.install bundle after).1
  | .uninstall appId after => (state.uninstall appId after).1
  | .reboot => boot image state.disk state.owed
  | .blkWrite sector data =>
    { state with
      disk := writeSectors state.disk sector (data.length / sectorSize) data }

/-- The volume is new: its first sector is no superblock. -/
def system : Runs.Machine State Action where
  start state := ∃ disk, readSuperblock disk = none ∧ state = boot image disk []
  step state action := some (state.step image action)

end OsCortex.AppStore
