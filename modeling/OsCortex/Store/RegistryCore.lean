import OsCortex.Lib.Bytes

/-!
The `.osx` bundle header and the application registry of `app_registry/mod.rs`.
-/

namespace OsCortex.AppRegistry

open Bytes

abbrev Bundle := List UInt8

structure BundleHeader where
  name : List UInt8
  version : List UInt8
  entryOffset : Nat
  stackSize : Nat
  aotLen : Nat

def magic : List UInt8 := [0x4F, 0x53, 0x43, 0x50]

def headerSize : Nat := 112

variable (bundle : Bundle)

def parseHeader : Option BundleHeader :=
  if bundle.length < headerSize then none
  else if slice bundle 0 4 ≠ magic then none
  else if ofLe (slice bundle 4 4) ≠ 1 then none
  else if bundle.length < headerSize + ofLe (slice bundle 104 4) then none
  else
    some
      { name := slice bundle 8 64
        version := slice bundle 72 16
        entryOffset := ofLe (slice bundle 88 8)
        stackSize := ofLe (slice bundle 96 8)
        aotLen := ofLe (slice bundle 104 4) }

def aotOf (hdr : BundleHeader) : List UInt8 := slice bundle headerSize hdr.aotLen

structure AppRecord where
  id : Nat
  name : List UInt8
  version : List UInt8
  entryOffset : Nat
  stackSize : Nat
  system : Bool
  aotData : List UInt8

def recordOf (hdr : BundleHeader) (id : Nat) (system : Bool) : AppRecord :=
  { id
    name := hdr.name
    version := hdr.version
    entryOffset := hdr.entryOffset
    stackSize := if hdr.stackSize = 0 then 512 * 1024 else hdr.stackSize
    system
    aotData := aotOf bundle hdr }

def trimmed (name : List UInt8) : List UInt8 := name.takeWhile (· ≠ 0)

def maxApps : Nat := 64

structure AppTable where
  slots : List (Option AppRecord) := []
  nextId : Nat := 1

namespace AppTable

variable (table : AppTable)

def records : List AppRecord := table.slots.filterMap id

def find (table : AppTable) (id : Nat) : Option AppRecord :=
  table.records.find? fun record => record.id = id

def findByName (name : List UInt8) : Option AppRecord :=
  table.records.find? fun record => trimmed record.name = name

def fill (record : AppRecord) : List (Option AppRecord) → List (Option AppRecord)
  | [] => [some record]
  | none :: rest => some record :: rest
  | some other :: rest => some other :: fill record rest

def insert (record : AppRecord) : Option AppTable :=
  if maxApps ≤ table.records.length then none
  else some { table with slots := fill record table.slots }

def idAfter (id : Nat) : Nat := max ((id + 1) % 2 ^ 32) 1

/-- The loop of `allocate_id`; more tries than there are records are never needed. -/
def allocateIdFrom : Nat → AppTable → AppTable × Nat
  | 0, table => (table, table.nextId)
  | tries + 1, table =>
    let advanced := { table with nextId := idAfter table.nextId }
    if (table.find table.nextId).isNone then (advanced, table.nextId)
    else allocateIdFrom tries advanced

def allocateId : AppTable × Nat := allocateIdFrom (table.slots.length + 1) table

def clear (id : Nat) : List (Option AppRecord) → List (Option AppRecord)
  | [] => []
  | none :: rest => none :: clear id rest
  | some record :: rest => if record.id = id then none :: rest else some record :: clear id rest

def remove (id : Nat) : AppTable × Bool :=
  ({ table with slots := clear id table.slots }, (table.find id).isSome)

def installRecord (bundle : Bundle) (id : Nat) (system : Bool) : AppTable × Option Nat :=
  match parseHeader bundle with
  | none => (table, none)
  | some hdr =>
    if (table.find id).isSome then (table, none)
    else if (table.findByName (trimmed hdr.name)).isSome then (table, none)
    else
      match table.insert (recordOf bundle hdr id system) with
      | none => (table, none)
      | some inserted =>
        -- `saturating_add(1).max(1)`
        ({ inserted with
            nextId := if inserted.nextId ≤ id then max (min (id + 1) (2 ^ 32 - 1)) 1
              else inserted.nextId },
          some id)

def installRecordAutoId (bundle : Bundle) (system : Bool) : AppTable × Option Nat :=
  match parseHeader bundle with
  | none => (table, none)
  | some hdr =>
    if (table.findByName (trimmed hdr.name)).isSome then (table, none)
    else
      let (advanced, id) := table.allocateId
      match advanced.insert (recordOf bundle hdr id system) with
      | none => (advanced, none)
      | some inserted => (inserted, some id)

def installFromStore (bundle : Bundle) (id : Nat) : AppTable × Option Nat :=
  table.installRecord bundle id false

def install (bundle : Bundle) : AppTable × Option Nat :=
  match parseHeader bundle with
  | none => (table, none)
  | some hdr =>
    if (table.findByName (trimmed hdr.name)).isSome then (table, none)
    else
      let advanced := { table with nextId := idAfter table.nextId }
      match advanced.insert (recordOf bundle hdr table.nextId false) with
      | none => (advanced, none)
      | some inserted => (inserted, some table.nextId)

structure Image where
  canvas : Option Bundle := none
  files : Option Bundle := none
  webLink : Option Bundle := none
  /-- What else is under `/Applications`; the buffer for its listing has 32 KiB. -/
  discovered : List Bundle := []
  listed : discovered.length ≤ 32 * 1024 := by simp

def Image.core (image : Image) : List (Option Bundle × Nat) :=
  [(image.canvas, 1), (image.files, 2), (image.webLink, 3)]

def seed : Option Bundle × Nat → AppTable
  | (some bundle, id) => (table.installRecord bundle id true).1
  | (none, _) => table

def installSystemApps (image : Image) (table : AppTable) : AppTable :=
  image.discovered.foldl (fun table bundle => (table.installRecordAutoId bundle true).1)
    (image.core.foldl seed table)

end AppTable

end OsCortex.AppRegistry
