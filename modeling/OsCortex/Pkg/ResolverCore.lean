import OsCortex.Lib.Scan
import OsCortex.Pkg.Http
import OsCortex.Pkg.Sha256
import OsCortex.Store.AppStoreCore

/-!
On-demand packages: the signed catalog (`pkg/manifest.rs`), the cache (`pkg/cache.rs`) and the
resolver (`pkg/resolver.rs`), over the app registry and its store, one call after the other.
-/

namespace OsCortex.Pkg

open Bytes AppRegistry

structure PkgManifest where
  name : List UInt8
  version : List UInt8
  hash : List UInt8
  sizeBytes : Nat
  flags : Nat
  reserved : List UInt8 := List.replicate 8 0
deriving DecidableEq

def manifestSize : Nat := 128

def flagSystem : Nat := 1

def PkgManifest.isSystem (manifest : PkgManifest) : Bool := manifest.flags &&& flagSystem != 0

def readManifest (bytes : List UInt8) : PkgManifest :=
  { name := slice bytes 0 64
    version := slice bytes 64 16
    hash := slice bytes 80 32
    sizeBytes := ofLe (slice bytes 112 4)
    flags := ofLe (slice bytes 116 4)
    reserved := slice bytes 120 8 }

def PkgManifest.asBytes (manifest : PkgManifest) : List UInt8 :=
  manifest.name ++ manifest.version ++ manifest.hash ++ leBytes 4 manifest.sizeBytes ++
    leBytes 4 manifest.flags ++ manifest.reserved

def serializeCatalog (entries : List PkgManifest) : List UInt8 :=
  leBytes 4 entries.length ++ (entries.map PkgManifest.asBytes).flatten

/-- The package server's encoder, over its own copy of the record. -/
def buildCatalogBin (manifests : List PkgManifest) : List UInt8 := serializeCatalog manifests

def parseCatalog (data : List UInt8) : Option (List PkgManifest) :=
  if data.length < 4 then none
  else
    let count := ofLe (slice data 0 4)
    if data.length < 4 + count * manifestSize then none
    else
      some ((List.range count).map fun i =>
        readManifest (slice data (4 + i * manifestSize) manifestSize))

/-- The package server's reading of a file it is to offer; its `Sha256` is a library's. -/
def parseOsx (data : List UInt8) : Option PkgManifest :=
  if data.length < 88 then none
  else if slice data 0 4 ≠ magic then none
  else if ofLe (slice data 4 4) ≠ 1 then none
  else
    some
      { name := slice data 8 64
        version := slice data 72 16
        hash := Sha256.digest data
        sizeBytes := data.length % 2 ^ 32
        flags := 0 }

def findManifest (catalog : List PkgManifest) (name : List UInt8) : Option PkgManifest :=
  catalog.find? fun manifest => trimmed manifest.name = trimmed name

/-- `ed25519_compact`: what its verification accepts are the valid signatures. -/
structure Ed25519 where
  verify : (key msg sig : List UInt8) → Bool
  Signed : (key msg sig : List UInt8) → Prop
  correct : ∀ key msg sig, verify key msg sig = true ↔ Signed key msg sig

def catalogPubkey : List UInt8 :=
  [0x9e, 0x48, 0x65, 0x7d, 0x5f, 0x21, 0x44, 0x66, 0x79, 0x85, 0xe3, 0xb2, 0xbd, 0x8d, 0x34, 0xc3,
    0xc4, 0x03, 0x9b, 0xac, 0x6a, 0x44, 0x57, 0xff, 0x62, 0x5e, 0x8c, 0xe6, 0xf4, 0xdb, 0xa1, 0xb1]

def verifyCatalogSig (crypto : Ed25519) (msg sig : List UInt8) : Bool :=
  if sig.length = 64 then crypto.verify catalogPubkey msg sig else false

def maxCached : Nat := 16

structure CacheEntry where
  active : Bool := false
  appId : Nat := 0
  hash : List UInt8 := List.replicate 32 0
  lastUsed : Nat := 0
  pinned : Bool := false

abbrev Cache := List CacheEntry

def emptyCache : Cache := List.replicate maxCached {}

namespace Cache

def lookup (cache : Cache) (hash : List UInt8) (now : Nat) : Cache × Option Nat :=
  match Scan.updateFirst (fun entry => entry.active && hashEq entry.hash hash)
      (fun entry => { entry with lastUsed := now }) cache with
  | some (found, touched) => (touched, some found.appId)
  | none => (cache, none)

def victim (cache : Cache) : Option (CacheEntry × Nat) :=
  (cache.zipIdx.filter fun slot => slot.1.active && !slot.1.pinned).argmin fun slot =>
    slot.1.lastUsed

def insert (cache : Cache) (entry : CacheEntry) : Cache × Option Nat × Bool :=
  match Scan.updateFirst (fun slot => !slot.active) (fun _ => entry) cache with
  | some (_, filled) => (filled, none, true)
  | none =>
    match cache.victim with
    | some (old, slot) => (cache.set slot entry, some old.appId, true)
    | none => (cache, none, false)

def touch (cache : Cache) (appId now : Nat) : Cache :=
  match Scan.updateFirst (fun entry => entry.active && entry.appId == appId)
      (fun entry => { entry with lastUsed := now }) cache with
  | some (_, touched) => touched
  | none => cache

def remove (cache : Cache) (appId : Nat) : Cache × Bool :=
  match Scan.updateFirst (fun entry => entry.active && entry.appId == appId)
      (fun entry => { entry with active := false }) cache with
  | some (found, cleared) => if found.pinned then (cache, false) else (cleared, true)
  | none => (cache, false)

end Cache

inductive ResolveError where
  | noCatalog
  | notFound
  | fetchFailed
  | hashMismatch
  | badSignature
  | installFailed
  | cacheFull
deriving DecidableEq

structure ServerConfig where
  ip : Nat := 0x0A000202
  port : Nat := 8080

abbrev Network := ServerConfig → String → Http.Exchange

/-- What a call takes from its surroundings: the frame counter, and what lies behind the entries
of the catalog in memory when the store writes it. -/
structure Env where
  now : Nat := 0
  afterPersist : Nat → Nat := fun _ => 0
  afterRemove : Nat → Nat := fun _ => 0

structure State where
  store : AppStore.State
  catalog : List PkgManifest := []
  cache : Cache := emptyCache
  server : ServerConfig := {}
  /-- Id and bundle of each package that `resolve` installed, as long as it is installed. -/
  origins : List (Nat × Bundle) := []

def packagePath (hash : List UInt8) : String := "/pkg/" ++ hashHex hash ++ ".osx"

namespace State

def fetch (state : State) (net : Network) (path : String) :
    Option (Except Http.HttpError (List UInt8)) :=
  Http.get (net state.server path)

/-- No result: the call is still waiting for the network. -/
def refreshCatalog (crypto : Ed25519) (state : State) (net : Network) :
    State × Option (Except ResolveError Nat) :=
  match state.fetch net "/catalog.bin" with
  | none => (state, none)
  | some (.error _) => (state, some (.error .fetchFailed))
  | some (.ok body) =>
    match state.fetch net "/catalog.sig" with
    | none => (state, none)
    | some (.error _) => (state, some (.error .badSignature))
    | some (.ok sig) =>
      if verifyCatalogSig crypto body sig then
        match parseCatalog body with
        | none => (state, some (.error .fetchFailed))
        | some entries => ({ state with catalog := entries }, some (.ok entries.length))
      else (state, some (.error .badSignature))

def uninstall (state : State) (env : Env) (appId : Nat) : State × Bool :=
  let (store, removed) := state.store.uninstall appId env.afterRemove
  ({ state with
      store
      origins := if removed then state.origins.filter fun app => app.1 ≠ appId else state.origins },
    removed)

def cacheInsert (state : State) (env : Env) (appId : Nat) (hash : List UInt8) (pinned : Bool) :
    State :=
  let (cache, evicted, _) := state.cache.insert
    { active := true, appId, hash, lastUsed := env.now, pinned }
  match evicted with
  | none => { state with cache }
  | some old => { (state.uninstall env old).1 with cache }

def installVerified (state : State) (env : Env) (manifest : PkgManifest) (bundle : Bundle) :
    State × Except ResolveError Nat :=
  if hashEq (hash bundle) manifest.hash then
    match state.store.install bundle env.afterPersist with
    | (store, none) => ({ state with store }, .error .installFailed)
    | (store, some id) =>
      let installed := { state with store, origins := (id, bundle) :: state.origins }
      (installed.cacheInsert env id manifest.hash manifest.isSystem, .ok id)
  else (state, .error .hashMismatch)

def resolve (state : State) (name : List UInt8) (net : Network) (env : Env) :
    State × Option (Except ResolveError Nat) :=
  match findManifest state.catalog name with
  | none => (state, some (.error .notFound))
  | some manifest =>
    match state.cache.lookup manifest.hash env.now with
    | (cache, some appId) => ({ state with cache }, some (.ok appId))
    | (_, none) =>
      match state.fetch net (packagePath manifest.hash) with
      | none => (state, none)
      | some (.error _) => (state, some (.error .fetchFailed))
      | some (.ok bundle) =>
        let (next, result) := state.installVerified env manifest bundle
        (next, some result)

def pkgEvict (state : State) (env : Env) (appId : Nat) : State × Bool :=
  match state.cache.remove appId with
  | (_, false) => (state, false)
  | (cache, true) => (({ state with cache }.uninstall env appId).1, true)

def appInstall (state : State) (env : Env) (bundle : Bundle) : State :=
  { state with store := (state.store.install bundle env.afterPersist).1 }

end State

deriving instance DecidableEq for AppRecord

def madeOf (record : AppRecord) (bundle : Bundle) : Bool :=
  match parseHeader bundle with
  | none => false
  | some hdr => decide (record = recordOf bundle hdr record.id record.system)

inductive Call where
  | resolve (name : List UInt8) (net : Network) (env : Env)
  | pkgSetServer (ip port : Nat) (net : Network)
  | pkgEvict (appId : Nat) (env : Env)
  | appInstall (bundle : Bundle) (env : Env)
  | appUninstall (appId : Nat) (env : Env)
  | blkWrite (sector : Nat) (data : List UInt8)
  /-- The catalog, the cache and the address of the server are not stored. -/
  | reboot

def boot (image : AppTable.Image) (disk : AppStore.Disk) : State :=
  { store := AppStore.boot image disk [] }

def State.call (crypto : Ed25519) (image : AppTable.Image) (state : State) : Call → State
  | .resolve name net env => (state.resolve name net env).1
  | .pkgSetServer ip port net =>
    ({ state with server := ⟨ip % 2 ^ 32, port % 2 ^ 16⟩ }.refreshCatalog crypto net).1
  | .pkgEvict appId env => (state.pkgEvict env (appId % 2 ^ 32)).1
  | .appInstall bundle env => state.appInstall env bundle
  | .appUninstall appId env => (state.uninstall env (appId % 2 ^ 32)).1
  | .blkWrite sector data =>
    { state with store := state.store.step image (.blkWrite sector data) }
  | .reboot =>
    let store := state.store.step image .reboot
    { store
      origins := state.origins.filter fun app =>
        store.registry.records.any fun record => record.id == app.1 && madeOf record app.2 }

def system (crypto : Ed25519) (image : AppTable.Image) : Runs.Machine State Call where
  start state := ∃ disk, state = boot image disk
  step state call := some (state.call crypto image call)

end OsCortex.Pkg
