import OsCortex.Pkg.ResolverCore
import OsCortex.Store.RegistryRuns

/-!
What `resolve` installs is vouched for: its bundle has the hash that a signed catalog lists for
the name that was asked for, whatever the network answers.
-/

namespace OsCortex.Pkg

open Bytes AppRegistry State AppTable List Http

variable {crypto : Ed25519} {image : AppTable.Image} {state : State}
  {table : AppTable} {bundle : Bundle} {record : AppRecord} {entries : List PkgManifest}

abbrev State.records (state : State) : List AppRecord := state.store.registry.records

def Vouched (crypto : Ed25519) (name : List UInt8) (record : AppRecord) : Prop :=
  ∃ body sig entries manifest bundle hdr, crypto.Signed catalogPubkey body sig ∧
    parseCatalog body = some entries ∧ findManifest entries name = some manifest ∧
    Sha256.digest bundle = manifest.hash ∧ parseHeader bundle = some hdr ∧
    record = recordOf bundle hdr record.id false

/-- A new app of `resolve` is the one whose id it returns, and is vouched for; without a result
there is no new app. -/
def Trusted (crypto : Ed25519) (state : State) : Call → Prop
  | .resolve name net env =>
    let (after, result) := state.resolve name net env
    ((∀ id, result ≠ some (.ok id)) → after.records = state.records) ∧
      ∀ record ∈ after.records, record ∉ state.records →
        result = some (.ok record.id) ∧ Vouched crypto name record
  | _ => True

lemma step_system (call : Call) :
    (system crypto image).step state call = some (state.call crypto image call) := rfl

lemma call_resolve (name : List UInt8) (net : Network) (env : Env) :
    state.call crypto image (.resolve name net env) = (state.resolve name net env).1 := rfl

lemma call_appUninstall (appId : Nat) (env : Env) :
    state.call crypto image (.appUninstall appId env) =
      (state.uninstall env (appId % 2 ^ 32)).1 := rfl

lemma registry_persistBundle (store : AppStore.State) (appId : Nat) (bundle : Bundle)
    (after : Nat → Nat) : (store.persistBundle appId bundle after).1.registry = store.registry := by
  simp only [AppStore.State.persistBundle]
  split
  · rfl
  split
  · rfl
  · rfl

lemma registry_removeBundle (store : AppStore.State) (appId : Nat) (after : Nat → Nat) :
    (store.removeBundle appId after).1.registry = store.registry := by
  simp only [AppStore.State.removeBundle]
  split
  · rfl
  · rfl

lemma registry_install (store : AppStore.State) (bundle : Bundle) (after : Nat → Nat) :
    (store.install bundle after).1.registry = (store.registry.install bundle).1 ∧
      (store.install bundle after).2 = (store.registry.install bundle).2 := by
  simp only [AppStore.State.install]
  cases installed : store.registry.install bundle with
  | mk registry result =>
    cases result with
    | none => exact ⟨rfl, rfl⟩
    | some id => exact ⟨registry_persistBundle .., rfl⟩

lemma registry_uninstall (store : AppStore.State) (appId : Nat) (after : Nat → Nat) :
    (store.uninstall appId after).1.registry = (store.registry.uninstall appId).1 ∧
      (store.uninstall appId after).2 = (store.registry.uninstall appId).2 := by
  simp only [AppStore.State.uninstall, AppTable.uninstall]
  split
  · exact ⟨rfl, rfl⟩
  cases removed : store.registry.remove appId with
  | mk registry found =>
    cases found with
    | false =>
      have missing : (store.registry.find appId).isSome = false := congrArg Prod.snd removed
      have same := AppTable.remove_missing missing
      rw [removed] at same
      exact ⟨same.symm, rfl⟩
    | true =>
      dsimp only
      exact ⟨registry_removeBundle { store with registry } appId after, rfl⟩

lemma uninstall_subset {table : AppTable} {appId : Nat} {record : AppRecord}
    (member : record ∈ (table.uninstall appId).1.records) : record ∈ table.records := by
  simp only [AppTable.uninstall] at member
  split at member
  · exact member
  · rw [records_remove] at member
    exact eraseP_sublist.subset member

lemma install_new
    (member : record ∈ (table.install bundle).1.records) :
    record ∈ table.records ∨ (table.install bundle).2 = some record.id ∧
      ∃ hdr, parseHeader bundle = some hdr ∧ record = recordOf bundle hdr record.id false := by
  cases accepted : table.accepts bundle with
  | false =>
    rw [(install_rejected accepted).1] at member
    exact .inl member
  | true =>
    obtain ⟨hdr, parsed, _, result, insertion⟩ := install_accepted accepted
    rcases mem_cons.1 ((insert_perm insertion).1.mem_iff.1 member) with rfl | old
    · exact .inr ⟨result, hdr, parsed, rfl⟩
    · exact .inl old

lemma install_none
    (refused : (table.install bundle).2 = none) :
    (table.install bundle).1.records = table.records := by
  cases accepted : table.accepts bundle with
  | false => exact (install_rejected accepted).1
  | true =>
    obtain ⟨_, _, _, result, _⟩ := install_accepted accepted
    rw [refused] at result
    cases result

lemma hash_parseCatalog {data : List UInt8} (parsed : parseCatalog data = some entries) :
    ∀ manifest ∈ entries, manifest.hash.length = 32 := by
  simp only [parseCatalog] at parsed
  split at parsed
  · cases parsed
  split at parsed
  · cases parsed
  rename_i long
  cases parsed
  intro manifest member
  obtain ⟨i, inside, rfl⟩ := mem_map.1 member
  have below := mem_range.1 inside
  simp only [manifestSize] at long below
  have entry : (slice data (4 + i * 128) 128).length = 128 := length_slice (by omega)
  exact length_slice (by rw [manifestSize, entry]; omega)

structure PkgManifest.Fits (manifest : PkgManifest) : Prop where
  name : manifest.name.length = 64
  version : manifest.version.length = 16
  hash : manifest.hash.length = 32
  sizeBytes : manifest.sizeBytes < 256 ^ 4
  flags : manifest.flags < 256 ^ 4
  reserved : manifest.reserved.length = 8

lemma readManifest_asBytes {manifest : PkgManifest} (fits : manifest.Fits) :
    readManifest manifest.asBytes = manifest := by
  obtain ⟨name, version, hash, sizeBytes, flags, reserved⟩ := fits
  simp (disch := simp [name, version, hash, reserved]) only [readManifest, PkgManifest.asBytes,
    append_assoc, slice_append_right, slice_append_left, length_leBytes, name, version, hash,
    Nat.reduceSub, slice_all, ofLe_leBytes sizeBytes, ofLe_leBytes flags]

lemma parse_serialize (few : entries.length < 2 ^ 32) (fits : ∀ manifest ∈ entries, manifest.Fits) :
    parseCatalog (serializeCatalog entries) = some entries := by
  have sizes : ∀ piece ∈ entries.map PkgManifest.asBytes, piece.length = 128 := by
    intro piece member
    obtain ⟨manifest, inside, rfl⟩ := mem_map.1 member
    obtain ⟨name, version, hash, _, _, reserved⟩ := fits manifest inside
    simp [PkgManifest.asBytes, name, version, hash, reserved]
  have count : ofLe (slice (serializeCatalog entries) 0 4) = entries.length := by
    rw [serializeCatalog, slice_append_left _ (by simp), slice_all (by simp), ofLe_leBytes few]
  have whole : (serializeCatalog entries).length = 4 + entries.length * 128 := by
    rw [serializeCatalog, length_append, length_leBytes, length_flatten sizes, length_map]
  simp only [parseCatalog, count, whole, manifestSize]
  rw [if_neg (by omega), if_neg (by omega)]
  congr 1
  apply ext_getElem
  · simp
  intro i _ inside
  have piece := @slice_flatten _ _ 128 i sizes (by simpa using inside) []
  rw [append_nil] at piece
  rw [getElem_map, getElem_range, serializeCatalog, slice_append_right _ _ (by simp),
    length_leBytes, Nat.add_sub_cancel_left, piece, getElem_map]
  exact readManifest_asBytes (fits _ (getElem_mem inside))

/-- What either encoder writes is read back, and only a catalog that is shorter than it says is
refused; the check does not wrap. -/
theorem catalog_round_trip : (∀ entries : List PkgManifest, entries.length < 2 ^ 32 →
      (∀ manifest ∈ entries, manifest.Fits) →
      parseCatalog (serializeCatalog entries) = some entries ∧
        parseCatalog (buildCatalogBin entries) = some entries) ∧
    ∀ data, (parseCatalog data = none ↔
        data.length < 4 ∨ data.length < 4 + ofLe (slice data 0 4) * manifestSize) ∧
      4 + ofLe (slice data 0 4) * manifestSize < 2 ^ 64 := by
  refine ⟨fun entries few fits => ⟨parse_serialize few fits, parse_serialize few fits⟩, ?_⟩
  intro data
  constructor
  · simp only [parseCatalog]
    split
    · simp [*]
    · split <;> simp [*]
  have small := ofLe_lt (slice data 0 4)
  have four : (slice data 0 4).length ≤ 4 := length_take_le ..
  have bound := Nat.pow_le_pow_right (show 0 < 256 by decide) four
  rw [manifestSize]
  omega

theorem catalog_of_one : parseCatalog (buildCatalogBin [readManifest (List.replicate 128 1)]) =
    some [readManifest (List.replicate 128 1)] := by
  refine (catalog_round_trip.1 _ (by decide) ?_).2
  simp only [mem_singleton, forall_eq]
  exact ⟨rfl, rfl, rfl, by decide, by decide, rfl⟩

def Authentic (crypto : Ed25519) (catalog : List PkgManifest) : Prop :=
  catalog = [] ∨ ∃ body sig, crypto.Signed catalogPubkey body sig ∧ parseCatalog body = some catalog

lemma refreshCatalog_cases (crypto : Ed25519) (state : State) (net : Network) :
    (state.refreshCatalog crypto net).1 = state ∨
      ∃ body sig entries, crypto.Signed catalogPubkey body sig ∧ parseCatalog body = some entries ∧
        (state.refreshCatalog crypto net).1 = { state with catalog := entries } := by
  simp only [refreshCatalog]
  split
  · exact .inl rfl
  · exact .inl rfl
  rename_i body _
  split
  · exact .inl rfl
  · exact .inl rfl
  rename_i sig _
  split
  · rename_i verified
    split
    · exact .inl rfl
    rename_i entries parsed
    refine .inr ⟨body, sig, entries, (crypto.correct _ _ _).1 ?_, parsed, rfl⟩
    simp only [verifyCatalogSig] at verified
    split at verified
    · exact verified
    · cases verified
  · exact .inl rfl

lemma refreshCatalog_authentic (net : Network) (authentic : Authentic crypto state.catalog) :
    Authentic crypto (state.refreshCatalog crypto net).1.catalog := by
  obtain same | ⟨body, sig, entries, signed, parsed, replaced⟩ :=
    refreshCatalog_cases crypto state net
  · rw [same]
    exact authentic
  · rw [replaced]
    exact .inr ⟨body, sig, signed, parsed⟩

lemma catalog_cacheInsert (env : Env) (appId : Nat) (hash : List UInt8) (pinned : Bool) :
    (state.cacheInsert env appId hash pinned).catalog = state.catalog := by
  simp only [State.cacheInsert]
  split
  · rfl
  · rfl

lemma catalog_resolve (name : List UInt8) (net : Network) (env : Env) :
    (state.resolve name net env).1.catalog = state.catalog := by
  simp only [State.resolve]
  split
  · rfl
  split
  · rfl
  split
  · rfl
  · rfl
  simp only [State.installVerified]
  split
  · split
    · rfl
    · exact catalog_cacheInsert ..
  · rfl

lemma call_authentic (call : Call) (authentic : Authentic crypto state.catalog) :
    Authentic crypto (state.call crypto image call).catalog := by
  cases call with
  | resolve name net env =>
    show Authentic crypto (state.resolve name net env).1.catalog
    rw [catalog_resolve]
    exact authentic
  | pkgSetServer ip port net => exact refreshCatalog_authentic net authentic
  | pkgEvict appId env =>
    show Authentic crypto (state.pkgEvict env (appId % 2 ^ 32)).1.catalog
    rw [pkgEvict]
    split
    all_goals exact authentic
  | appInstall bundle env => exact authentic
  | appUninstall appId env => exact authentic
  | blkWrite sector data => exact authentic
  | reboot => exact .inl rfl

lemma length_hash (data : List UInt8) : (hash data).length = 32 := by
  simp [hash, Sha256.Words.toBytes, length_beBytes]

lemma digest_of_hashEq {exchange : Exchange} {expected : List UInt8}
    (fetched : Http.get exchange = some (.ok bundle)) (length : expected.length = 32)
    (same : hashEq (hash bundle) expected) : Sha256.digest bundle = expected := by
  have bound := length_get fetched
  rw [maxBodySize] at bound
  rw [← hash_eq_digest (by omega)]
  exact (hashEq_iff (length_hash bundle) length).1 same

lemma resolve_cases (state : State) (name : List UInt8) (net : Network) (env : Env) :
    (∃ result, state.resolve name net env = (state, result) ∧ ∀ id, result ≠ some (.ok id)) ∨
    ∃ manifest, findManifest state.catalog name = some manifest ∧
      ((∃ cache id, state.cache.lookup manifest.hash env.now = (cache, some id) ∧
          state.resolve name net env = ({ state with cache }, some (.ok id))) ∨
        ∃ bundle, (state.cache.lookup manifest.hash env.now).2 = none ∧
          state.fetch net (packagePath manifest.hash) = some (.ok bundle) ∧
          hashEq (hash bundle) manifest.hash ∧
          ((∃ store, state.store.install bundle env.afterPersist = (store, none) ∧
              state.resolve name net env =
                ({ state with store }, some (.error .installFailed))) ∨
            ∃ store id, state.store.install bundle env.afterPersist = (store, some id) ∧
              state.resolve name net env =
                ({ state with store, origins := (id, bundle) :: state.origins }.cacheInsert env id
                  manifest.hash manifest.isSystem, some (.ok id)))) := by
  simp only [State.resolve]
  split
  · exact .inl ⟨_, rfl, nofun⟩
  rename_i manifest found
  split
  · rename_i cache id hit
    exact .inr ⟨manifest, found, .inl ⟨cache, id, hit, rfl⟩⟩
  rename_i missed
  split
  iterate 2 exact .inl ⟨_, rfl, nofun⟩
  rename_i bundle fetched
  simp only [State.installVerified]
  split
  · rename_i same
    refine .inr ⟨manifest, found, .inr ⟨bundle, by rw [missed], fetched, same, ?_⟩⟩
    split
    · rename_i store failed
      exact .inl ⟨store, failed, rfl⟩
    · rename_i store id installed
      exact .inr ⟨store, id, installed, rfl⟩
  · exact .inl ⟨_, rfl, nofun⟩

lemma resolve_hit {name : List UInt8} {net : Network} {env : Env} {manifest : PkgManifest}
    {cache : Cache} {id : Nat} (found : findManifest state.catalog name = some manifest)
    (hit : state.cache.lookup manifest.hash env.now = (cache, some id)) :
    state.resolve name net env = ({ state with cache }, some (.ok id)) := by
  simp [State.resolve, found, hit]

lemma resolve_new {name : List UInt8} {net : Network} {env : Env} {manifest : PkgManifest}
    {cache : Cache} {bundle : Bundle} {store : AppStore.State} {id : Nat}
    (found : findManifest state.catalog name = some manifest)
    (missed : state.cache.lookup manifest.hash env.now = (cache, none))
    (fetched : state.fetch net (packagePath manifest.hash) = some (.ok bundle))
    (verified : hashEq (hash bundle) manifest.hash)
    (installed : state.store.install bundle env.afterPersist = (store, some id)) :
    state.resolve name net env =
      ({ state with store, origins := (id, bundle) :: state.origins }.cacheInsert env id
        manifest.hash manifest.isSystem, some (.ok id)) := by
  simp [State.resolve, found, missed, fetched, State.installVerified, verified, installed]

lemma cacheInsert_subset {env : Env} {appId : Nat} {hash : List UInt8} {pinned : Bool}
    (member : record ∈ (state.cacheInsert env appId hash pinned).records) :
    record ∈ state.records := by
  simp only [State.cacheInsert] at member
  split at member
  · exact member
  rename_i old _
  have registry := (registry_uninstall state.store old env.afterRemove).1
  refine @uninstall_subset _ old record ?_
  rw [← registry]
  exact member

lemma resolve_trusted (authentic : Authentic crypto state.catalog) (name : List UInt8)
    (net : Network) (env : Env) : Trusted crypto state (.resolve name net env) := by
  simp only [Trusted]
  obtain ⟨result, same, _⟩ | ⟨manifest, found, ⟨cache, id, _, same⟩ |
    ⟨bundle, _, fetched, same, rest⟩⟩ := resolve_cases state name net env
  iterate 2
    rw [same]
    exact ⟨fun _ => rfl, fun record member new => absurd member new⟩
  obtain ⟨registry, result⟩ := registry_install state.store bundle env.afterPersist
  obtain ⟨store, refused, resolved⟩ | ⟨store, id, installed, resolved⟩ := rest
  · rw [refused] at registry result
    have records : store.registry.records = state.records := by
      rw [registry]
      exact install_none result.symm
    rw [resolved]
    exact ⟨fun _ => records, fun record member new => absurd (records ▸ member) new⟩
  rw [installed] at registry result
  rw [resolved]
  refine ⟨fun none => absurd rfl (none id), fun record member new => ?_⟩
  have added : record ∈ (state.store.registry.install bundle).1.records := by
    rw [← registry]
    exact cacheInsert_subset member
  obtain ⟨returned, hdr, parsed, made⟩ := (install_new added).resolve_left new
  have numbered : id = record.id := Option.some.inj (result.trans returned)
  refine ⟨by rw [numbered], ?_⟩
  rcases authentic with empty | ⟨body, sig, signed, listed⟩
  · rw [empty] at found
    cases found
  have length := hash_parseCatalog listed manifest (mem_of_find?_eq_some found)
  exact ⟨body, sig, state.catalog, manifest, bundle, hdr, signed, listed, found,
    digest_of_hashEq fetched length same, parsed, made⟩

theorem resolve_installs_vouched (crypto : Ed25519) (image : AppTable.Image)
    (disk : AppStore.Disk) (calls : List Call) :
    (system crypto image).Obeys (Trusted crypto) (boot image disk) calls := by
  have implied : ∀ state call, Authentic crypto state.catalog → Runs.anyStep state call →
      Trusted crypto state call := by
    intro state call authentic _
    cases call with
    | resolve name net env => exact resolve_trusted authentic name net env
    | pkgSetServer | pkgEvict | appInstall | appUninstall | blkWrite | reboot => trivial
  refine Runs.Machine.obeys_of_invariant implied ?_ calls (.inl rfl)
    (Runs.Machine.obeys_anyStep _ calls _)
  intro state call next authentic _ taken
  cases taken
  exact call_authentic call authentic

section Listed

variable {data : List UInt8} {manifest : PkgManifest} (listed : parseOsx data = some manifest)
include listed

lemma of_listed : slice data 0 4 = magic ∧ ofLe (slice data 4 4) = 1 ∧
    manifest.name = slice data 8 64 ∧ manifest.hash = Sha256.digest data := by
  simp only [parseOsx] at listed
  iterate 3
    split at listed
    · cases listed
  rename_i isMagic isVersion
  cases listed
  exact ⟨Decidable.not_not.1 isMagic, Decidable.not_not.1 isVersion, rfl, rfl⟩

lemma accepts_listed (room : table.records.length < maxApps)
    (unnamed : table.findByName (trimmed manifest.name) = none) :
    table.accepts data ↔ headerSize + ofLe (slice data 104 4) ≤ data.length := by
  obtain ⟨isMagic, isVersion, isName, _⟩ := of_listed listed
  rw [isName] at unnamed
  rw [AppTable.accepts, parseHeader, if_neg (not_not_intro isMagic), if_neg (not_not_intro isVersion)]
  by_cases whole : headerSize + ofLe (slice data 104 4) ≤ data.length
  · rw [if_neg (by omega), if_neg (by omega)]
    simp [whole, room, unnamed]
  · rw [if_pos (Nat.not_le.1 whole), ite_self]
    simp [whole]

end Listed

lemma resolve_listed {data : List UInt8} {manifest : PkgManifest} {name : List UInt8}
    {net : Network} {env : Env} (listed : parseOsx data = some manifest)
    (found : findManifest state.catalog name = some manifest)
    (fetched : state.fetch net (packagePath manifest.hash) = some (.ok data))
    (room : state.records.length < maxApps)
    (unnamed : state.store.registry.findByName (trimmed manifest.name) = none) :
    (∃ id, (state.resolve name net env).2 = some (.ok id)) ↔
      (state.cache.lookup manifest.hash env.now).2.isSome ∨
        headerSize + ofLe (slice data 104 4) ≤ data.length := by
  have same : hashEq (hash data) manifest.hash := by
    have bound := length_get fetched
    rw [maxBodySize] at bound
    rw [(of_listed listed).2.2.2, ← hash_eq_digest (by omega)]
    exact (hashEq_iff (length_hash data) (length_hash data)).2 rfl
  have installed : (state.store.install data env.afterPersist).2.isSome =
      state.store.registry.accepts data := by
    rw [(registry_install state.store data env.afterPersist).2]
    cases accepted : state.store.registry.accepts data with
    | false =>
      rw [(install_rejected accepted).2.1]
      rfl
    | true =>
      obtain ⟨_, _, _, result, _⟩ := install_accepted accepted
      rw [result]
      rfl
  rw [← accepts_listed listed room unnamed, ← installed]
  rcases hit : state.cache.lookup manifest.hash env.now with ⟨cache, _ | id⟩
  · rcases made : state.store.install data env.afterPersist with ⟨store, _ | id⟩
    all_goals simp [State.resolve, found, hit, fetched, State.installVerified, same, made]
  · simp [State.resolve, found, hit]

/-- A file the server lists, a kernel that has found it in the catalog and has room for it, and a
connection that delivers it. -/
structure Offer where
  data : List UInt8
  manifest : PkgManifest
  state : State
  name : List UInt8
  net : Network
  env : Env
  listed : parseOsx data = some manifest
  found : findManifest state.catalog name = some manifest
  fetched : state.fetch net (packagePath manifest.hash) = some (.ok data)
  room : state.records.length < maxApps
  unnamed : state.store.registry.findByName (trimmed manifest.name) = none

def shortFile : List UInt8 := magic ++ leBytes 4 1 ++ List.replicate 80 0

end OsCortex.Pkg
