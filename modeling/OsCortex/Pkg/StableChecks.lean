import OsCortex.Pkg.CacheChecks

/-!
`resolve` over the cache, the registry and the disk. The three agree on the packages resolved so far
as long as none is uninstalled, comes back at a reboot, or finds the cache full of pinned entries.
-/

namespace OsCortex.Pkg

open Bytes AppRegistry Scan List Option State AppTable

variable {crypto : Ed25519} {image : AppTable.Image} {state : State} {env : Env}
  {store : AppStore.State}

def InstalledFrom (image : AppTable.Image) (state : State) (id : Nat) (bundle : Bundle) : Prop :=
  ∃ record ∈ state.records, record.id = id ∧ madeOf record bundle = true ∧
    if record.system then ∃ app ∈ AppStore.shipped image, app.bundle = bundle
    else (id, bundle) ∈ state.origins

def Stable (image : AppTable.Image) (state : State) : Call → Prop
  | .resolve name net env =>
    ∀ manifest, findManifest state.catalog name = some manifest →
      (∀ id, (state.resolve name net env).2 = some (.ok id) →
        ∃ bundle, Sha256.digest bundle = manifest.hash ∧
          InstalledFrom image (state.resolve name net env).1 id bundle) ∧
      ∀ bundle id, state.fetch net (packagePath manifest.hash) = some (.ok bundle) →
        Sha256.digest bundle = manifest.hash → InstalledFrom image state id bundle →
        (state.resolve name net env).2 = some (.ok id)
  | _ => True

def Careful (image : AppTable.Image) (state : State) : Call → Prop
  | .resolve name _ _ =>
    state.store.registry.find state.store.registry.nextId = none ∧
      (∃ entry ∈ state.cache, entry.active = false ∨ entry.pinned = false) ∧
      ∀ manifest, findManifest state.catalog name = some manifest →
        ∀ app ∈ AppStore.shipped image, Sha256.digest app.bundle ≠ manifest.hash
  | .appInstall _ _ => state.store.registry.find state.store.registry.nextId = none
  | .appUninstall appId _ =>
    ∀ entry ∈ state.cache, entry.active = true → entry.appId ≠ appId % 2 ^ 32
  | .reboot => state.origins = []
  | _ => True

def Holds (table : AppTable) (id : Nat) (bundle : Bundle) : Prop :=
  ∃ hdr, parseHeader bundle = some hdr ∧ recordOf bundle hdr id false ∈ table.records

structure Agree (state : State) : Prop where
  registry : AppTable.Distinct state.store.registry
  listed : ∀ manifest ∈ state.catalog, manifest.hash.length = 32
  apps : state.cache.Pairwise OtherApp
  hashes : state.cache.Pairwise OtherHash
  width : ∀ entry ∈ state.cache, entry.active = true → entry.hash.length = 32
  cached : ∀ entry ∈ state.cache, entry.active = true →
    ∃ bundle, (entry.appId, bundle) ∈ state.origins ∧ Sha256.digest bundle = entry.hash
  tracked : ∀ app ∈ state.origins, ∃ entry ∈ state.cache, entry.active = true ∧
    entry.appId = app.1 ∧ entry.hash = Sha256.digest app.2
  present : ∀ app ∈ state.origins, Holds state.store.registry app.1 app.2

lemma Agree.used (agree : Agree state) {entry : CacheEntry} (member : entry ∈ state.cache)
    (active : entry.active) :
    ∃ record ∈ state.records, record.id = entry.appId ∧ record.system = false := by
  obtain ⟨_, origin, _⟩ := agree.cached entry member active
  obtain ⟨_, _, held⟩ := agree.present _ origin
  exact ⟨_, held, rfl, rfl⟩

lemma Agree.freshId (agree : Agree state)
    (free : state.store.registry.find state.store.registry.nextId = none) : FreshId state := by
  refine ⟨free, fun entry member active same => ?_⟩
  obtain ⟨_, held, named, _⟩ := agree.used member active
  have found := find_some_of_mem held
  rw [named, same, free] at found
  cases found

lemma Holds.uninstall {table : AppTable} {id appId : Nat} {bundle : Bundle}
    (holds : Holds table id bundle) (distinct : AppTable.Distinct table) (other : id ≠ appId) :
    Holds (table.uninstall appId).1 id bundle := by
  obtain ⟨hdr, parsed, held⟩ := holds
  refine ⟨hdr, parsed, (mem_uninstall_iff distinct).2 ⟨held, fun same => ?_⟩⟩
  exact absurd same other

lemma mem_origins_uninstall {appId : Nat} {app : Nat × Bundle}
    (member : app ∈ (state.uninstall env appId).1.origins) :
    app ∈ state.origins := by
  simp only [State.uninstall] at member
  split at member
  · exact (mem_filter.1 member).1
  · exact member

lemma origins_uninstall_of_ne {appId : Nat} {app : Nat × Bundle} (member : app ∈ state.origins)
    (other : app.1 ≠ appId) : app ∈ (state.uninstall env appId).1.origins := by
  simp only [State.uninstall]
  split
  · exact mem_filter.2 ⟨member, by simpa using other⟩
  · exact member

lemma origins_uninstall_gone (distinct : AppTable.Distinct state.store.registry) {appId : Nat}
    {record : AppRecord} (held : record ∈ state.records) (named : record.id = appId)
    (user : record.system = false) :
    ∀ app ∈ (state.uninstall env appId).1.origins, app.1 ≠ appId := by
  have removed : (state.store.uninstall appId env.afterRemove).2 := by
    rw [(registry_uninstall state.store appId env.afterRemove).2]
    have found := find_some_of_mem held
    obtain ⟨_, here⟩ := isSome_iff_exists.1 found
    obtain ⟨member, same⟩ := find_mem here
    rw [distinct.eq_of_id member held same, named] at here
    simp [AppTable.uninstall, AppTable.remove, here, user]
  simp only [State.uninstall, removed, if_true]
  intro app member
  simpa using (mem_filter.1 member).2

section

variable (agree : Agree state)
include agree

lemma Agree.uninstall {appId : Nat}
    (uncached : ∀ entry ∈ state.cache, entry.active → entry.appId ≠ appId) :
    Agree (state.uninstall env appId).1 := by
  have other : ∀ app ∈ state.origins, app.1 ≠ appId := by
    intro app member
    obtain ⟨entry, held, active, named, _⟩ := agree.tracked app member
    exact named ▸ uncached entry held active
  have registry := @registry_stateUninstall state env appId
  refine ⟨?_, agree.listed, agree.apps, agree.hashes, agree.width, ?_, ?_, ?_⟩
  · rw [registry]
    exact uninstall_distinct agree.registry appId
  · intro entry member active
    obtain ⟨bundle, origin, same⟩ := agree.cached entry member active
    exact ⟨bundle, origins_uninstall_of_ne origin (other _ origin), same⟩
  · exact fun app member => agree.tracked app (mem_origins_uninstall member)
  intro app member
  have before := mem_origins_uninstall member
  rw [registry]
  exact (agree.present app before).uninstall agree.registry (other app before)

lemma Agree.recache {next : State} {old new : CacheEntry}
    {rest : List CacheEntry} (replaced : Replaced state.cache next.cache old new rest)
    (registry : AppTable.Distinct next.store.registry) (catalog : next.catalog = state.catalog)
    (apps : ∀ entry ∈ rest, OtherApp new entry) (hashes : ∀ entry ∈ rest, OtherHash new entry)
    (width : new.active → new.hash.length = 32)
    (cached : new.active →
      ∃ bundle, (new.appId, bundle) ∈ next.origins ∧ Sha256.digest bundle = new.hash)
    (kept : ∀ app ∈ state.origins, (old.active → app.1 ≠ old.appId) → app ∈ next.origins)
    (only : ∀ app ∈ next.origins,
      (app ∈ state.origins ∧ (old.active → app.1 ≠ old.appId)) ∨
        new.active ∧ new.appId = app.1 ∧ new.hash = Sha256.digest app.2)
    (present : ∀ app ∈ next.origins, Holds next.store.registry app.1 app.2) : Agree next := by
  have apart := (replaced.pairwise agree.apps).1
  refine ⟨registry, catalog ▸ agree.listed, (replaced.pairwise agree.apps).2 apps,
    (replaced.pairwise agree.hashes).2 hashes, ?_, ?_, ?_, present⟩
  · intro entry member active
    rcases replaced.mem_cases member with rfl | left
    · exact width active
    · exact agree.width entry (replaced.rest_before left) active
  · intro entry member active
    rcases replaced.mem_cases member with rfl | left
    · exact cached active
    · obtain ⟨bundle, origin, same⟩ := agree.cached entry (replaced.rest_before left) active
      exact ⟨bundle, kept _ origin fun inUse => (apart entry left inUse active).symm, same⟩
  intro app member
  rcases only app member with ⟨before, other⟩ | ⟨active, named, same⟩
  · obtain ⟨entry, held, active, named, same⟩ := agree.tracked app before
    rcases mem_cons.1 (replaced.before.mem_iff.1 held) with rfl | left
    · exact absurd named.symm (other active)
    · exact ⟨entry, replaced.rest_after left, active, named, same⟩
  · exact ⟨new, replaced.new_mem, active, named, same⟩

lemma lookup_agree {cache : Cache} {hash : List UInt8} {appId : Nat}
    (hit : state.cache.lookup hash env.now = (cache, some appId)) : Agree { state with cache } := by
  obtain ⟨found, _, replaced, active, _⟩ := Cache.lookup_hit hit
  refine agree.recache replaced agree.registry rfl (replaced.pairwise agree.apps).1
    (replaced.pairwise agree.hashes).1 (agree.width found replaced.old_mem)
    (agree.cached found replaced.old_mem) (fun app member _ => member) ?_ agree.present
  intro app member
  by_cases same : app.1 = found.appId
  · obtain ⟨entry, held, inUse, named, content⟩ := agree.tracked app member
    rcases mem_cons.1 (replaced.before.mem_iff.1 held) with rfl | left
    · exact .inr ⟨active, named, content⟩
    · have apart := (replaced.pairwise agree.apps).1 entry left active inUse
      exact absurd (same.symm.trans named.symm) apart
  · exact .inl ⟨member, fun _ => same⟩

lemma pkgEvict_agree (appId : Nat) : Agree (state.pkgEvict env appId).1 := by
  simp only [pkgEvict]
  split
  · exact agree
  rename_i cache removed
  obtain ⟨found, _, replaced, active, rfl, _⟩ := Cache.remove_true removed
  obtain ⟨record, held, named, user⟩ := agree.used replaced.old_mem active
  have registry := @registry_stateUninstall { state with cache } env found.appId
  have gone := @origins_uninstall_gone { state with cache } env agree.registry found.appId record
    held named user
  have before : ∀ app ∈ ({ state with cache }.uninstall env found.appId).1.origins,
      app ∈ state.origins := fun app => @mem_origins_uninstall { state with cache } env _ app
  refine agree.recache replaced ?_ rfl (fun _ _ inUse => by cases inUse)
    (fun _ _ inUse => by cases inUse) (by rintro ⟨⟩) (by rintro ⟨⟩) ?_ ?_ ?_
  · rw [registry]
    exact uninstall_distinct agree.registry found.appId
  · exact fun app member other => origins_uninstall_of_ne member (other active)
  · exact fun app member => .inl ⟨before app member, fun _ => gone app member⟩
  intro app member
  rw [registry]
  exact (agree.present app (before app member)).uninstall agree.registry (gone app member)

lemma cacheInsert_agree {installed : State} {bundle : Bundle} {id : Nat}
    {hash : List UInt8} {pinned : Bool} (cache : installed.cache = state.cache)
    (catalog : installed.catalog = state.catalog)
    (origins : installed.origins = (id, bundle) :: state.origins)
    (registry : AppTable.Distinct installed.store.registry)
    (present : ∀ app ∈ installed.origins, Holds installed.store.registry app.1 app.2)
    (unused : ∀ entry ∈ state.cache, entry.active → id ≠ entry.appId)
    (unlike : ∀ entry ∈ state.cache, entry.active → hash ≠ entry.hash)
    (length : hash.length = 32) (content : Sha256.digest bundle = hash)
    (slot : ∃ entry ∈ state.cache, entry.active = false ∨ entry.pinned = false) :
    Agree (installed.cacheInsert env id hash pinned) ∧
      (id, bundle) ∈ (installed.cacheInsert env id hash pinned).origins := by
  have newest : (id, bundle) ∈ installed.origins := origins ▸ mem_cons_self
  have older : ∀ app ∈ state.origins, app ∈ installed.origins := fun app member =>
    origins ▸ mem_cons_of_mem _ member
  obtain ⟨next, old, rest, result, replaced, inactive⟩ |
    ⟨next, old, rest, result, replaced, active, _⟩ | ⟨_, full⟩ :=
    cacheInsert_cases installed env id hash pinned
  · rw [cache] at replaced
    rw [result]
    refine ⟨agree.recache replaced registry catalog ?_ ?_ (fun _ => length)
      (fun _ => ⟨bundle, newest, content⟩) (fun app member _ => older app member) ?_ present,
      newest⟩
    · exact fun entry member _ inUse => unused entry (replaced.rest_before member) inUse
    · exact fun entry member _ inUse => unlike entry (replaced.rest_before member) inUse
    intro app member
    rcases mem_cons.1 (origins ▸ member) with rfl | before
    · exact .inr ⟨rfl, rfl, content.symm⟩
    · exact .inl ⟨before, fun inUse => by rw [inactive] at inUse; cases inUse⟩
  · -- the least recently used package goes, and with it its origin
    rw [cache] at replaced
    rw [result]
    obtain ⟨_, origin, _⟩ := agree.cached old replaced.old_mem active
    obtain ⟨_, _, held⟩ := present _ (older _ origin)
    have gone := @origins_uninstall_gone installed env registry old.appId _ held rfl rfl
    have kept : (id, bundle) ∈ (installed.uninstall env old.appId).1.origins :=
      origins_uninstall_of_ne newest (unused old replaced.old_mem active)
    have table := @registry_stateUninstall installed env old.appId
    refine ⟨agree.recache replaced ?_ catalog ?_ ?_ (fun _ => length)
      (fun _ => ⟨bundle, kept, content⟩) ?_ ?_ ?_, kept⟩
    · rw [table]
      exact uninstall_distinct registry old.appId
    · exact fun entry member _ inUse => unused entry (replaced.rest_before member) inUse
    · exact fun entry member _ inUse => unlike entry (replaced.rest_before member) inUse
    · exact fun app member other => origins_uninstall_of_ne (older app member) (other active)
    · intro app member
      have before := mem_origins_uninstall member
      rcases mem_cons.1 (origins ▸ before) with rfl | earlier
      · exact .inr ⟨rfl, rfl, content.symm⟩
      · exact .inl ⟨earlier, fun _ => gone app member⟩
    intro app member
    rw [table]
    exact (present app (mem_origins_uninstall member)).uninstall registry (gone app member)
  obtain ⟨entry, member, spare⟩ := slot
  obtain ⟨inUse, isPinned⟩ := full entry (cache ▸ member)
  simp [inUse, isPinned] at spare

lemma resolve_agree {name : List UInt8} {net : Network}
    (free : state.store.registry.find state.store.registry.nextId = none)
    (slot : ∃ entry ∈ state.cache, entry.active = false ∨ entry.pinned = false) :
    Agree (state.resolve name net env).1 ∧
      ∀ manifest id, findManifest state.catalog name = some manifest →
        (state.resolve name net env).2 = some (.ok id) →
        ∃ bundle, Sha256.digest bundle = manifest.hash ∧
          (id, bundle) ∈ (state.resolve name net env).1.origins := by
  have fresh := agree.freshId free
  obtain ⟨result, same, failed⟩ | ⟨manifest, found, ⟨cache, id, hit, resolved⟩ |
    ⟨bundle, missed, fetched, verified, ⟨store, refused, resolved⟩ |
      ⟨store, id, installed, resolved⟩⟩⟩ := resolve_cases state name net env
  · rw [same]
    exact ⟨agree, fun _ id _ returned => absurd returned (failed id)⟩
  · rw [resolved]
    refine ⟨lookup_agree agree hit, fun other other' listed returned => ?_⟩
    obtain rfl := some.inj (found.symm.trans listed)
    obtain rfl := Except.ok.inj (some.inj returned)
    obtain ⟨entry, _, replaced, active, equal, rfl⟩ := Cache.lookup_hit hit
    obtain ⟨bundle, origin, content⟩ := agree.cached entry replaced.old_mem active
    refine ⟨bundle, content.trans ((hashEq_iff ?_ ?_).1 equal), origin⟩
    · exact agree.width entry replaced.old_mem active
    · exact agree.listed manifest (mem_of_find?_eq_some found)
  · rw [resolved]
    obtain ⟨kept, records⟩ := refused_spec agree.registry refused
    refine ⟨{ agree with registry := kept, present := fun app member => ?_ },
      fun _ id _ returned => nomatch returned⟩
    obtain ⟨hdr, parsed, held⟩ := agree.present app member
    exact ⟨hdr, parsed, records ▸ held⟩
  obtain ⟨rfl, distinct, hdr, parsed, gains⟩ := installed_spec agree.registry free installed
  have length := agree.listed manifest (mem_of_find?_eq_some found)
  have content := digest_of_hashEq fetched length verified
  obtain ⟨after, origin⟩ := @cacheInsert_agree state env agree
    { state with store, origins := (_, bundle) :: state.origins } bundle _ manifest.hash
    manifest.isSystem rfl rfl rfl distinct (by
      intro app member
      rcases mem_cons.1 member with rfl | before
      · exact ⟨hdr, parsed, gains.mem_iff.2 (.inl rfl)⟩
      · obtain ⟨header, parses, held⟩ := agree.present app before
        exact ⟨header, parses, gains.mem_iff.2 (.inr held)⟩)
    (fun entry member active => (fresh.2 entry member active).symm) (by
      intro entry member active same
      have differs := Cache.lookup_miss missed entry member active
      rw [(hashEq_iff (agree.width entry member active) length).2 same.symm] at differs
      cases differs) length content slot
  rw [resolved]
  refine ⟨after, fun other id listed returned => ?_⟩
  obtain rfl := some.inj (found.symm.trans listed)
  obtain rfl := Except.ok.inj (some.inj returned)
  exact ⟨bundle, content, origin⟩

lemma Agree.hit {hash : List UInt8} {id : Nat} {bundle : Bundle}
    (origin : (id, bundle) ∈ state.origins) (length : hash.length = 32)
    (content : Sha256.digest bundle = hash) :
    ∃ cache, state.cache.lookup hash env.now = (cache, some id) := by
  obtain ⟨entry, member, active, named, same⟩ := agree.tracked _ origin
  have equal : entry.hash = hash := same.trans content
  cases looked : state.cache.lookup hash env.now with
  | mk cache answer =>
    cases answer with
    | none =>
      have differs := Cache.lookup_miss (by rw [looked]) entry member active
      rw [(hashEq_iff (agree.width entry member active) length).2 equal] at differs
      cases differs
    | some other =>
      obtain ⟨found, _, replaced, inUse, alike, rfl⟩ := Cache.lookup_hit looked
      have width := agree.width found replaced.old_mem inUse
      rcases mem_cons.1 (replaced.before.mem_iff.1 member) with rfl | left
      · exact ⟨cache, by rw [named]⟩
      · have other := (replaced.pairwise agree.hashes).1 entry left inUse active
        exact absurd (((hashEq_iff width length).1 alike).trans equal.symm) other

end

lemma Holds.installedFrom {id : Nat} {bundle : Bundle} (origin : (id, bundle) ∈ state.origins)
    (holds : Holds state.store.registry id bundle) : InstalledFrom image state id bundle := by
  obtain ⟨_, parsed, held⟩ := holds
  refine ⟨_, held, rfl, ?_, by simpa [recordOf] using origin⟩
  simp [madeOf, parsed, recordOf]

lemma resolve_stable (agree : Agree state) {name : List UInt8} {net : Network}
    (careful : Careful image state (.resolve name net env)) :
    Stable image state (.resolve name net env) := by
  obtain ⟨free, slot, unlike⟩ := careful
  obtain ⟨after, returns⟩ := @resolve_agree state env agree name net free slot
  intro manifest found
  refine ⟨fun id returned => ?_, fun bundle id _ content installed => ?_⟩
  · obtain ⟨bundle, content, origin⟩ := returns manifest id found returned
    exact ⟨bundle, content, (after.present _ origin).installedFrom origin⟩
  obtain ⟨record, _, _, _, source⟩ := installed
  cases isSystem : record.system with
  | true =>
    simp only [isSystem, if_true] at source
    obtain ⟨app, shipped, rfl⟩ := source
    exact absurd content (unlike manifest found app shipped)
  | false =>
    simp only [isSystem] at source
    have length := agree.listed manifest (mem_of_find?_eq_some found)
    obtain ⟨_, hit⟩ := @Agree.hit state env agree _ _ _ source length content
    rw [resolve_hit found hit]

lemma appInstall_agree (agree : Agree state) (bundle : Bundle)
    (free : state.store.registry.find state.store.registry.nextId = none) :
    Agree (state.appInstall env bundle) := by
  cases result : state.store.install bundle env.afterPersist with
  | mk store answer =>
    have after : state.appInstall env bundle = { state with store } := by
      rw [appInstall, result]
    have kept : AppTable.Distinct store.registry ∧
        ∀ record ∈ state.records, record ∈ store.registry.records := by
      cases answer with
      | none =>
        obtain ⟨kept, records⟩ := refused_spec agree.registry result
        exact ⟨kept, fun record held => records ▸ held⟩
      | some id =>
        obtain ⟨_, kept, _, _, gains⟩ := installed_spec agree.registry free result
        exact ⟨kept, fun record held => gains.mem_iff.2 (.inr held)⟩
    rw [after]
    refine { agree with registry := kept.1, present := fun app member => ?_ }
    obtain ⟨hdr, parsed, held⟩ := agree.present app member
    exact ⟨hdr, parsed, kept.2 _ held⟩

lemma agree_boot (distinct : AppTable.Distinct store.registry) :
    Agree { store } := by
  have inactive : ∀ entry ∈ emptyCache, entry.active ≠ true := by decide
  refine ⟨distinct, nofun, (@pinned_boot store [] distinct).apps, ?_, ?_, ?_, nofun, nofun⟩
  · exact pairwise_iff_forall_sublist.2 fun sublist active =>
      absurd active (inactive _ (sublist.subset mem_cons_self))
  all_goals exact fun entry member active => absurd active (inactive entry member)

lemma call_agree (agree : Agree state) (call : Call) (careful : Careful image state call) :
    Agree (state.call crypto image call) := by
  cases call with
  | resolve name net env => exact (resolve_agree agree careful.1 careful.2.1).1
  | pkgSetServer ip port net =>
    obtain same | ⟨_, _, entries, _, parsed, replaced⟩ := refreshCatalog_cases crypto
      { state with server := ⟨ip % 2 ^ 32, port % 2 ^ 16⟩ } net
    · simp only [State.call, same]
      exact { agree with }
    simp only [State.call, replaced]
    exact { agree with listed := hash_parseCatalog parsed }
  | pkgEvict appId env => exact pkgEvict_agree agree _
  | appInstall bundle env => exact appInstall_agree agree bundle careful
  | appUninstall appId env => exact agree.uninstall careful
  | blkWrite sector data =>
    exact { agree with }
  | reboot =>
    have none : state.origins = [] := careful
    have start : state.call crypto image .reboot =
        { store := state.store.step image .reboot } := by
      simp [State.call, none]
    rw [start]
    exact agree_boot (boot_distinct ..)

lemma registry_sampleResolved {pinned : Bool}
    (resolved : (sampleListed pinned).resolve [65] (sampleNet pinned) {} =
      (sampleResolved store pinned, some (.ok 1))) :
    store.registry = (AppTable.install {} samplePackage).1 := by
  obtain ⟨other, registry, same⟩ := resolve_sampleListed pinned
  have states : sampleResolved store pinned = sampleResolved other pinned :=
    congrArg Prod.fst (resolved.symm.trans same)
  have stores : store = other := congrArg State.store states
  rw [stores]
  exact registry

lemma find_sampleManifest (pinned : Bool) :
    findManifest [sampleManifest pinned] [65] = some (sampleManifest pinned) := by
  cases pinned with
  | false => decide +kernel
  | true => decide +kernel

/-- What the cache offers is installed, with the content the hash was taken of. -/
theorem cache_backed (reached : (system crypto image).Reachable (Careful image) state) :
    ∀ entry ∈ state.cache, entry.active = true →
      ∃ bundle, Sha256.digest bundle = entry.hash ∧
        Holds state.store.registry entry.appId bundle := by
  have agree : Agree state := by
    refine reached.invariant ?_ ?_
    · rintro _ ⟨_, rfl⟩
      exact agree_boot (boot_distinct ..)
    · rintro _ call _ agree careful ⟨⟩
      exact call_agree agree call careful
  intro entry member active
  obtain ⟨bundle, origin, hash⟩ := agree.cached entry member active
  exact ⟨bundle, hash, agree.present _ origin⟩

theorem resolved_backed : ∃ state, (system trusting {}).Reachable (Careful {}) state ∧
    ∃ entry ∈ state.cache, entry.active = true ∧ ∃ bundle, Sha256.digest bundle = entry.hash ∧
      Holds state.store.registry entry.appId bundle := by
  obtain ⟨store, _, resolved⟩ := resolve_sampleListed false
  have listed : (system trusting {}).Reachable (Careful {}) (sampleListed false) :=
    .step (.start ⟨AppStore.blankDisk, rfl⟩)
      (show Careful {} _ (sampleRefresh false) from trivial)
      (congrArg some (call_sampleRefresh false))
  have careful : Careful {} (sampleListed false) (sampleResolve false) :=
    ⟨(freshId_sampleListed false).1, ⟨{}, mem_cons_self, .inl rfl⟩, nofun⟩
  have reached := listed.step careful rfl
  rw [sampleResolve, call_resolve, resolved] at reached
  exact ⟨_, reached, _, mem_cons_self, rfl, cache_backed reached _ mem_cons_self rfl⟩

end OsCortex.Pkg
