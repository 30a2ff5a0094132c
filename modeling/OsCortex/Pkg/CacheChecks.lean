import OsCortex.Pkg.ResolverChecks
import OsCortex.Store.SystemAppChecks

/-!
The cache of packages and the registry. An app pinned in the cache stays installed unless
`app_uninstall` names it: the registry does not know about pins.
-/

namespace OsCortex.Pkg

open Bytes AppRegistry Scan List Option State AppStore AppTable

variable {crypto : Ed25519} {image : AppTable.Image} {state : State} {env : Env}
  {bundle : Bundle} {after : Nat → Nat}

def OtherApp (first second : CacheEntry) : Prop :=
  first.active = true → second.active = true → first.appId ≠ second.appId

instance : Std.Symm OtherApp := ⟨fun _ _ other one two => (other two one).symm⟩

def OtherHash (first second : CacheEntry) : Prop :=
  first.active = true → second.active = true → first.hash ≠ second.hash

instance : Std.Symm OtherHash := ⟨fun _ _ other one two => (other two one).symm⟩

namespace Cache

variable {cache next : Cache} {entry : CacheEntry} {hash : List UInt8} {appId now : Nat}

lemma lookup_hit (hit : cache.lookup hash now = (next, some appId)) :
    ∃ found rest, Replaced cache next found { found with lastUsed := now } rest ∧
      found.active ∧ hashEq found.hash hash ∧ found.appId = appId := by
  simp only [lookup] at hit
  split at hit
  · rename_i found _ updated
    obtain ⟨rfl, same⟩ := Prod.mk.inj hit
    obtain ⟨rest, replaced⟩ := updateFirst_replaced updated
    obtain ⟨active, equal⟩ := Bool.and_eq_true_iff.1 (updateFirst_some updated).1
    exact ⟨found, rest, replaced, active, equal, some.inj same⟩
  · cases hit

lemma lookup_miss (missed : (cache.lookup hash now).2 = none) :
    ∀ entry ∈ cache, entry.active → hashEq entry.hash hash = false := by
  simp only [lookup] at missed
  split at missed
  · cases missed
  rename_i none
  intro entry member active
  have skipped := updateFirst_none none entry member
  rw [active] at skipped
  simpa using skipped

lemma victim_spec {old : CacheEntry} {slot : Nat} (chosen : cache.victim = some (old, slot)) :
    cache[slot]? = some old ∧ old.active ∧ old.pinned = false ∧
      ∀ other ∈ cache, other.active → other.pinned = false → old.lastUsed ≤ other.lastUsed := by
  have member := argmin_mem chosen
  obtain ⟨listed, eligible⟩ := mem_filter.1 member
  have place := mem_zipIdx_iff_getElem?.1 listed
  obtain ⟨active, unpinned⟩ := Bool.and_eq_true_iff.1 eligible
  refine ⟨place, active, by simpa using unpinned, fun other inside inUse free => ?_⟩
  obtain ⟨index, below, rfl⟩ := mem_iff_getElem.1 inside
  have here : (cache[index], index) ∈ cache.zipIdx.filter fun slot =>
      slot.1.active && !slot.1.pinned := by
    simp [mem_zipIdx_iff_getElem?, below, inUse, free]
  exact le_of_mem_argmin (f := fun slot : CacheEntry × Nat => slot.1.lastUsed) here chosen

lemma victim_none (none : cache.victim = none) : ∀ entry ∈ cache, entry.active → entry.pinned := by
  intro entry member active
  by_contra unpinned
  obtain ⟨slot, inside, here⟩ := mem_iff_getElem.1 member
  have empty := filter_eq_nil_iff.1 (argmin_eq_none.1 none) (entry, slot)
    (mem_zipIdx_iff_getElem?.2 (by simp [inside, here]))
  simp [active, unpinned] at empty

lemma insert_cases (cache : Cache) (entry : CacheEntry) :
    (∃ next old rest, cache.insert entry = (next, none, true) ∧
        Replaced cache next old entry rest ∧ old.active = false) ∨
    (∃ next old rest, cache.insert entry = (next, some old.appId, true) ∧
        Replaced cache next old entry rest ∧ old.active ∧ old.pinned = false ∧
        ∀ other ∈ cache, other.active ∧ (other.pinned = false → old.lastUsed ≤ other.lastUsed)) ∨
    cache.insert entry = (cache, none, false) ∧ ∀ other ∈ cache, other.active ∧ other.pinned := by
  simp only [insert]
  split
  · rename_i found filled updated
    obtain ⟨rest, replaced⟩ := updateFirst_replaced updated
    have inactive := (updateFirst_some updated).1
    exact .inl ⟨filled, found, rest, rfl, replaced, by simpa using inactive⟩
  rename_i skipped
  have full : ∀ other ∈ cache, other.active := fun other member => by
    simpa using updateFirst_none skipped other member
  split
  · rename_i old _ chosen
    obtain ⟨place, active, unpinned, oldest⟩ := victim_spec chosen
    obtain ⟨rest, replaced⟩ := set_replaced entry place
    refine .inr (.inl ⟨_, old, rest, rfl, replaced, active, unpinned, fun other member => ?_⟩)
    exact ⟨full other member, oldest other member (full other member)⟩
  rename_i none
  refine .inr (.inr ⟨rfl, fun other member => ?_⟩)
  exact ⟨full other member, victim_none none other member (full other member)⟩

lemma remove_true (removed : cache.remove appId = (next, true)) :
    ∃ found rest, Replaced cache next found { found with active := false } rest ∧
      found.active ∧ found.appId = appId ∧ found.pinned = false := by
  simp only [remove] at removed
  split at removed
  · rename_i found _ updated
    split at removed
    · cases removed
    rename_i unpinned
    obtain ⟨rfl, _⟩ := Prod.mk.inj removed
    obtain ⟨rest, replaced⟩ := updateFirst_replaced updated
    obtain ⟨active, same⟩ := Bool.and_eq_true_iff.1 (updateFirst_some updated).1
    exact ⟨found, rest, replaced, active, by simpa using same, by simpa using unpinned⟩
  · cases removed

lemma remove_false (kept : cache.remove appId = (next, false)) : next = cache := by
  simp only [remove] at kept
  split at kept
  · split at kept <;> cases kept
    rfl
  · cases kept
    rfl

end Cache

/-! Runs of calls on the cache alone. -/

inductive CacheOp where
  | lookup (hash : List UInt8)
  | insert (appId : Nat) (hash : List UInt8) (pinned : Bool)
  | touch (appId : Nat)
  | remove (appId : Nat)

/-- The cache after a call, and the hash of the entry that the call uses. -/
def CacheOp.apply (cache : Cache) (now : Nat) : CacheOp → Cache × Option (List UInt8)
  | .lookup hash => ((cache.lookup hash now).1,
      (cache.find? fun entry => entry.active && hashEq entry.hash hash).map (·.hash))
  | .insert appId hash pinned =>
    let result := cache.insert { active := true, appId, hash, lastUsed := now, pinned }
    (result.1, if result.2.2 then some hash else none)
  | .touch appId => (cache.touch appId now,
      (cache.find? fun entry => entry.active && entry.appId == appId).map (·.hash))
  | .remove appId => ((cache.remove appId).1, none)

structure Aged where
  cache : Cache
  lastUse : List UInt8 → Nat

def cacheRuns : Runs.Machine Aged (CacheOp × Nat) where
  start aged := aged.cache = emptyCache
  step aged label :=
    let result := label.1.apply aged.cache label.2
    some ⟨result.1, match result.2 with
      | some hash => Function.update aged.lastUse hash label.2
      | none => aged.lastUse⟩

def AfterMiss (aged : Aged) (label : CacheOp × Nat) : Prop :=
  ∀ id hash pinned, label.1 = .insert id hash pinned → (aged.cache.lookup hash label.2).2 = none

structure Aged.Sound (aged : Aged) : Prop where
  slots : aged.cache.length = maxCached
  hashes : aged.cache.Pairwise OtherHash
  stamps : ∀ entry ∈ aged.cache, entry.active = true → entry.lastUsed = aged.lastUse entry.hash

lemma updateFirst_stamp (hit : CacheEntry → Bool) (cache : Cache) (now : Nat) :
    (updateFirst hit (fun entry => { entry with lastUsed := now }) cache = none ∧
      cache.find? hit = none) ∨
    ∃ next found rest, updateFirst hit (fun entry => { entry with lastUsed := now }) cache =
        some (found, next) ∧ cache.find? hit = some found ∧ hit found ∧
      Replaced cache next found { found with lastUsed := now } rest := by
  cases updated : updateFirst hit (fun entry => { entry with lastUsed := now }) cache with
  | none => exact .inl ⟨rfl, find?_eq_none.2 fun entry member => by
      simp [updateFirst_none updated entry member]⟩
  | some result =>
    obtain ⟨rest, replaced⟩ := updateFirst_replaced updated
    exact .inr ⟨result.2, result.1, rest, rfl, find?_hit updated, (updateFirst_some updated).1,
      replaced⟩

lemma apply_cases (op : CacheOp) (cache : Cache) (now : Nat) : op.apply cache now = (cache, none) ∨
    ∃ next old new rest, Replaced cache next old new rest ∧
      (op.apply cache now = (next, some new.hash) ∧ new.active ∧ new.lastUsed = now ∧
          (old.active ∧ new = { old with lastUsed := now } ∨
            (old.active → old.pinned = false) ∧ ∃ id pinned, op = .insert id new.hash pinned) ∨
        op.apply cache now = (next, none) ∧ new.active = false ∧ old.pinned = false) := by
  cases op with
  | lookup hash =>
    simp only [CacheOp.apply, Cache.lookup]
    obtain ⟨missed, none⟩ | ⟨next, found, rest, updated, first, hits, replaced⟩ :=
      updateFirst_stamp (fun entry => entry.active && hashEq entry.hash hash) cache now
    · exact .inl (by rw [missed, none]; rfl)
    have active := (Bool.and_eq_true_iff.1 hits).1
    exact .inr ⟨next, found, _, rest, replaced, .inl ⟨by rw [updated, first]; rfl, active, rfl,
      .inl ⟨active, rfl⟩⟩⟩
  | touch appId =>
    simp only [CacheOp.apply, Cache.touch]
    obtain ⟨missed, none⟩ | ⟨next, found, rest, updated, first, hits, replaced⟩ :=
      updateFirst_stamp (fun entry => entry.active && entry.appId == appId) cache now
    · exact .inl (by rw [missed, none]; rfl)
    have active := (Bool.and_eq_true_iff.1 hits).1
    exact .inr ⟨next, found, _, rest, replaced, .inl ⟨by rw [updated, first]; rfl, active, rfl,
      .inl ⟨active, rfl⟩⟩⟩
  | insert appId hash pinned =>
    simp only [CacheOp.apply]
    obtain ⟨next, old, rest, inserted, replaced, inactive⟩ |
      ⟨next, old, rest, inserted, replaced, _, unpinned, _⟩ | ⟨inserted, _⟩ :=
      Cache.insert_cases cache { active := true, appId, hash, lastUsed := now, pinned }
    · refine .inr ⟨next, old, _, rest, replaced, .inl ⟨by rw [inserted]; rfl, rfl, rfl, .inr ?_⟩⟩
      exact ⟨fun active => by simp [inactive] at active, appId, pinned, rfl⟩
    · refine .inr ⟨next, old, _, rest, replaced, .inl ⟨by rw [inserted]; rfl, rfl, rfl, .inr ?_⟩⟩
      exact ⟨fun _ => unpinned, appId, pinned, rfl⟩
    · exact .inl (by rw [inserted]; rfl)
  | remove appId =>
    simp only [CacheOp.apply]
    rcases removal : cache.remove appId with ⟨next, _ | _⟩
    · rw [Cache.remove_false removal]
      exact .inl rfl
    obtain ⟨found, rest, replaced, _, _, unpinned⟩ := Cache.remove_true removal
    exact .inr ⟨next, found, _, rest, replaced, .inr ⟨rfl, rfl, unpinned⟩⟩

lemma Aged.Sound.step {aged next : Aged} {label : CacheOp × Nat} (sound : aged.Sound)
    (missed : AfterMiss aged label) (taken : cacheRuns.step aged label = some next) :
    next.Sound := by
  cases taken
  obtain same | ⟨cache, old, new, rest, replaced,
      ⟨result, active, stamp, use⟩ | ⟨result, gone, _⟩⟩ := apply_cases label.1 aged.cache label.2
  · rw [same]
    exact sound
  all_goals
    rw [result]
    have slots : cache.length = maxCached :=
      (replaced.after.length_eq.trans replaced.before.length_eq.symm).trans sound.slots
    have apart := replaced.pairwise sound.hashes
  · have others : ∀ entry ∈ rest, OtherHash new entry := by
      intro entry member _ inUse same
      obtain ⟨before, rfl⟩ | ⟨_, _, _, inserted⟩ := use
      · exact apart.1 entry member before inUse same
      have other := Cache.lookup_miss (missed _ _ _ inserted) entry (replaced.rest_before member)
        inUse
      rw [← same, hashEq_self] at other
      cases other
    refine ⟨slots, apart.2 others, fun entry member inUse => ?_⟩
    rcases replaced.mem_cases member with rfl | kept
    · simp [stamp]
    · have other := (others entry kept active inUse).symm
      simpa [Function.update_of_ne other] using sound.stamps entry (replaced.rest_before kept) inUse
  · refine ⟨slots, apart.2 fun _ _ active => ?_, fun entry member active => ?_⟩
    · rw [gone] at active
      cases active
    rcases replaced.mem_cases member with rfl | kept
    · rw [gone] at active
      cases active
    · exact sound.stamps entry (replaced.rest_before kept) active

lemma Aged.Sound.of_reachable {aged : Aged} (reached : cacheRuns.Reachable AfterMiss aged) :
    aged.Sound := by
  refine reached.invariant (fun aged begun => ?_) fun _ _ _ sound missed => sound.step missed
  have inactive : ∀ entry ∈ aged.cache, entry.active ≠ true := by
    rw [begun]
    decide
  refine ⟨by rw [begun]; rfl, pairwise_iff_forall_sublist.2 fun sublist active => ?_,
    fun entry member active => absurd active (inactive entry member)⟩
  exact absurd active (inactive _ (sublist.subset mem_cons_self))

/-- A full cache gives up the entry that was used least recently, unless all are pinned. -/
theorem cache_evicts_oldest {aged : Aged} (reached : cacheRuns.Reachable AfterMiss aged) :
    aged.cache.length = 16 ∧ aged.cache.Pairwise OtherHash ∧
    (∀ (op : CacheOp) (now : Nat), ∀ entry ∈ aged.cache, entry.active → entry.pinned →
      ∃ kept ∈ (op.apply aged.cache now).1, { kept with lastUsed := entry.lastUsed } = entry) ∧
    ∀ entry, let (next, evicted, ok) := aged.cache.insert entry
      (ok = false ↔ ∀ other ∈ aged.cache, other.active ∧ other.pinned) ∧
      (evicted = none → ok → ∃ other ∈ aged.cache, other.active = false) ∧
      ∀ appId, evicted = some appId → (∀ other ∈ aged.cache, other.active) ∧
        ∃ old rest, Replaced aged.cache next old entry rest ∧ old.appId = appId ∧
          old.pinned = false ∧ ∀ other ∈ aged.cache, other.pinned = false →
            aged.lastUse old.hash ≤ aged.lastUse other.hash := by
  have sound := Aged.Sound.of_reachable reached
  refine ⟨sound.slots, sound.hashes, fun op now entry member active isPinned => ?_, fun entry => ?_⟩
  · obtain same | ⟨cache, old, new, rest, replaced, change⟩ := apply_cases op aged.cache now
    · exact ⟨entry, by rw [same]; exact member, rfl⟩
    rcases mem_cons.1 (replaced.before.mem_iff.1 member) with rfl | kept
    · obtain ⟨result, _, _, ⟨_, rfl⟩ | ⟨unpinned, _⟩⟩ | ⟨_, _, unpinned⟩ := change
      · exact ⟨{ entry with lastUsed := now }, by rw [result]; exact replaced.new_mem, rfl⟩
      · simp [unpinned active] at isPinned
      · simp [unpinned] at isPinned
    · refine ⟨entry, ?_, rfl⟩
      obtain ⟨result, _⟩ | ⟨result, _⟩ := change
      all_goals
        rw [result]
        exact replaced.rest_after kept
  · obtain ⟨next, old, rest, inserted, replaced, inactive⟩ |
      ⟨next, old, rest, inserted, replaced, active, unpinned, oldest⟩ | ⟨inserted, all⟩ :=
      Cache.insert_cases aged.cache entry
    all_goals rw [inserted]
    · refine ⟨⟨by simp, fun all => ?_⟩, fun _ _ => ⟨old, replaced.old_mem, inactive⟩, by simp⟩
      rw [(all old replaced.old_mem).1] at inactive
      cases inactive
    · refine ⟨⟨by simp, fun all => ?_⟩, by simp, fun appId same => ?_⟩
      · rw [(all old replaced.old_mem).2] at unpinned
        cases unpinned
      refine ⟨fun other member => (oldest other member).1, old, rest, replaced, some.inj same,
        unpinned, fun other member free => ?_⟩
      rw [← sound.stamps old replaced.old_mem active,
        ← sound.stamps other member (oldest other member).1]
      exact (oldest other member).2 free
    · exact ⟨⟨fun _ => all, fun _ => rfl⟩, by simp, by simp⟩

theorem removal_refused :
    ∃ kept ∈ ((CacheOp.remove 7).apply ((CacheOp.insert 7 [] true).apply emptyCache 1).1 2).1,
      kept.appId = 7 := by
  let empty : Aged := ⟨emptyCache, fun _ => 0⟩
  have begun : cacheRuns.Reachable AfterMiss empty := .start rfl
  have missed : AfterMiss empty (.insert 7 [] true, 1) := by
    rintro _ _ _ ⟨⟩
    rfl
  obtain ⟨kept, member, same⟩ := (cache_evicts_oldest (begun.step missed rfl)).2.2.1 (.remove 7) 2
    ⟨true, 7, [], 1, true⟩ mem_cons_self rfl rfl
  exact ⟨kept, member, congrArg CacheEntry.appId same⟩

lemma registry_stateUninstall (appId : Nat) :
    (state.uninstall env appId).1.store.registry = (state.store.registry.uninstall appId).1 :=
  (registry_uninstall state.store appId env.afterRemove).1

lemma installed_spec {store next : AppStore.State} {id : Nat}
    (distinct : AppTable.Distinct store.registry)
    (free : store.registry.find store.registry.nextId = none)
    (installed : store.install bundle after = (next, some id)) :
    id = store.registry.nextId ∧ AppTable.Distinct next.registry ∧
      ∃ hdr, parseHeader bundle = some hdr ∧
        AppTable.Gains store.registry next.registry (recordOf bundle hdr id false) := by
  obtain ⟨registry, result⟩ := registry_install store bundle after
  rw [installed] at registry result
  cases accepted : store.registry.accepts bundle with
  | false =>
    rw [(AppTable.install_rejected accepted).2.1] at result
    cases result
  | true =>
    obtain ⟨hdr, parsed, freeName, returned, insertion⟩ := AppTable.install_accepted accepted
    obtain rfl : id = store.registry.nextId := some.inj (result.trans returned)
    have fresh : Fresh store.registry
        (recordOf bundle hdr store.registry.nextId false) := by
      refine fresh_iff.2 ⟨?_, freeName⟩
      rw [free]
      rfl
    obtain ⟨kept, gains⟩ := distinct.advance.insert insertion fresh
    rw [← registry] at kept gains
    exact ⟨rfl, kept, hdr, parsed, fresh, gains.perm⟩

lemma refused_spec {store next : AppStore.State} (distinct : AppTable.Distinct store.registry)
    (refused : store.install bundle after = (next, none)) :
    AppTable.Distinct next.registry ∧ next.registry.records = store.registry.records := by
  obtain ⟨registry, result⟩ := registry_install store bundle after
  rw [refused] at registry result
  cases accepted : store.registry.accepts bundle with
  | false =>
    obtain ⟨records, _, rest⟩ := AppTable.install_rejected accepted
    rw [registry]
    refine ⟨?_, records⟩
    rcases rest with unchanged | moved
    · rw [unchanged]
      exact distinct
    · rw [moved]
      exact distinct.advance
  | true =>
    obtain ⟨_, _, _, returned, _⟩ := AppTable.install_accepted accepted
    cases result.trans returned

def FreshId (state : State) : Prop :=
  state.store.registry.find state.store.registry.nextId = none ∧
    ∀ entry ∈ state.cache, entry.active = true → entry.appId ≠ state.store.registry.nextId

lemma cacheInsert_cases (state : State) (env : Env) (appId : Nat) (hash : List UInt8)
    (pinned : Bool) :
    let entry : CacheEntry := { active := true, appId, hash, lastUsed := env.now, pinned }
    (∃ cache old rest, state.cacheInsert env appId hash pinned = { state with cache } ∧
        Replaced state.cache cache old entry rest ∧ old.active = false) ∨
    (∃ cache old rest, state.cacheInsert env appId hash pinned =
          { (state.uninstall env old.appId).1 with cache } ∧
        Replaced state.cache cache old entry rest ∧ old.active ∧ old.pinned = false) ∨
    state.cacheInsert env appId hash pinned = state ∧
      ∀ other ∈ state.cache, other.active ∧ other.pinned := by
  intro entry
  simp only [cacheInsert]
  obtain ⟨next, old, rest, inserted, replaced, inactive⟩ |
    ⟨next, old, rest, inserted, replaced, active, unpinned, _⟩ | ⟨inserted, all⟩ :=
    Cache.insert_cases state.cache entry
  · exact .inl ⟨next, old, rest, by rw [inserted], replaced, inactive⟩
  · exact .inr (.inl ⟨next, old, rest, by rw [inserted], replaced, active, unpinned⟩)
  · exact .inr (.inr ⟨by rw [inserted], all⟩)

structure Pinned (state : State) : Prop where
  registry : AppTable.Distinct state.store.registry
  apps : state.cache.Pairwise OtherApp
  installed : ∀ entry ∈ state.cache, entry.active = true → entry.pinned = true →
    ∃ record ∈ state.records, record.id = entry.appId ∧ record.system = false

/-- A call leaves the apps of pinned entries in the registry; a reboot is no call of a process. -/
def Keeps (crypto : Ed25519) (image : AppTable.Image) (state : State) (call : Call) : Prop :=
  match call with
  | .reboot => True
  | call => ∀ entry ∈ state.cache, entry.active = true → entry.pinned = true →
      ∀ record ∈ state.records, record.id = entry.appId →
        record ∈ (state.call crypto image call).records

def IdsFresh (state : State) : Call → Prop
  | .resolve _ _ _ => FreshId state
  | .appInstall _ _ => FreshId state
  | _ => True

def SparesPinned (state : State) : Call → Prop
  | .appUninstall appId _ => ∀ entry ∈ state.cache, entry.active = true → entry.pinned = true →
      entry.appId ≠ appId % 2 ^ 32
  | _ => True

section

variable (pinned : Pinned state) {cache : Cache} {rest : List CacheEntry} {hash : List UInt8}
include pinned

lemma Pinned.uninstall {appId : Nat}
    (spared : ∀ entry ∈ state.cache, entry.active → entry.pinned → entry.appId ≠ appId) :
    Pinned (state.uninstall env appId).1 ∧
      ∀ entry ∈ state.cache, entry.active → entry.pinned →
        ∀ record ∈ state.records, record.id = entry.appId →
          record ∈ (state.uninstall env appId).1.records := by
  have registry := @registry_stateUninstall state env appId
  have stays : ∀ entry ∈ state.cache, entry.active → entry.pinned →
      ∀ record ∈ state.records, record.id = entry.appId →
        record ∈ (state.uninstall env appId).1.records := by
    intro entry member active isPinned record held named
    rw [State.records, registry, AppTable.mem_uninstall_iff pinned.registry]
    exact ⟨held, fun same => absurd (named.symm.trans same) (spared entry member active isPinned)⟩
  refine ⟨⟨?_, pinned.apps, ?_⟩, stays⟩
  · rw [registry]
    exact uninstall_distinct pinned.registry appId
  intro entry member active isPinned
  obtain ⟨record, held, named, user⟩ := pinned.installed entry member active isPinned
  exact ⟨record, stays entry member active isPinned record held named, named, user⟩

lemma Pinned.recache {old new : CacheEntry} (replaced : Replaced state.cache cache old new rest)
    (apart : ∀ entry ∈ rest, OtherApp new entry) (present : new.active → new.pinned →
      ∃ record ∈ state.records, record.id = new.appId ∧ record.system = false) :
    Pinned { state with cache } := by
  refine ⟨pinned.registry, (replaced.pairwise pinned.apps).2 apart, ?_⟩
  intro entry member active isPinned
  rcases replaced.mem_cases member with rfl | kept
  · exact present active isPinned
  · exact pinned.installed entry (replaced.rest_before kept) active isPinned

lemma lookup_pinned {appId : Nat} (hit : state.cache.lookup hash env.now = (cache, some appId)) :
    Pinned { state with cache } := by
  obtain ⟨found, _, replaced, active, _⟩ := Cache.lookup_hit hit
  refine pinned.recache replaced (fun entry member => ?_) fun _ isPinned => ?_
  · exact (replaced.pairwise pinned.apps).1 entry member
  · exact pinned.installed found replaced.old_mem active isPinned

lemma Pinned.other_than {old new : CacheEntry}
    (replaced : Replaced state.cache cache old new rest)
    (active : old.active) (unpinned : old.pinned = false) :
    ∀ entry ∈ state.cache, entry.active → entry.pinned →
      entry ∈ rest ∧ entry.appId ≠ old.appId := by
  intro entry member inUse isPinned
  rcases mem_cons.1 (replaced.before.mem_iff.1 member) with rfl | kept
  · rw [unpinned] at isPinned
    cases isPinned
  · exact ⟨kept, ((replaced.pairwise pinned.apps).1 entry kept active inUse).symm⟩

lemma installed_pinned (fresh : FreshId state)
    {store : AppStore.State} {bundle : Bundle} {id : Nat} {after : Nat → Nat}
    {origins : List (Nat × Bundle)}
    (installed : state.store.install bundle after = (store, some id)) :
    Pinned { state with store, origins } ∧ id = state.store.registry.nextId ∧
      (∀ record ∈ state.records, record ∈ store.registry.records) ∧
      ∃ record ∈ store.registry.records, record.id = id ∧ record.system = false := by
  obtain ⟨numbered, kept, _, _, gains⟩ := installed_spec pinned.registry fresh.1 installed
  have mono : ∀ record ∈ state.records, record ∈ store.registry.records :=
    fun record member => gains.mem_iff.2 (.inr member)
  refine ⟨⟨kept, pinned.apps, ?_⟩, numbered, mono, _, gains.mem_iff.2 (.inl rfl), rfl, rfl⟩
  intro entry member active isPinned
  obtain ⟨record, held, named⟩ := pinned.installed entry member active isPinned
  exact ⟨record, mono record held, named⟩

lemma cacheInsert_pinned {id : Nat} {flag : Bool}
    (unused : ∀ entry ∈ state.cache, entry.active → entry.appId ≠ id)
    (present : ∃ record ∈ state.records, record.id = id ∧ record.system = false) :
    Pinned (state.cacheInsert env id hash flag) ∧
      ∀ entry ∈ state.cache, entry.active → entry.pinned →
        ∀ record ∈ state.records, record.id = entry.appId →
          record ∈ (state.cacheInsert env id hash flag).records := by
  obtain ⟨cache, old, rest, result, replaced, _⟩ |
    ⟨cache, old, rest, result, replaced, active, unpinned⟩ | ⟨result, _⟩ :=
    cacheInsert_cases state env id hash flag
  · rw [result]
    refine ⟨pinned.recache replaced (fun entry member _ inUse => ?_) fun _ _ => present,
      fun _ _ _ _ record held _ => held⟩
    exact (unused entry (replaced.rest_before member) inUse).symm
  · rw [result]
    have others := pinned.other_than replaced active unpinned
    obtain ⟨kept, stays⟩ := @Pinned.uninstall state env pinned old.appId
      fun entry member inUse isPinned => (others entry member inUse isPinned).2
    refine ⟨kept.recache replaced (fun entry member _ inUse => ?_) fun _ _ => ?_, stays⟩
    · exact (unused entry (replaced.rest_before member) inUse).symm
    obtain ⟨record, held, named, user⟩ := present
    refine ⟨record, ?_, named, user⟩
    rw [State.records, registry_stateUninstall, AppTable.mem_uninstall_iff pinned.registry]
    refine ⟨held, fun same => ?_⟩
    exact absurd (same.symm.trans named) (unused old replaced.old_mem active)
  · rw [result]
    exact ⟨pinned, fun _ _ _ _ record held _ => held⟩

lemma resolve_pinned (fresh : FreshId state) (name : List UInt8) (net : Network) :
    Pinned (state.resolve name net env).1 ∧ Keeps crypto image state (.resolve name net env) := by
  simp only [Keeps, State.call]
  obtain ⟨result, same, _⟩ | ⟨manifest, _, ⟨cache, id, hit, resolved⟩ |
    ⟨bundle, _, _, _, ⟨store, refused, resolved⟩ | ⟨store, id, installed, resolved⟩⟩⟩ :=
    resolve_cases state name net env
  · rw [same]
    exact ⟨pinned, fun _ _ _ _ record held _ => held⟩
  · rw [resolved]
    exact ⟨lookup_pinned pinned hit, fun _ _ _ _ record held _ => held⟩
  · rw [resolved]
    obtain ⟨kept, records⟩ := refused_spec pinned.registry refused
    refine ⟨⟨kept, pinned.apps, ?_⟩, fun _ _ _ _ record held _ => ?_⟩
    · intro entry member active isPinned
      rw [State.records, records]
      exact pinned.installed entry member active isPinned
    · rw [State.records, records]
      exact held
  rw [resolved]
  obtain ⟨after, rfl, mono, present⟩ := installed_pinned pinned fresh installed
  obtain ⟨kept, stays⟩ := cacheInsert_pinned after fresh.2 present
  refine ⟨kept, fun entry member active isPinned record held named => ?_⟩
  exact stays entry member active isPinned record (mono record held) named

lemma pkgEvict_pinned (appId : Nat) : Pinned (state.pkgEvict env appId).1 ∧
      ∀ entry ∈ state.cache, entry.active → entry.pinned →
        ∀ record ∈ state.records, record.id = entry.appId →
          record ∈ (state.pkgEvict env appId).1.records := by
  simp only [pkgEvict]
  split
  · exact ⟨pinned, fun _ _ _ _ record held _ => held⟩
  rename_i cache removed
  obtain ⟨found, _, replaced, active, rfl, unpinned⟩ := Cache.remove_true removed
  have cleared : Pinned { state with cache } :=
    pinned.recache replaced (fun _ _ inUse => by cases inUse) (by rintro ⟨⟩)
  have others := pinned.other_than replaced active unpinned
  obtain ⟨kept, stays⟩ := @Pinned.uninstall { state with cache } env cleared found.appId (by
    intro entry member inUse isPinned
    rcases replaced.mem_cases member with rfl | left
    · cases inUse
    · exact (others entry (replaced.rest_before left) inUse isPinned).2)
  refine ⟨kept, fun entry member inUse isPinned record held named => ?_⟩
  exact stays entry (replaced.rest_after (others entry member inUse isPinned).1) inUse isPinned
    record held named

lemma appInstall_pinned (fresh : FreshId state) (bundle : Bundle) :
    Pinned (state.appInstall env bundle) ∧
      ∀ record ∈ state.records, record ∈ (state.appInstall env bundle).records := by
  cases result : state.store.install bundle env.afterPersist with
  | mk store answer =>
    have after : state.appInstall env bundle = { state with store } := by
      rw [State.appInstall, result]
    rw [after]
    cases answer with
    | none =>
      obtain ⟨kept, records⟩ := refused_spec pinned.registry result
      refine ⟨⟨kept, pinned.apps, ?_⟩, fun record held => ?_⟩
      · intro entry member active isPinned
        rw [State.records, records]
        exact pinned.installed entry member active isPinned
      · rw [State.records, records]
        exact held
    | some id =>
      obtain ⟨kept, _, mono, _⟩ := @installed_pinned state pinned fresh store bundle id _
        state.origins result
      exact ⟨kept, mono⟩

lemma uninstall_loses {appId : Nat} {entry : CacheEntry}
    (member : entry ∈ state.cache) (active : entry.active) (isPinned : entry.pinned)
    (named : entry.appId = appId) :
    ∃ record ∈ state.records, record.id = entry.appId ∧
      record ∉ (state.uninstall env appId).1.records := by
  obtain ⟨record, held, numbered, user⟩ := pinned.installed entry member active isPinned
  refine ⟨record, held, numbered, fun stays => ?_⟩
  rw [State.records, registry_stateUninstall, AppTable.mem_uninstall_iff pinned.registry] at stays
  have isSystem := stays.2 (numbered.trans named)
  rw [user] at isSystem
  cases isSystem

end

lemma boot_distinct (image : AppTable.Image) (disk : AppStore.Disk)
    (owed : List (Nat × List UInt8)) :
    AppTable.Distinct (AppStore.boot image disk owed).registry := by
  exact (installSystemApps_filled (restored_spec disk).1 image).distinct

lemma pinned_boot {store : AppStore.State} {origins : List (Nat × Bundle)}
    (distinct : AppTable.Distinct store.registry) : Pinned { store, origins } := by
  have inactive : ∀ entry ∈ emptyCache, entry.active ≠ true := by decide
  refine ⟨distinct, ?_, fun entry member active => absurd active (inactive entry member)⟩
  exact pairwise_iff_forall_sublist.2 fun sublist active =>
    absurd active (inactive _ (sublist.subset mem_cons_self))

lemma call_pinned (pinned : Pinned state) (call : Call) (fresh : IdsFresh state call) :
    (SparesPinned state call → Pinned (state.call crypto image call)) ∧
      (Keeps crypto image state call ↔ SparesPinned state call) := by
  cases call with
  | resolve name net env =>
    obtain ⟨kept, keeps⟩ := @resolve_pinned crypto image state env pinned fresh name net
    exact ⟨fun _ => kept, fun _ => trivial, fun _ => keeps⟩
  | pkgSetServer ip port net =>
    obtain same | ⟨_, _, _, _, _, same⟩ := refreshCatalog_cases crypto
      { state with server := ⟨ip % 2 ^ 32, port % 2 ^ 16⟩ } net
    all_goals
      simp only [State.call, Keeps, same]
      exact ⟨fun _ => { pinned with }, fun _ => trivial,
        fun _ _ _ _ _ record held _ => held⟩
  | pkgEvict appId env =>
    obtain ⟨kept, stays⟩ := @pkgEvict_pinned state env pinned (appId % 2 ^ 32)
    exact ⟨fun _ => kept, fun _ => trivial, fun _ => stays⟩
  | appInstall bundle env =>
    obtain ⟨kept, mono⟩ := @appInstall_pinned state env pinned fresh bundle
    exact ⟨fun _ => kept, fun _ => trivial, fun _ _ _ _ _ record held _ => mono record held⟩
  | appUninstall appId env =>
    refine ⟨fun spared => (pinned.uninstall spared).1, fun keeps => ?_, fun spared =>
      (pinned.uninstall spared).2⟩
    intro entry member active isPinned named
    obtain ⟨record, held, numbered, gone⟩ :=
      @uninstall_loses state env pinned _ entry member active isPinned named
    exact gone (keeps entry member active isPinned record held numbered)
  | blkWrite sector data =>
    exact ⟨fun _ => { pinned with }, fun _ => trivial,
      fun _ _ _ _ _ record held _ => held⟩
  | reboot => exact ⟨fun _ => pinned_boot (boot_distinct ..), fun _ => trivial, fun _ => trivial⟩

/-- In a run in which `install` finds its counter unused, no call removes a pinned app exactly
if no `app_uninstall` names one. -/
theorem pinned_stay_iff (crypto : Ed25519) (image : AppTable.Image) (disk : AppStore.Disk)
    (calls : List Call) (fresh : (system crypto image).Obeys IdsFresh (boot image disk) calls) :
    (system crypto image).Obeys (Keeps crypto image) (boot image disk) calls ↔
      (system crypto image).Obeys SparesPinned (boot image disk) calls := by
  have exactly : ∀ state call, Pinned state → IdsFresh state call →
      (Keeps crypto image state call ↔ SparesPinned state call) :=
    fun state call pinned fresh => (call_pinned pinned call fresh).2
  refine Runs.Machine.obeys_iff exactly ?_ calls (pinned_boot (boot_distinct ..)) fresh
  intro state call next pinned fresh spared taken
  cases taken
  exact (call_pinned pinned call fresh).1 spared

def trusting : Ed25519 :=
  { verify := fun _ _ _ => true, Signed := fun _ _ _ => True, correct := fun _ _ _ => by simp }

def sampleHash : List UInt8 :=
  [0x67, 0xb3, 0xad, 0xf1, 0xbb, 0xca, 0xe3, 0x40, 0xd4, 0x65, 0x05, 0xc3, 0xe3, 0x75, 0xe3, 0x5d,
    0x98, 0x91, 0x2c, 0x1f, 0x75, 0x98, 0x84, 0x3b, 0x1a, 0xb4, 0x3c, 0x60, 0x83, 0x02, 0x08, 0x50]

def samplePackage : Bundle := AppTable.tinyBundle 65

lemma hash_samplePackage : hash samplePackage = sampleHash := by
  decide +kernel

def sampleManifest (pinned : Bool) : PkgManifest :=
  { name := 65 :: List.replicate 63 0
    version := List.replicate 16 0
    hash := sampleHash
    sizeBytes := 112
    flags := pinned.toNat }

def sampleCatalog (pinned : Bool) : List UInt8 :=
  leBytes 4 1 ++ (sampleManifest pinned).name ++ (sampleManifest pinned).version ++ sampleHash ++
    leBytes 4 112 ++ leBytes 4 pinned.toNat ++ List.replicate 8 0

lemma parse_sampleCatalog (pinned : Bool) :
    parseCatalog (sampleCatalog pinned) = some [sampleManifest pinned] := by
  cases pinned with
  | false => decide +kernel
  | true => decide +kernel

def answer (body : List UInt8) : Http.Exchange :=
  .answered [.data ("HTTP/1.1 200 OK\r\n\r\n".toUTF8.toList ++ body), .closed]

def sampleNet (pinned : Bool) : Network := fun _ path =>
  if path = "/catalog.bin" then answer (sampleCatalog pinned)
  else if path = "/catalog.sig" then answer (List.replicate 64 0)
  else answer samplePackage

lemma get_sample (pinned : Bool) :
    Http.get (sampleNet pinned {} "/catalog.bin") = some (.ok (sampleCatalog pinned)) ∧
      Http.get (sampleNet pinned {} "/catalog.sig") = some (.ok (replicate 64 0)) ∧
      Http.get (sampleNet pinned {} (packagePath sampleHash)) = some (.ok samplePackage) := by
  cases pinned with
  | false => decide +kernel
  | true => decide +kernel

def sampleRefresh (pinned : Bool) : Call := .pkgSetServer 0x0A000202 8080 (sampleNet pinned)

def sampleResolve (pinned : Bool) : Call := .resolve [65] (sampleNet pinned) {}

lemma no_bundles_listed : ([] : List AppRegistry.Bundle).length ≤ 32 * 1024 := by
  simp

def sampleListed (pinned : Bool) : State :=
  { boot { listed := no_bundles_listed } AppStore.blankDisk with
    catalog := [sampleManifest pinned] }

def sampleResolved (store : AppStore.State) (pinned : Bool) : State :=
  { store
    catalog := [sampleManifest pinned]
    cache := { active := true, appId := 1, hash := sampleHash, lastUsed := 0, pinned } ::
      List.replicate 15 {}
    origins := [(1, samplePackage)] }

lemma call_sampleRefresh (pinned : Bool) :
    (boot {} AppStore.blankDisk).call trusting {} (sampleRefresh pinned) = sampleListed pinned := by
  obtain ⟨body, sig, _⟩ := get_sample pinned
  have bodyFetched : fetch { boot {} AppStore.blankDisk with server := {} }
      (sampleNet pinned) "/catalog.bin" = some (.ok (sampleCatalog pinned)) := body
  have sigFetched : fetch { boot {} AppStore.blankDisk with server := {} }
      (sampleNet pinned) "/catalog.sig" = some (.ok (replicate 64 0)) := sig
  show (refreshCatalog trusting { boot {} AppStore.blankDisk with server := {} }
    (sampleNet pinned)).1 = _
  simp only [refreshCatalog, bodyFetched, sigFetched, parse_sampleCatalog]
  rfl

lemma registry_boot_blank : (boot {} AppStore.blankDisk).store.registry = {} := by
  show (AppStore.boot {} AppStore.blankDisk []).registry = {}
  rw [boot_registry, restored_blankDisk, installSystemApps_none]

lemma freshId_sampleListed (pinned : Bool) : FreshId (sampleListed pinned) := by
  have registry : (sampleListed pinned).store.registry = {} := registry_boot_blank
  refine ⟨by rw [registry]; rfl, fun entry member active => ?_⟩
  have inactive : ∀ entry ∈ emptyCache, entry.active ≠ true := by decide
  exact absurd active (inactive entry member)

lemma resolve_sampleListed (pinned : Bool) : ∃ store : AppStore.State,
    store.registry = (install {} samplePackage).1 ∧
    (sampleListed pinned).resolve [65] (sampleNet pinned) {} =
      (sampleResolved store pinned, some (.ok 1)) := by
  have registry : (sampleListed pinned).store.registry = {} := registry_boot_blank
  have found : findManifest (sampleListed pinned).catalog [65] = some (sampleManifest pinned) := by
    cases pinned with
    | false => decide +kernel
    | true => decide +kernel
  have missed : (sampleListed pinned).cache.lookup (sampleManifest pinned).hash 0 =
      (emptyCache, none) := rfl
  have fetched : (sampleListed pinned).fetch (sampleNet pinned)
      (packagePath (sampleManifest pinned).hash) = some (.ok samplePackage) :=
    (get_sample pinned).2.2
  have verified : hashEq (hash samplePackage) (sampleManifest pinned).hash := by
    rw [hash_samplePackage]
    exact (hashEq_iff rfl rfl).2 rfl
  obtain ⟨kept, result⟩ := registry_install (sampleListed pinned).store samplePackage fun _ => 0
  cases installed : (sampleListed pinned).store.install samplePackage fun _ => 0 with
  | mk store answer =>
    rw [installed, registry] at kept result
    obtain rfl : answer = some 1 := result.trans (by decide +kernel)
    have resolved := @resolve_new (sampleListed pinned) [65] (sampleNet pinned) {} _ _ _ _ _
      found missed fetched verified installed
    refine ⟨store, kept, resolved.trans ?_⟩
    cases pinned with
    | false => rfl
    | true => rfl

lemma records_sampleResolved {store : AppStore.State}
    (registry : store.registry = (install {} samplePackage).1) :
    store.registry.records.map (·.id) = [1] ∧ (store.registry.uninstall 1).1.records = [] := by
  rw [registry]
  decide +kernel

lemma obeys_sample {guard : State → Call → Prop} {pinned : Bool} {calls : List Call} :
    (system trusting {}).Obeys guard (boot {} AppStore.blankDisk)
        (sampleRefresh pinned :: sampleResolve pinned :: calls) ↔
      guard (boot {} AppStore.blankDisk) (sampleRefresh pinned) ∧
        guard (sampleListed pinned) (sampleResolve pinned) ∧
        ∀ store, (sampleListed pinned).resolve [65] (sampleNet pinned) {} =
            (sampleResolved store pinned, some (.ok 1)) →
          (system trusting {}).Obeys guard (sampleResolved store pinned) calls := by
  obtain ⟨store, _, resolved⟩ := resolve_sampleListed pinned
  have first := call_sampleRefresh pinned
  have second : (sampleListed pinned).call trusting {} (sampleResolve pinned) =
      sampleResolved store pinned := by rw [sampleResolve, call_resolve, resolved]
  simp only [Runs.Machine.Obeys, step_system, some.injEq, forall_eq', first, second]
  refine and_congr_right fun _ => and_congr_right fun _ => ⟨fun obeys other same => ?_, fun obeys =>
    obeys store resolved⟩
  have stores : sampleResolved other pinned = sampleResolved store pinned :=
    congrArg Prod.fst (same.symm.trans resolved)
  rw [stores]
  exact obeys

theorem pinned_stay_sample :
    (system trusting {}).Obeys (Keeps trusting {}) (boot {} AppStore.blankDisk)
      [sampleRefresh true, sampleResolve true, .appUninstall 2 {}] := by
  refine (pinned_stay_iff trusting {} AppStore.blankDisk _ ?_).2 ?_
  · exact obeys_sample.2 ⟨trivial, freshId_sampleListed true,
      fun _ _ => ⟨trivial, fun _ _ => trivial⟩⟩
  refine obeys_sample.2 ⟨trivial, trivial, fun store _ => ⟨?_, fun _ _ => trivial⟩⟩
  intro entry member active _
  rcases mem_cons.1 member with rfl | rest
  · exact (by decide : (1 : Nat) ≠ 2 % 2 ^ 32)
  · rw [eq_of_mem_replicate rest] at active
    cases active

theorem pinned_package_uninstalled :
    ¬ (system trusting {}).Obeys (Keeps trusting {}) (boot {} AppStore.blankDisk)
      [sampleRefresh true, sampleResolve true, .appUninstall 1 {}] := by
  intro obeys
  obtain ⟨store, registry, resolved⟩ := resolve_sampleListed true
  obtain ⟨ids, gone⟩ := records_sampleResolved registry
  have keeps := ((obeys_sample.1 obeys).2.2 store resolved).1
  obtain ⟨record, held, named⟩ : ∃ record ∈ store.registry.records, record.id = 1 := by
    have listed : 1 ∈ store.registry.records.map (·.id) := by
      rw [ids]
      exact mem_cons_self
    exact mem_map.1 listed
  have stays := keeps _ mem_cons_self rfl rfl record held named
  rw [call_appUninstall, State.records, registry_stateUninstall] at stays
  have none : record ∈ (store.registry.uninstall 1).1.records := stays
  rw [gone] at none
  cases none

end OsCortex.Pkg
