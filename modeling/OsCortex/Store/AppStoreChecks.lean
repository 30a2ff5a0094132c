import OsCortex.Store.CatalogChecks
import OsCortex.Store.RegistryChecks

/-!
What the store keeps of an installed app over a reboot: everything, unless its entry stands in the
first sector of the catalog, which the driver's self-test overwrites.
-/

namespace OsCortex.AppStore

open Bytes AppRegistry AppTable List Nat State

variable {image : Image} {state : State}

def Loads (disk : Disk) (entry : CatalogEntry) (record : AppRecord) : Prop :=
  ∃ hdr, parseHeader (bundleFromEntry disk entry) = some hdr ∧
    record = recordOf (bundleFromEntry disk entry) hdr entry.id false

variable {entry : CatalogEntry} {record : AppRecord} {hdr : BundleHeader}

lemma loads_iff {disk : Disk} (parsed : parseHeader (bundleFromEntry disk entry) = some hdr) :
    Loads disk entry record ↔ record = recordOf (bundleFromEntry disk entry) hdr entry.id false := by
  refine ⟨?_, fun same => ⟨hdr, parsed, same⟩⟩
  rintro ⟨_, parsedOther, same⟩
  rw [parsed] at parsedOther
  cases parsedOther
  exact same

lemma Loads.id {disk : Disk} (loads : Loads disk entry record) : record.id = entry.id := by
  obtain ⟨_, _, rfl⟩ := loads
  rfl

lemma Loads.congr {disk other : Disk} (loads : Loads disk entry record)
    (same : ∀ place, entry.dataSector * 512 ≤ place →
      place < (entry.dataSector + entry.bundleSectors) * 512 → other place = disk place) :
    Loads other entry record := by
  have bundle : bundleFromEntry other entry = bundleFromEntry disk entry := by
    rw [bundleFromEntry, readSectors_congr same, bundleFromEntry]
  obtain ⟨hdr, parsed, rfl⟩ := loads
  exact ⟨hdr, by rw [bundle]; exact parsed, by rw [bundle]⟩

structure Backed (state : State) (entry : CatalogEntry) : Prop where
  lower : dataStartSector ≤ entry.dataSector
  upper : entry.dataSector + entry.bundleSectors ≤ state.nextDataSector
  loads : ∃ record ∈ state.registry.records, Loads state.disk entry record

structure Sound (state : State) : Prop where
  registry : Kept state.registry
  superblock : ∃ sb, readSuperblock state.disk = some sb ∧ sb.nextDataSector = state.nextDataSector
  start : dataStartSector ≤ state.nextDataSector
  far : state.nextDataSector < 2 ^ 64
  unique : (readCatalog state.disk).Pairwise fun one other => one.id ≠ other.id
  backed : ∀ entry ∈ readCatalog state.disk, Backed state entry

section Hydrate

variable {disk : Disk} {old : AppTable}

lemma hydrate_from {entries : List CatalogEntry} {table : AppTable} (kept : Kept old)
    (loads : ∀ entry ∈ entries, ∃ record ∈ old.records, Loads disk entry record)
    (unique : entries.Pairwise fun one other => one.id ≠ other.id)
    (filled : Kept table) (sub : ∀ record ∈ table.records, record ∈ old.records)
    (fresh : ∀ entry ∈ entries, ∀ record ∈ table.records, record.id ≠ entry.id)
    (room : table.records.length + entries.length ≤ maxApps) :
    let result := entries.foldl
      (fun table entry => (table.installFromStore (bundleFromEntry disk entry) entry.id).1) table
    Kept result ∧ result.nextId ≤ max table.nextId old.nextId ∧
      ∀ record, record ∈ result.records ↔
        record ∈ table.records ∨ ∃ entry ∈ entries, Loads disk entry record := by
  induction entries generalizing table with
  | nil => exact ⟨filled, le_max_left .., fun record => by simp⟩
  | cons entry rest ih =>
    rw [pairwise_cons] at unique
    rw [length_cons] at room
    obtain ⟨record, member, hdr, parsed, rfl⟩ := loads entry mem_cons_self
    have below : entry.id < old.nextId := kept.below _ member
    have apart : ∀ other ∈ table.records,
        Apart (recordOf (bundleFromEntry disk entry) hdr entry.id false) other := by
      intro other held
      refine kept.apart.forall member (sub other held) fun same => ?_
      exact fresh entry mem_cons_self other held (same ▸ rfl)
    obtain ⟨adds, nextId, _⟩ := installRecord_new filled
      (by have := kept.bounded; omega) parsed apart (by omega)
    obtain ⟨keptAfter, nextIdAfter, members⟩ := ih
      (fun other later => loads other (mem_cons_of_mem _ later)) unique.2 adds.kept
      (fun other held => by
        rcases (adds.member other).1 held with rfl | before
        · exact member
        · exact sub other before)
      (fun later laterMember other held => by
        rcases (adds.member other).1 held with rfl | before
        · exact unique.1 later laterMember
        · exact fresh later (mem_cons_of_mem _ laterMember) other before)
      (by omega)
    refine ⟨keptAfter, ?_, fun other => ?_⟩
    · refine Nat.le_trans nextIdAfter ?_
      omega
    refine (members other).trans ?_
    rw [adds.member, ← loads_iff parsed]
    simp only [mem_cons, exists_eq_or_imp]
    rw [or_comm (b := other ∈ table.records), or_assoc]

lemma hydrateRegistry_spec (kept : Kept old)
    (loads : ∀ entry ∈ readCatalog disk, ∃ record ∈ old.records, Loads disk entry record)
    (unique : (readCatalog disk).Pairwise fun one other => one.id ≠ other.id) :
    Kept (hydrateRegistry disk {}) ∧ (hydrateRegistry disk {}).nextId ≤ max 1 old.nextId ∧
      ∀ record, record ∈ (hydrateRegistry disk {}).records ↔
        ∃ entry ∈ readCatalog disk, Loads disk entry record := by
  have count : (readCatalog disk).length ≤ catalogEntries := by
    simpa [readCatalog] using length_filterMap_le (entryAt disk) (range catalogEntries)
  have spec := hydrate_from kept loads unique kept_empty (by simp [records]) (by simp [records])
    (by simp only [records, catalogEntries, maxApps] at count ⊢; simpa using by omega)
  refine ⟨spec.1, spec.2.1, fun record => (spec.2.2 record).trans ?_⟩
  simp [records]

end Hydrate

def RoomForIds (table : AppTable) : Prop := table.nextId + 32 * 1024 + 4 < 2 ^ 32

lemma installSystemApps_room {table : AppTable} (kept : Kept table) {bound : Nat}
    (small : table.nextId ≤ max 1 bound) (room : bound + 32 * 1024 + 4 < 2 ^ 32) :
    Extends table (installSystemApps image table) := by
  have listed := image.listed
  exact installSystemApps_extends kept (by omega)

lemma selfTest_outside {disk : Disk} {place : Nat} (outside : place < 512 ∨ 1024 ≤ place) :
    selfTest disk place = disk place :=
  writeSectors_outside (by omega)

lemma boot_owed (disk : Disk) (owed : List (Nat × List UInt8)) : (boot image disk owed).owed = owed :=
  rfl

lemma boot_opened {disk : Disk} {sb : Superblock} (owed : List (Nat × List UInt8))
    (opened : readSuperblock disk = some sb) :
    (boot image disk owed).disk = selfTest disk ∧
      (boot image disk owed).nextDataSector = max sb.nextDataSector dataStartSector ∧
      (boot image disk owed).registry =
        installSystemApps image (hydrateRegistry (selfTest disk) {}) := by
  have still : readSuperblock (selfTest disk) = some sb := by
    rw [readSuperblock_congr fun place low => selfTest_outside (.inl low), opened]
  simp [boot, still]

lemma boot_sound (sound : Sound state) (room : RoomForIds state.registry)
    (owed : List (Nat × List UInt8)) :
    Sound (boot image state.disk owed) ∧ (boot image state.disk owed).disk = selfTest state.disk ∧
      ∀ record, record.system = false →
        (record ∈ (boot image state.disk owed).registry.records ↔
          ∃ entry ∈ readCatalog (selfTest state.disk), Loads state.disk entry record) := by
  obtain ⟨sb, opened, sectors⟩ := sound.superblock
  obtain ⟨disk, nextSector, registry⟩ := @boot_opened image state.disk sb owed opened
  have start := sound.start
  have sublist := @readCatalog_selfTest_sublist state.disk
  have unique := sound.unique.sublist sublist
  -- the data of an entry lie beyond what the self-test writes
  have kept : ∀ entry ∈ readCatalog (selfTest state.disk), ∀ record,
      Loads (selfTest state.disk) entry record ↔ Loads state.disk entry record := by
    intro entry member record
    have lower := (sound.backed entry (sublist.subset member)).lower
    simp only [dataStartSector] at lower
    constructor <;> intro loads <;> refine loads.congr fun place low _ => ?_
    · exact (selfTest_outside (.inr (by omega))).symm
    · exact selfTest_outside (.inr (by omega))
  have loads : ∀ entry ∈ readCatalog (selfTest state.disk),
      ∃ record ∈ state.registry.records, Loads (selfTest state.disk) entry record := by
    intro entry member
    obtain ⟨record, held, loads⟩ := (sound.backed entry (sublist.subset member)).loads
    exact ⟨record, held, (kept entry member record).2 loads⟩
  obtain ⟨hydrated, nextId, members⟩ := hydrateRegistry_spec sound.registry loads unique
  have grown := @installSystemApps_room image _ hydrated _ nextId room
  rw [← registry] at grown
  refine ⟨⟨grown.kept, ⟨sb, ?_, ?_⟩, ?_, ?_, ?_, ?_⟩, disk, fun record user => ?_⟩
  · rw [disk, readSuperblock_congr fun place low => selfTest_outside (.inl low), opened]
  · rw [nextSector, sectors]
    omega
  · rw [nextSector]
    exact le_max_right ..
  · rw [nextSector, sectors, max_eq_left start]
    exact sound.far
  · rw [disk]
    exact unique
  · rw [disk]
    intro entry member
    have before := sound.backed entry (sublist.subset member)
    refine ⟨before.lower, ?_, ?_⟩
    · rw [nextSector, sectors]
      have := before.upper
      omega
    obtain ⟨record, _, loads⟩ := loads entry member
    rw [disk]
    exact ⟨record, grown.mono record ((members record).2 ⟨entry, member, loads⟩), loads⟩
  constructor
  · intro held
    rcases grown.only record held with before | system
    · obtain ⟨entry, member, loads⟩ := (members record).1 before
      exact ⟨entry, member, (kept entry member record).1 loads⟩
    · rw [user] at system
      cases system
  rintro ⟨entry, member, loads⟩
  exact grown.mono record ((members record).2 ⟨entry, member, (kept entry member record).2 loads⟩)

lemma readCatalog_formatStore (disk : Disk) : readCatalog (formatStore disk) = [] := by
  have zeros : ∀ place, 512 ≤ place → place < 6656 → formatStore disk place =
      writeCatalog (writeSuperblock disk
        { nextAppId := 1, nextDataSector := dataStartSector, entryCount := 0 }) [] (fun _ => 0) place :=
    fun _ _ _ => rfl
  rw [readCatalog_congr zeros]
  exact readCatalog_writeCatalog _ (by simp) (by simp)

lemma boot_format {disk : Disk} (fresh : readSuperblock disk = none) :
    readCatalog (boot image disk []).disk = [] ∧
      (boot image disk []).registry = installSystemApps image {} ∧
      (boot image disk []).nextDataSector = dataStartSector ∧
      ∃ sb, readSuperblock (boot image disk []).disk = some sb ∧
        sb.nextDataSector = dataStartSector := by
  have still : readSuperblock (selfTest disk) = none := by
    rw [readSuperblock_congr fun place low => selfTest_outside (.inl low), fresh]
  obtain ⟨sb, written, sectors⟩ := @readSuperblock_write (selfTest disk)
    { nextAppId := 1, nextDataSector := dataStartSector, entryCount := 0 } (by decide)
  have opened : readSuperblock (formatStore (selfTest disk)) = some sb := by
    rw [← written]
    exact readSuperblock_congr fun place low => writeSectors_outside (.inl (by
      simp only [catalogSector]
      omega))
  have format : (boot image disk []).disk = formatStore (selfTest disk) := by
    simp [boot, still]
  refine ⟨?_, ?_, ?_, sb, ?_, sectors⟩
  · rw [format, readCatalog_formatStore]
  · simp [boot, still, hydrateRegistry, readCatalog_formatStore]
  · simp [boot, still, opened, sectors]
  · rw [format, opened]

lemma boot_fresh {disk : Disk} (fresh : readSuperblock disk = none) :
    Sound (boot image disk []) := by
  obtain ⟨catalog, registry, sector, sb, opened, sectors⟩ := @boot_format image disk fresh
  refine ⟨?_, ⟨sb, opened, sectors.trans sector.symm⟩, le_of_eq sector.symm, ?_, ?_, ?_⟩
  · rw [registry]
    exact (@installSystemApps_room image {} kept_empty 1 (by decide) (by decide)).kept
  · rw [sector]
    decide
  · rw [catalog]
    exact .nil
  rw [catalog]
  intro entry member
  cases member

lemma parseHeader_fits {bundle : Bundle} (parsed : parseHeader bundle = some hdr) :
    hdr.name.length = 64 ∧ hdr.version.length = 16 ∧ hdr.entryOffset < 256 ^ 8 ∧
      hdr.stackSize < 256 ^ 8 := by
  simp only [parseHeader] at parsed
  split at parsed
  · cases parsed
  rename_i long
  simp only [headerSize] at long
  iterate 3
    split at parsed
    · cases parsed
  cases parsed
  exact ⟨length_slice (by omega), length_slice (by omega), ofLe_slice_lt (by omega),
    ofLe_slice_lt (by omega)⟩

structure Room (state : State) (bundle : Bundle) : Prop where
  places : (readCatalog state.disk).length < catalogEntries
  bytes : bundle.length < 2 ^ 32
  sectors : state.nextDataSector + sectorsForBytes bundle.length < 2 ^ 64

lemma sectorsForBytes_eq {len : Nat} (small : len < 2 ^ 32) :
    sectorsForBytes len = (len + 511) / 512 := by
  rw [sectorsForBytes, mod_eq_of_lt (by omega)]

lemma resize_eq {bytes : List UInt8} {len : Nat} (long : bytes.length ≤ len) :
    resize bytes len = bytes ++ replicate (len - bytes.length) 0 := by
  rw [resize, take_of_length_le]
  simp only [length_append, length_replicate]
  omega

def entryOf (state : State) (appId : Nat) (bundle : Bundle) (hdr : BundleHeader) : CatalogEntry :=
  { flags := 1
    id := appId
    name := hdr.name
    version := hdr.version
    entryOffset := hdr.entryOffset
    stackSize := hdr.stackSize
    dataSector := state.nextDataSector
    bundleSectors := sectorsForBytes bundle.length
    bundleBytes := bundle.length % 2 ^ 32
    pad := 0 }

variable {appId : Nat}

lemma entryOf_fits {bundle : Bundle}
    (parsed : parseHeader bundle = some hdr) (small : appId < 2 ^ 32)
    (sector : state.nextDataSector < 2 ^ 64) : (entryOf state appId bundle hdr).Fits := by
  obtain ⟨name, version, entryOffset, stackSize⟩ := parseHeader_fits parsed
  refine ⟨by simp [entryOf], small, name, version, entryOffset, stackSize, sector, ?_, ?_,
    by simp [entryOf]⟩
  all_goals exact mod_lt _ (by decide)

structure Persisted (state next : State) (entry : CatalogEntry) (bundle : Bundle) : Prop where
  registry : next.registry = state.registry
  nextDataSector : next.nextDataSector = state.nextDataSector + entry.bundleSectors
  superblock : ∃ sb, readSuperblock next.disk = some sb ∧ sb.nextDataSector = next.nextDataSector
  catalog : readCatalog next.disk = readCatalog state.disk ++ [entry]
  places : ∀ index < catalogEntries,
    entryAt next.disk index = (readCatalog state.disk ++ [entry])[index]?
  data : bundleFromEntry next.disk entry = bundle
  frame : ∀ place, dataStartSector * 512 ≤ place → place < state.nextDataSector * 512 →
    next.disk place = state.disk place

lemma persistBundle_spec {bundle : Bundle} (after : Nat → Nat)
    (start : dataStartSector ≤ state.nextDataSector) (parsed : parseHeader bundle = some hdr)
    (room : Room state bundle) (small : appId < 2 ^ 32) :
    Persisted state (state.persistBundle appId bundle after).1 (entryOf state appId bundle hdr)
      bundle := by
  have places := room.places
  have sectors := sectorsForBytes_eq room.bytes
  have far := room.sectors
  simp only [dataStartSector, catalogEntries] at start places
  let written := writeSectors state.disk state.nextDataSector (sectorsForBytes bundle.length)
    (resize bundle (sectorsForBytes bundle.length * 512))
  have low : ∀ place < state.nextDataSector * 512, written place = state.disk place :=
    fun place below => writeSectors_outside (.inl below)
  have catalog : readCatalog written = readCatalog state.disk :=
    readCatalog_congr fun place _ below => low place (by omega)
  obtain ⟨sb, unfolded⟩ : ∃ sb : Superblock,
      sb.nextDataSector = state.nextDataSector + sectorsForBytes bundle.length ∧
      (state.persistBundle appId bundle after).1.disk =
        writeSuperblock (writeCatalog written
          (readCatalog state.disk ++ [entryOf state appId bundle hdr]) after) sb ∧
      (state.persistBundle appId bundle after).1.registry = state.registry ∧
      (state.persistBundle appId bundle after).1.nextDataSector =
        state.nextDataSector + sectorsForBytes bundle.length := by
    have notFull : ¬ catalogEntries ≤ (readCatalog state.disk).length := by
      simp only [catalogEntries]
      omega
    simp only [persistBundle, parsed]
    rw [show readCatalog (writeSectors state.disk state.nextDataSector _ _) = _ from catalog,
      if_neg notFull]
    exact ⟨_, rfl, rfl, rfl, rfl⟩
  obtain ⟨superSectors, disk, registry, nextSector⟩ := unfolded
  have fits : ∀ entry ∈ readCatalog state.disk ++ [entryOf state appId bundle hdr],
      entry.Fits ∧ entry.flags = 1 := by
    intro entry member
    rcases mem_append.1 member with before | new
    · exact readCatalog_fits before
    · obtain rfl := mem_singleton.1 new
      exact ⟨entryOf_fits parsed small (by omega), rfl⟩
  -- beyond the catalog the two later writes change nothing
  have beyond : ∀ place, 6656 ≤ place →
      (state.persistBundle appId bundle after).1.disk place = written place := by
    intro place high
    rw [disk, writeSuperblock_outside (by omega), writeCatalog_outside (.inr high)]
  have count : (readCatalog state.disk ++ [entryOf state appId bundle hdr]).length ≤ catalogEntries := by
    simp only [length_append, length_singleton, catalogEntries]
    omega
  refine ⟨registry, nextSector, ?_, ?_, fun index inside => ?_, ?_, ?_⟩
  · obtain ⟨found, read, same⟩ := @readSuperblock_write
      (writeCatalog written (readCatalog state.disk ++ [entryOf state appId bundle hdr]) after) sb
      (by omega)
    exact ⟨found, by rw [disk]; exact read, by rw [same, superSectors, nextSector]⟩
  · rw [disk, readCatalog_writeSuperblock, readCatalog_writeCatalog after fits count]
  · rw [disk, entryAt_congr inside fun place lower _ => writeSuperblock_outside (by omega),
      entryAt_writeCatalog after fits count inside]
  · have padded : resize bundle (sectorsForBytes bundle.length * 512) =
        bundle ++ replicate (sectorsForBytes bundle.length * 512 - bundle.length) 0 :=
      resize_eq (by omega)
    have length : (resize bundle (sectorsForBytes bundle.length * 512)).length =
        sectorsForBytes bundle.length * 512 := by
      rw [padded, length_append, length_replicate]
      omega
    have read : readSectors (state.persistBundle appId bundle after).1.disk state.nextDataSector
        (sectorsForBytes bundle.length) = resize bundle (sectorsForBytes bundle.length * 512) := by
      rw [readSectors_congr fun place lower _ => beyond place (by omega)]
      simp only [written, readSectors, writeSectors]
      rw [take_of_length_le (by rw [length]; exact le_refl _)]
      exact read_write_self length
    simp only [bundleFromEntry, entryOf]
    rw [read, padded, mod_eq_of_lt room.bytes, take_left]
  intro place lower upper
  simp only [dataStartSector] at lower
  rw [beyond place (by omega), low place upper]

def Present (state : State) (id : Nat) (aot : List UInt8) : Prop :=
  ∃ record, state.registry.find id = some record ∧ record.aotData = aot ∧ record.system = false

def Listed (state : State) (id : Nat) : Prop := ∃ entry ∈ readCatalog state.disk, entry.id = id

def Safe (state : State) (id : Nat) (aot : List UInt8) : Prop :=
  (id, aot) ∈ state.owed → Present state id aot ∧ Listed state id

variable {id : Nat} {aot : List UInt8}

lemma present_iff (kept : Kept state.registry) :
    Present state id aot ↔ ∃ record ∈ state.registry.records,
      record.id = id ∧ record.aotData = aot ∧ record.system = false := by
  constructor
  · rintro ⟨record, found, facts⟩
    exact ⟨record, (find_mem found).1, (find_mem found).2, facts⟩
  · rintro ⟨record, member, rfl, facts⟩
    exact ⟨record, kept.find_eq member, facts⟩

lemma Present.mono {next : State} (kept : Kept state.registry) (keptNext : Kept next.registry)
    (mono : ∀ record ∈ state.registry.records, record.id = id → record ∈ next.registry.records)
    (present : Present state id aot) : Present next id aot := by
  obtain ⟨record, member, same, facts⟩ := (present_iff kept).1 present
  exact (present_iff keptNext).2 ⟨record, mono record member same, same, facts⟩

variable {registry : AppTable} {action : Action}

section Install

variable {bundle : Bundle} {after : Nat → Nat}

lemma Persisted.sound {next : State} (sound : Sound state)
    (room : Room state bundle) (parsed : parseHeader bundle = some hdr)
    (adds : Adds state.registry registry (recordOf bundle hdr state.registry.nextId false))
    (persisted : Persisted { state with registry } next
      (entryOf state state.registry.nextId bundle hdr) bundle) : Sound next := by
  have start := sound.start
  have nextSector := persisted.nextDataSector
  refine ⟨?_, persisted.superblock, ?_, ?_, ?_, ?_⟩
  · rw [persisted.registry]
    exact adds.kept
  · rw [nextSector]
    exact Nat.le_trans start (Nat.le_add_right ..)
  · rw [nextSector]
    exact room.sectors
  · rw [persisted.catalog]
    refine pairwise_append.2 ⟨sound.unique, pairwise_singleton .., ?_⟩
    intro entry member new newMember
    obtain rfl := mem_singleton.1 newMember
    obtain ⟨record, held, loads⟩ := (sound.backed entry member).loads
    have below := sound.registry.below record held
    rw [loads.id] at below
    exact Nat.ne_of_lt below
  rw [persisted.catalog]
  intro entry member
  rcases mem_append.1 member with before | new
  · obtain ⟨lower, upper, record, held, loads⟩ := sound.backed entry before
    refine ⟨lower, ?_, record, ?_, ?_⟩
    · rw [nextSector]
      exact Nat.le_trans upper (Nat.le_add_right ..)
    · rw [persisted.registry]
      exact (adds.member record).2 (.inr held)
    refine loads.congr fun place low high => persisted.frame place ?_ ?_
    · exact Nat.le_trans (mul_le_mul_right 512 lower) low
    · exact lt_of_lt_of_le high (mul_le_mul_right 512 upper)
  obtain rfl := mem_singleton.1 new
  refine ⟨start, le_of_eq nextSector.symm, _, ?_, hdr, ?_, rfl⟩
  · rw [persisted.registry, persisted.data]
    exact (adds.member _).2 (.inl rfl)
  · rw [persisted.data]
    exact parsed

lemma install_eq (installed : state.registry.install bundle = (registry, some id))
    (parsed : parseHeader bundle = some hdr) :
    (state.install bundle after).1 =
      { ({ state with registry }.persistBundle id bundle after).1 with
        owed := (id, aotOf bundle hdr) :: state.owed } := by
  simp only [State.install, installed, parsed]
  rfl

lemma install_step (sound : Sound state) (room : Room state bundle)
    (ids : state.registry.nextId + 1 < 2 ^ 32) :
    Sound (state.install bundle after).1 ∧
      ∀ id aot, Safe state id aot → Safe (state.install bundle after).1 id aot := by
  rcases @install_cases state.registry bundle sound.registry ids with
    ⟨hdr, parsed, installed, adds⟩ | ⟨failed, kept, same⟩
  · have start := sound.start
    let registered : State := { state with registry := (state.registry.install bundle).1 }
    have persisted := @persistBundle_spec registered hdr state.registry.nextId bundle after start parsed
      { room with } sound.registry.bounded
    have unfolded := @install_eq state hdr state.registry.nextId registered.registry bundle after
      (Prod.ext rfl installed) parsed
    have soundNext := Persisted.sound sound room parsed adds persisted
    rw [unfolded]
    refine ⟨{ soundNext with backed := fun entry member => ?_ }, ?_⟩
    · have backed := soundNext.backed entry member
      exact { backed with }
    intro id aot safe owed
    have keptNext : Kept (registered.persistBundle state.registry.nextId bundle after).1.registry :=
      soundNext.registry
    rcases mem_cons.1 owed with new | before
    · cases new
      refine ⟨(present_iff keptNext).2
        ⟨recordOf bundle hdr state.registry.nextId false, ?_, rfl, rfl, rfl⟩,
        entryOf state state.registry.nextId bundle hdr, ?_, rfl⟩
      · rw [persisted.registry]
        exact (adds.member _).2 (.inl rfl)
      · rw [persisted.catalog]
        exact mem_append_right _ (mem_singleton_self _)
    obtain ⟨present, entry, member, same⟩ := safe before
    refine ⟨present.mono sound.registry keptNext fun record held _ => ?_, entry, ?_, same⟩
    · rw [persisted.registry]
      exact (adds.member record).2 (.inr held)
    · rw [persisted.catalog]
      exact mem_append_left _ member
  have unfolded : (state.install bundle after).1 =
      { state with registry := (state.registry.install bundle).1 } := by
    have pair : state.registry.install bundle = ((state.registry.install bundle).1, none) :=
      Prod.ext rfl failed
    rw [State.install, pair]
  rw [unfolded]
  refine ⟨{ sound with registry := kept, backed := fun entry member => ?_ }, ?_⟩
  · have before := sound.backed entry member
    exact ⟨before.lower, before.upper, by rw [same]; exact before.loads⟩
  intro id aot safe owed
  obtain ⟨present, listed⟩ := safe owed
  exact ⟨present.mono sound.registry kept (fun record member _ => same ▸ member), listed⟩

end Install

lemma removeBundle_catalog (appId : Nat) (after : Nat → Nat) :
    let next := (state.removeBundle appId after).1
    readCatalog next.disk = (readCatalog state.disk).filter (fun entry => entry.id ≠ appId) ∧
      ∀ place, dataStartSector * 512 ≤ place → next.disk place = state.disk place := by
  have count : (readCatalog state.disk).length ≤ catalogEntries := by
    simpa [readCatalog] using length_filterMap_le (entryAt state.disk) (range catalogEntries)
  simp only [removeBundle]
  split
  · rename_i unchanged
    refine ⟨?_, fun _ _ => rfl⟩
    exact (filter_eq_self.2 (length_filter_eq_length_iff.1 unchanged)).symm
  refine ⟨?_, fun place low => ?_⟩
  · rw [readCatalog_writeSuperblock, readCatalog_writeCatalog after]
    · exact fun entry member => readCatalog_fits (mem_filter.1 member).1
    · exact Nat.le_trans (length_filter_le ..) count
  · simp only [dataStartSector] at low
    exact (writeSuperblock_outside (by omega)).trans (writeCatalog_outside (by omega))

lemma removeBundle_spec {after : Nat → Nat} (far : state.nextDataSector < 2 ^ 64)
    (superblock : ∃ sb, readSuperblock state.disk = some sb ∧ sb.nextDataSector = state.nextDataSector) :
    let next := (state.removeBundle appId after).1
    next.registry = state.registry ∧ next.nextDataSector = state.nextDataSector ∧
      (∃ sb, readSuperblock next.disk = some sb ∧ sb.nextDataSector = state.nextDataSector) ∧
      readCatalog next.disk = (readCatalog state.disk).filter (fun entry => entry.id ≠ appId) ∧
      ∀ place, dataStartSector * 512 ≤ place → next.disk place = state.disk place := by
  have spec := @removeBundle_catalog state appId after
  simp only [removeBundle] at spec ⊢
  split
  · exact ⟨rfl, rfl, superblock, by simpa only [*, if_true] using spec⟩
  · exact ⟨rfl, rfl, readSuperblock_write far, by simpa only [*, if_false] using spec⟩

lemma uninstall_step {after : Nat → Nat} (sound : Sound state) :
    Sound (state.uninstall appId after).1 ∧
      ∀ id aot, Safe state id aot → Safe (state.uninstall appId after).1 id aot := by
  simp only [uninstall]
  iterate 2
    split
    · exact ⟨sound, fun _ _ safe => safe⟩
  rename_i registry removed
  obtain ⟨kept, members⟩ := @remove_kept state.registry sound.registry appId
  rw [removed] at kept members
  obtain ⟨sameRegistry, sector, superblock, catalog, frame⟩ :=
    @removeBundle_spec { state with registry } appId after sound.far sound.superblock
  generalize ({ state with registry }.removeBundle appId after).1 = next at *
  refine ⟨⟨?_, ?_, ?_, ?_, ?_, ?_⟩, ?_⟩
  · rw [sameRegistry]
    exact kept
  · rw [sector]
    exact superblock
  · rw [sector]
    exact sound.start
  · rw [sector]
    exact sound.far
  · rw [catalog]
    exact sound.unique.filter _
  · rw [catalog]
    intro entry member
    obtain ⟨before, different⟩ := mem_filter.1 member
    obtain ⟨lower, upper, record, held, loads⟩ := sound.backed entry before
    refine ⟨lower, ?_, record, ?_, ?_⟩
    · rw [sector]
      exact upper
    · rw [sameRegistry]
      exact (members record).2 ⟨held, by rw [loads.id]; simpa using different⟩
    · exact loads.congr fun place low _ =>
        frame place (Nat.le_trans (mul_le_mul_right 512 lower) low)
  intro id aot safe owed
  obtain ⟨before, different⟩ := mem_filter.1 owed
  have other : id ≠ appId := by simpa using different
  obtain ⟨present, entry, member, same⟩ := safe before
  refine ⟨present.mono sound.registry ?_ fun record held named => ?_, entry, ?_, same⟩
  · rw [sameRegistry]
    exact kept
  · rw [sameRegistry]
    exact (members record).2 ⟨held, named ▸ other⟩
  · rw [catalog]
    exact mem_filter.2 ⟨member, by simpa [same] using other⟩

def Spares (state : State) (sector count : Nat) : Prop :=
  count = 0 ∨ 13 ≤ sector ∧ sector + count ≤ dataStartSector ∨ state.nextDataSector ≤ sector

lemma blkWrite_step {sector count : Nat} {data : List UInt8} (sound : Sound state)
    (spares : Spares state sector count) :
    Sound { state with disk := writeSectors state.disk sector count data } ∧
      ∀ id aot, Safe state id aot →
        Safe { state with disk := writeSectors state.disk sector count data } id aot := by
  have start := sound.start
  simp only [dataStartSector] at start
  have same : ∀ place, place < 6656 ∨ 64 * 512 ≤ place ∧ place < state.nextDataSector * 512 →
      writeSectors state.disk sector count data place = state.disk place := by
    intro place range
    refine writeSectors_outside ?_
    rcases spares with rfl | gap | high
    · omega
    · simp only [dataStartSector] at gap
      omega
    · omega
  have catalog : readCatalog (writeSectors state.disk sector count data) = readCatalog state.disk :=
    readCatalog_congr fun place _ high => same place (.inl high)
  refine ⟨⟨sound.registry, ?_, sound.start, sound.far, ?_, ?_⟩, ?_⟩
  · rw [readSuperblock_congr fun place low => same place (.inl (by omega))]
    exact sound.superblock
  · rw [catalog]
    exact sound.unique
  · rw [catalog]
    intro entry member
    obtain ⟨lower, upper, record, held, loads⟩ := sound.backed entry member
    refine ⟨lower, upper, record, held, loads.congr fun place low high => same place (.inr ⟨?_, ?_⟩)⟩
    · exact Nat.le_trans (mul_le_mul_right 512 lower) low
    · exact lt_of_lt_of_le high (mul_le_mul_right 512 upper)
  intro id aot safe owed
  obtain ⟨present, listed⟩ := safe owed
  refine ⟨present, ?_⟩
  simp only [Listed, catalog]
  exact listed

def Beyond (state : State) (id : Nat) : Prop :=
  ∃ index, 4 ≤ index ∧ index < catalogEntries ∧
    ∃ entry, entryAt state.disk index = some entry ∧ entry.id = id

lemma reboot_present_iff (sound : Sound state)
    (room : RoomForIds state.registry) (present : Present state id aot)
    (owed : List (Nat × List UInt8)) :
    Present (boot image state.disk owed) id aot ↔ Beyond state id := by
  obtain ⟨soundNext, _, users⟩ := @boot_sound image state sound room owed
  rw [present_iff soundNext.registry]
  constructor
  · rintro ⟨record, held, named, _, user⟩
    obtain ⟨entry, member, loads⟩ := (users record user).1 held
    obtain ⟨index, high, inside, found⟩ := mem_readCatalog_selfTest.1 member
    exact ⟨index, high, inside, entry, found, loads.id.symm.trans named⟩
  rintro ⟨index, high, inside, entry, found, rfl⟩
  have member := mem_readCatalog_selfTest.2 ⟨index, high, inside, found⟩
  obtain ⟨record, held, loads⟩ := (sound.backed entry
    (readCatalog_selfTest_sublist.subset member)).loads
  obtain ⟨_, otherHeld, named, snapshot, user⟩ := (present_iff sound.registry).1 present
  obtain rfl := sound.registry.eq_of_id held otherHeld (loads.id.trans named.symm)
  exact ⟨record, (users record user).2 ⟨entry, member, loads⟩, named, snapshot, user⟩

def Careful (state : State) : Action → Prop
  | .install bundle _ => Room state bundle ∧ state.registry.nextId + 1 < 2 ^ 32
  | .uninstall _ _ => True
  | .reboot => RoomForIds state.registry
  | .blkWrite sector data => Spares state sector (data.length / sectorSize)

lemma step_reboot : state.step image .reboot = boot image state.disk state.owed := rfl

lemma step_sound (sound : Sound state) (careful : Careful state action) :
    Sound (state.step image action) := by
  cases action with
  | install bundle after => exact (install_step sound careful.1 careful.2).1
  | uninstall appId after => exact (uninstall_step sound).1
  | reboot => exact (boot_sound sound careful state.owed).1
  | blkWrite sector data => exact (blkWrite_step sound careful).1

lemma step_safe (sound : Sound state) (careful : Careful state action)
    (beyond : action = .reboot → (id, aot) ∈ state.owed → Beyond state id)
    (safe : Safe state id aot) : Safe (state.step image action) id aot := by
  cases action with
  | install bundle after => exact (install_step sound careful.1 careful.2).2 id aot safe
  | uninstall appId after => exact (uninstall_step sound).2 id aot safe
  | blkWrite sector data => exact (blkWrite_step sound careful).2 id aot safe
  | reboot =>
    intro owed
    rw [step_reboot, boot_owed] at owed
    have here := beyond rfl owed
    refine ⟨(reboot_present_iff sound careful (safe owed).1 state.owed).2 here, ?_⟩
    obtain ⟨index, high, inside, entry, found, named⟩ := here
    have disk := (@boot_sound image state sound careful state.owed).2.1
    refine ⟨entry, ?_, named⟩
    show entry ∈ readCatalog (boot image state.disk state.owed).disk
    rw [disk]
    exact mem_readCatalog_selfTest.2 ⟨index, high, inside, found⟩

structure Followed (id : Nat) (aot : List UInt8) (state : State) : Prop where
  sound : Sound state
  safe : Safe state id aot

theorem installed_app_survives (image : Image) (id : Nat) (aot : List UInt8) (state : State) :
    ((system image).Reachable (fun state action => Careful state action ∧
        (action = .reboot → (id, aot) ∈ state.owed → Beyond state id)) state →
      (id, aot) ∈ state.owed → Present state id aot) ∧
    ((system image).Reachable Careful state → RoomForIds state.registry → Present state id aot →
      (Present (state.step image .reboot) id aot ↔ Beyond state id)) := by
  constructor
  · intro reached owed
    have invariant : Followed id aot state := by
      refine reached.invariant ?_ ?_
      · rintro _ ⟨disk, fresh, rfl⟩
        refine ⟨boot_fresh fresh, fun owed => ?_⟩
        cases owed
      rintro before action next ⟨sound, safe⟩ ⟨careful, beyond⟩ taken
      cases taken
      exact ⟨step_sound sound careful, step_safe sound careful beyond safe⟩
    exact (invariant.safe owed).1
  intro reached room present
  have sound : Sound state := by
    refine reached.invariant ?_ ?_
    · rintro _ ⟨disk, fresh, rfl⟩
      exact boot_fresh fresh
    rintro before action next sound careful taken
    cases taken
    exact step_sound sound careful
  exact reboot_present_iff sound room present state.owed

def sampleBundle : Bundle :=
  magic ++ leBytes 4 1 ++ (0x41 :: List.replicate 63 0) ++ List.replicate 16 0 ++ leBytes 8 0 ++
    leBytes 8 0 ++ leBytes 4 1 ++ leBytes 4 0 ++ [7]

def blankDisk : Disk := fun _ => 0

def sampleInstall : Action := .install sampleBundle fun _ => 0

lemma sampleBundle_parsed : ∃ hdr registry, parseHeader sampleBundle = some hdr ∧
    aotOf sampleBundle hdr = [7] ∧ AppTable.install {} sampleBundle = (registry, some 1) ∧
    registry.nextId = 2 ∧ sampleBundle.length = 113 := by
  refine ⟨_, _, rfl, ?_, rfl, ?_, ?_⟩
  all_goals decide +kernel

lemma blankDisk_fresh : readSuperblock blankDisk = none := by
  have zeros : slice (readSectors blankDisk superSector 1) 0 8 = blankDisk.read 0 8 :=
    slice_read (by decide)
  rw [readSuperblock]
  simp only [zeros]
  exact if_neg (by decide)

lemma first_install {bundle : Bundle}
    (installed : state.registry.install bundle = (registry, some id)) (small : id < 2 ^ 32)
    (parsed : parseHeader bundle = some hdr) (catalog : readCatalog state.disk = [])
    (sector : state.nextDataSector = dataStartSector) (room : Room state bundle)
    (after : Nat → Nat) :
    (id, aotOf bundle hdr) ∈ (state.install bundle after).1.owed ∧
      (state.install bundle after).1.registry = registry ∧
      ¬ Beyond (state.install bundle after).1 id := by
  have persisted := @persistBundle_spec { state with registry } hdr id bundle after
    (le_of_eq sector.symm) parsed { room with } small
  rw [install_eq installed parsed]
  refine ⟨mem_cons_self, persisted.registry, ?_⟩
  rintro ⟨index, _, inside, _, found, _⟩
  have place := (persisted.places index inside).symm.trans found
  simp only [catalog, nil_append] at place
  rw [getElem?_eq_none (by simp; omega)] at place
  cases place

lemma sample_installed : ∃ state,
    (∀ guard, (∀ before, Careful before sampleInstall → guard before sampleInstall) →
      (system {}).Reachable guard state) ∧
    Sound state ∧ RoomForIds state.registry ∧ (1, [7]) ∈ state.owed ∧ Present state 1 [7] ∧
      ¬ Beyond state 1 := by
  obtain ⟨_, registry, parsed, snapshot, installed, nextId, length⟩ := sampleBundle_parsed
  obtain ⟨start, begun, owedNone, sound, catalog, empty, sector⟩ : ∃ start, (system {}).start start ∧
      start.owed = [] ∧ Sound start ∧ readCatalog start.disk = [] ∧ start.registry = {} ∧
      start.nextDataSector = dataStartSector := by
    obtain ⟨catalog, empty, sector, _⟩ := @boot_format {} blankDisk blankDisk_fresh
    exact ⟨_, ⟨blankDisk, blankDisk_fresh, rfl⟩, boot_owed .., boot_fresh blankDisk_fresh, catalog,
      empty, sector⟩
  have room : Room start sampleBundle := by
    refine ⟨?_, ?_, ?_⟩
    · rw [catalog]
      decide
    · rw [length]
      decide
    · rw [length, sector]
      decide
  have ids : start.registry.nextId + 1 < 2 ^ 32 := by
    rw [empty]
    decide
  have pair : start.registry.install sampleBundle = (registry, some 1) := by
    rw [empty]
    exact installed
  obtain ⟨owed, same, near⟩ := first_install pair (by decide) parsed catalog sector room fun _ => 0
  obtain ⟨soundNext, safe⟩ := @install_step start sampleBundle (fun _ => 0) sound room ids
  rw [snapshot] at owed
  refine ⟨(start.install sampleBundle fun _ => 0).1, fun guard careful => ?_, soundNext, ?_, owed, ?_,
    near⟩
  · exact .step (.start begun) (careful start ⟨room, ids⟩) rfl
  · rw [same, RoomForIds, nextId]
    decide
  refine (safe 1 [7] (fun before => ?_) owed).1
  rw [owedNone] at before
  cases before

theorem installed_app_survives_sample : ∃ state, (1, [7]) ∈ state.owed ∧ Present state 1 [7] ∧
    (Present (state.step {} .reboot) 1 [7] ↔ Beyond state 1) := by
  obtain ⟨state, reached, _, room, owed, _, _⟩ := sample_installed
  have survives := installed_app_survives {} 1 [7] state
  have present : Present state 1 [7] := survives.1 (reached _ fun _ careful => ⟨careful, nofun⟩) owed
  exact ⟨state, owed, present, survives.2 (reached _ fun _ careful => careful) room present⟩

theorem first_app_lost : ∃ state, (system {}).Reachable Runs.anyStep state ∧
    (1, [7]) ∈ state.owed ∧ Present state 1 [7] ∧
    (1, [7]) ∈ (state.step {} .reboot).owed ∧ ¬ Present (state.step {} .reboot) 1 [7] := by
  obtain ⟨state, reached, sound, room, owed, present, near⟩ := sample_installed
  have lost := @reboot_present_iff {} state 1 [7] sound room present state.owed
  refine ⟨state, reached _ fun _ _ => trivial, owed, present, ?_⟩
  rw [step_reboot, boot_owed]
  exact ⟨owed, fun after => near (lost.1 after)⟩

end OsCortex.AppStore
