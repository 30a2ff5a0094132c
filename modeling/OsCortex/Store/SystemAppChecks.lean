import OsCortex.Store.AppStoreChecks
import OsCortex.Store.RegistryRuns

/-!
The system apps at boot. The registry is filled from the disk first, so a stored app with the id or
the name of a system app keeps it out.
-/

namespace OsCortex.AppStore

open Bytes AppRegistry AppTable List Option

variable {image : Image} {table : AppTable} {record : AppRecord}

structure Shipped where
  bundle : Bundle
  id : Option Nat

def shipped (image : Image) : List Shipped :=
  image.core.filterMap (fun source => source.1.map fun bundle => ⟨bundle, some source.2⟩) ++
    image.discovered.map (⟨·, none⟩)

def place (table : AppTable) (app : Shipped) : AppTable :=
  match app.id with
  | some id => (table.installRecord app.bundle id true).1
  | none => (table.installRecordAutoId app.bundle true).1

lemma installSystemApps_eq (image : Image) (table : AppTable) :
    installSystemApps image table = (shipped image).foldl place table := by
  rw [installSystemApps, shipped, foldl_append, foldl_map, foldl_filterMap]
  congr 1
  refine foldl_ext _ _ _ fun before source _ => ?_
  obtain ⟨file, _⟩ := source
  cases file with
  | none => rfl
  | some bundle => rfl

def restored (disk : Disk) : AppTable :=
  let tested := selfTest disk
  hydrateRegistry (if (readSuperblock tested).isNone then formatStore tested else tested) {}

lemma boot_registry (disk : Disk) (owed : List (Nat × List UInt8)) :
    (boot image disk owed).registry = installSystemApps image (restored disk) := rfl

def Fits (image : Image) (start : AppTable) (app : Shipped) : Prop :=
  ∃ done rest, shipped image = done ++ app :: rest ∧
    (done.foldl place start).records.length < maxApps

def IsOf (record : AppRecord) (app : Shipped) : Prop :=
  ∃ hdr, parseHeader app.bundle = some hdr ∧ record = recordOf app.bundle hdr record.id true ∧
    ∀ id, app.id = some id → record.id = id

def AllRegistered (image : Image) (start final : AppTable) : Prop :=
  ∀ app, Fits image start app → (parseHeader app.bundle).isSome = true →
    ∃ record ∈ final.records, IsOf record app

def Spared (image : Image) (start : AppTable) (record : AppRecord) : Prop :=
  ∀ app, Fits image start app → ∀ hdr, parseHeader app.bundle = some hdr →
    app.id ≠ some record.id ∧ trimmed record.name ≠ trimmed hdr.name

def Named (image : Image) : Prop :=
  ∀ first ∈ shipped image, ∀ second ∈ shipped image, ∀ one other,
    parseHeader first.bundle = some one → parseHeader second.bundle = some other →
    trimmed one.name = trimmed other.name →
    first.bundle = second.bundle ∧
      ∀ id, first.id = some id → ∀ id', second.id = some id' → id = id'

variable {app : Shipped}

lemma IsOf.system (isOf : IsOf record app) : record.system := by
  obtain ⟨_, _, same, _⟩ := isOf
  rw [same]
  rfl

lemma IsOf.name {hdr : BundleHeader} (isOf : IsOf record app)
    (parsed : parseHeader app.bundle = some hdr) : record.name = hdr.name := by
  obtain ⟨_, parsedOther, same, _⟩ := isOf
  obtain rfl := some.inj (parsed.symm.trans parsedOther)
  rw [same]
  rfl

lemma place_step (distinct : Distinct table) (small : ∀ id, app.id = some id → id < 2 ^ 32) :
    Distinct (place table app) ∧
      ((place table app).records = table.records ∧
          (∀ hdr, parseHeader app.bundle = some hdr → table.records.length < maxApps →
            ∃ other ∈ table.records,
              app.id = some other.id ∨ trimmed other.name = trimmed hdr.name) ∨
        ∃ added, IsOf added app ∧ Gains table (place table app) added) := by
  obtain ⟨bundle, numbered⟩ := app
  cases numbered with
  | some id =>
    obtain ⟨kept, ⟨same, refused⟩ | ⟨hdr, parsed, gains⟩⟩ :=
      @installRecord_step table bundle true id distinct (small id rfl)
    · refine ⟨kept, .inl ⟨same, fun hdr parsed room => ?_⟩⟩
      by_contra none
      push Not at none
      refine Nat.not_le_of_lt room (refused hdr parsed fun other member => ?_)
      obtain ⟨otherId, otherName⟩ := none other member
      exact ⟨fun equal => otherId (congrArg some equal), fun equal => otherName equal.symm⟩
    · refine ⟨kept, .inr ⟨_, ⟨hdr, parsed, rfl, fun other same => ?_⟩, gains⟩⟩
      exact some.inj same
  | none =>
    obtain ⟨kept, ⟨same, refused⟩ | ⟨hdr, id, parsed, gains⟩⟩ :=
      @installRecordAutoId_step table bundle true distinct
    · refine ⟨kept, .inl ⟨same, fun hdr parsed room => ?_⟩⟩
      by_contra none
      push Not at none
      exact Nat.not_le_of_lt room (refused hdr parsed fun other member => (none other member).2)
    · exact ⟨kept, .inr ⟨_, ⟨hdr, parsed, rfl, nofun⟩, gains⟩⟩

structure Filled (start table : AppTable) (done : List Shipped) : Prop where
  distinct : Distinct table
  mono : ∀ record ∈ start.records, record ∈ table.records
  only : ∀ record ∈ table.records, record ∈ start.records ∨ ∃ app ∈ done, IsOf record app

lemma foldl_place {start : AppTable} (distinct : Distinct start) (apps : List Shipped)
    (small : ∀ app ∈ apps, ∀ id, app.id = some id → id < 2 ^ 32) :
    Filled start (apps.foldl place start) apps := by
  induction apps using reverseRecOn with
  | nil => exact ⟨distinct, fun _ member => member, fun _ member => .inl member⟩
  | append_singleton done app ih =>
    have before := ih fun other member => small other (mem_append_left _ member)
    rw [foldl_append, foldl_cons, foldl_nil]
    obtain ⟨kept, ⟨same, _⟩ | ⟨_, isOf, gains⟩⟩ :=
      place_step before.distinct (small app (by simp))
    · refine ⟨kept, fun record member => same ▸ before.mono record member, ?_⟩
      intro record member
      rw [same] at member
      refine (before.only record member).imp_right ?_
      rintro ⟨other, earlier, isOf⟩
      exact ⟨other, mem_append_left _ earlier, isOf⟩
    refine ⟨kept, fun record member => gains.mem_iff.2 (.inr (before.mono record member)), ?_⟩
    intro record member
    rcases gains.mem_iff.1 member with rfl | old
    · exact .inr ⟨app, by simp, isOf⟩
    refine (before.only record old).imp_right ?_
    rintro ⟨other, earlier, isOf⟩
    exact ⟨other, mem_append_left _ earlier, isOf⟩

lemma shipped_small (member : app ∈ shipped image) (id : Nat)
    (numbered : app.id = some id) : id < 2 ^ 32 := by
  rcases mem_append.1 member with core | other
  · obtain ⟨⟨_, _⟩, listed, mapped⟩ := mem_filterMap.1 core
    obtain ⟨bundle, _, rfl⟩ := map_eq_some_iff.1 mapped
    cases numbered
    simp only [Image.core, mem_cons, not_mem_nil, or_false, Prod.mk.injEq] at listed
    omega
  · obtain ⟨bundle, _, rfl⟩ := mem_map.1 other
    cases numbered

lemma shipped_numbered (image : Image) :
    (shipped image).Pairwise fun first later =>
      ∀ id, later.id = some id → ∃ other, first.id = some other ∧ other ≠ id := by
  refine pairwise_append.2 ⟨?_, ?_, ?_⟩
  · have numbers : image.core.Pairwise fun first later => first.2 ≠ later.2 := by
      simp [Image.core]
    refine numbers.filterMap _ ?_
    rintro ⟨_, id⟩ ⟨_, _⟩ differ first one later two _ numbered
    obtain ⟨bundle, _, rfl⟩ := map_eq_some_iff.1 one
    obtain ⟨_, _, rfl⟩ := map_eq_some_iff.1 two
    cases numbered
    exact ⟨id, rfl, differ⟩
  · exact pairwise_map.2 (pairwise_of_forall fun _ _ _ => by rintro ⟨⟩)
  intro first _ later other id numbered
  obtain ⟨bundle, _, rfl⟩ := mem_map.1 other
  cases numbered

section Boot

variable {start : AppTable} (distinct : Distinct start)

include distinct

lemma installSystemApps_filled (image : Image) :
    Filled start (installSystemApps image start) (shipped image) := by
  rw [installSystemApps_eq]
  exact foldl_place distinct _ fun app member => shipped_small member

lemma registered_of_spared (named : Named image)
    (spared : ∀ record ∈ start.records, Spared image start record) :
    AllRegistered image start (installSystemApps image start) := by
  rintro app ⟨done, rest, split, room⟩ parses
  obtain ⟨hdr, parsed⟩ := isSome_iff_exists.1 parses
  have fits : Fits image start app := ⟨done, rest, split, room⟩
  have member : ∀ other ∈ done, other ∈ shipped image := fun other earlier =>
    split ▸ mem_append_left _ earlier
  have here : app ∈ shipped image := split ▸ mem_append_right _ mem_cons_self
  have before := foldl_place distinct done fun other earlier => shipped_small (member other earlier)
  have after : ∀ record ∈ (place (done.foldl place start) app).records,
      record ∈ (installSystemApps image start).records := by
    rw [installSystemApps_eq, split, foldl_append, foldl_cons]
    refine (foldl_place (place_step before.distinct (shipped_small here)).1 rest ?_).mono
    exact fun other later => shipped_small (split ▸ mem_append_right _ (mem_cons_of_mem _ later))
  obtain ⟨_, ⟨same, refused⟩ | ⟨added, isOf, gains⟩⟩ :=
    place_step before.distinct (shipped_small here)
  · obtain ⟨other, held, taken⟩ := refused hdr parsed room
    rcases before.only other held with stored | ⟨earlier, listed, isOf⟩
    · obtain ⟨freeId, freeName⟩ := spared other stored app fits hdr parsed
      exact absurd taken (not_or_intro freeId freeName)
    -- an earlier system app has another id, and with the same name it is the same bundle
    have order : ∀ id, app.id = some id → ∃ number, earlier.id = some number ∧ number ≠ id := by
      have pairs := shipped_numbered image
      rw [split] at pairs
      exact (pairwise_append.1 pairs).2.2 earlier listed app mem_cons_self
    obtain ⟨otherHdr, otherParsed, otherSame, otherId⟩ := isOf
    have byName : trimmed other.name = trimmed hdr.name := by
      refine taken.resolve_left fun numbered => ?_
      obtain ⟨number, earlierId, differ⟩ := order other.id numbered
      exact differ (otherId number earlierId).symm
    have sameName : trimmed otherHdr.name = trimmed hdr.name := by
      rw [← byName, otherSame]
      rfl
    obtain ⟨bundles, ids⟩ := named earlier (member earlier listed) app here otherHdr hdr otherParsed
      parsed sameName
    refine ⟨other, after other (same ▸ held), otherHdr, ?_, ?_, ?_⟩
    · rw [← bundles, otherParsed]
    · rw [← bundles]
      exact otherSame
    intro id numbered
    obtain ⟨number, earlierId, differ⟩ := order id numbered
    exact absurd (ids number earlierId id numbered) differ
  · exact ⟨added, after added (gains.mem_iff.2 (.inl rfl)), isOf⟩

lemma spared_of_registered (users : ∀ record ∈ start.records, record.system = false)
    (registered : AllRegistered image start (installSystemApps image start)) :
    ∀ record ∈ start.records, Spared image start record := by
  intro record stored app fits hdr parsed
  obtain ⟨other, held, isOf⟩ := registered app fits (by rw [parsed]; rfl)
  have filled := installSystemApps_filled distinct image
  have differ : other ≠ record := by
    rintro rfl
    have isSystem := isOf.system
    rw [users other stored] at isSystem
    cases isSystem
  have apart := filled.distinct.apart.forall held (filled.mono record stored) differ
  refine ⟨fun numbered => apart.1 ?_, fun named => apart.2 ?_⟩
  · obtain ⟨_, _, _, numbers⟩ := isOf
    exact numbers record.id numbered
  · rw [isOf.name parsed, named]

end Boot

lemma foldl_installFromStore {entries : List CatalogEntry} {bundleOf : CatalogEntry → Bundle}
    (small : ∀ entry ∈ entries, entry.id < 2 ^ 32) (distinct : Distinct table)
    (users : ∀ record ∈ table.records, record.system = false) :
    let final := entries.foldl
      (fun table entry => (table.installFromStore (bundleOf entry) entry.id).1) table
    Distinct final ∧ ∀ record ∈ final.records, record.system = false := by
  induction entries generalizing table with
  | nil => exact ⟨distinct, users⟩
  | cons entry rest ih =>
    obtain ⟨kept, cases⟩ := @installRecord_step table (bundleOf entry) false entry.id distinct
      (small entry mem_cons_self)
    refine ih (fun other later => small other (mem_cons_of_mem _ later)) kept ?_
    intro record member
    rcases cases with ⟨same, _⟩ | ⟨_, _, gains⟩
    · exact users record (same ▸ member)
    rcases gains.mem_iff.1 member with rfl | old
    · rfl
    · exact users record old

lemma restored_spec (disk : Disk) :
    Distinct (restored disk) ∧ ∀ record ∈ (restored disk).records, record.system = false := by
  refine foldl_installFromStore (fun entry member => ?_) distinct_empty ?_
  · exact (readCatalog_fits member).1.id
  · exact fun record member => nomatch member

def canvasImage : Image := { canvas := some (tinyBundle 65) }

lemma shipped_canvasImage : shipped canvasImage = [⟨tinyBundle 65, some 1⟩] := rfl

lemma named_canvasImage : Named canvasImage := by
  intro first one second two _ _ _ _ _
  rw [shipped_canvasImage, mem_singleton] at one two
  subst one two
  exact ⟨rfl, fun id numbered id' numbered' => some.inj (numbered.symm.trans numbered')⟩

lemma installSystemApps_none (table : AppTable) : installSystemApps {} table = table := rfl

lemma restored_blankDisk : restored blankDisk = {} := by
  have registry := (@boot_format {} blankDisk blankDisk_fresh).2.1
  rw [boot_registry, installSystemApps_none, installSystemApps_none] at registry
  exact registry

def takenEntry : CatalogEntry :=
  { flags := 1
    id := 1
    name := 66 :: List.replicate 63 0
    version := List.replicate 16 0
    entryOffset := 0
    stackSize := 0
    dataSector := 64
    bundleSectors := 1
    bundleBytes := 112
    pad := 0 }

lemma takenEntry_fits : takenEntry.Fits := by
  constructor <;> decide

def takenDisk : Disk :=
  writeSuperblock
    (writeCatalog (writeSectors blankDisk 64 1 (resize (tinyBundle 66) 512))
      (List.replicate 5 takenEntry) fun _ => 0)
    { nextAppId := 2, nextDataSector := 65, entryCount := 5 }

lemma readCatalog_takenDisk : readCatalog (selfTest takenDisk) = [takenEntry] := by
  have places : readCatalog (selfTest takenDisk) = (range catalogEntries).filterMap
      fun index => if index < 4 then none else (replicate 5 takenEntry)[index]? := by
    refine filterMap_congr fun index member => ?_
    have inside := mem_range.1 member
    rw [entryAt_selfTest inside]
    congr 1
    rw [takenDisk, entryAt_congr inside fun place lower _ => writeSuperblock_outside (by omega)]
    refine entryAt_writeCatalog _ (fun entry member => ?_) (by decide) inside
    rw [eq_of_mem_replicate member]
    exact ⟨takenEntry_fits, rfl⟩
  rw [places]
  rfl

lemma bundle_takenDisk : bundleFromEntry (selfTest takenDisk) takenEntry = tinyBundle 66 := by
  have data : readSectors (selfTest takenDisk) 64 1 = resize (tinyBundle 66) 512 := by
    have same : readSectors (selfTest takenDisk) 64 1 =
        readSectors (writeSectors blankDisk 64 1 (resize (tinyBundle 66) 512)) 64 1 := by
      refine readSectors_congr fun place lower _ => ?_
      rw [selfTest_outside (.inr (by omega)), takenDisk, writeSuperblock_outside (by omega),
        writeCatalog_outside (.inr (by omega))]
    have length : (resize (tinyBundle 66) 512).length = 512 := by decide +kernel
    rw [same, writeSectors, take_of_length_le (by rw [length]; decide)]
    exact read_write_self length
  rw [bundleFromEntry]
  show take 112 (readSectors (selfTest takenDisk) 64 1) = _
  rw [data]
  decide +kernel

lemma restored_takenDisk : restored takenDisk = (installFromStore {} (tinyBundle 66) 1).1 := by
  obtain ⟨sb, written, _⟩ := @readSuperblock_write
    (writeCatalog (writeSectors blankDisk 64 1 (resize (tinyBundle 66) 512))
      (replicate 5 takenEntry) fun _ => 0)
    { nextAppId := 2, nextDataSector := 65, entryCount := 5 } (by decide)
  have opened : readSuperblock (selfTest takenDisk) = some sb := by
    rw [readSuperblock_congr fun place low => selfTest_outside (.inl low)]
    exact written
  have loaded : restored takenDisk = hydrateRegistry (selfTest takenDisk) {} := by
    simp [restored, opened]
  rw [loaded, hydrateRegistry, readCatalog_takenDisk, foldl_cons, foldl_nil, bundle_takenDisk]
  rfl

end OsCortex.AppStore
