import OsCortex.Store.VolumeFaults

/-!
What a volume still holds after failed writes and stops. A fault among the catalog sectors leaves an
entry on the disk whose sectors are given out again.
-/

namespace OsCortex.AppStore

open Bytes AppRegistry List Option State Prod Nat Volume

variable {image : AppTable.Image} {state : State} {volume next : Volume} {bundle : Bundle}
  {fault : Option Fault}

def Separate (one other : CatalogEntry) : Prop :=
  one.dataSector + one.bundleSectors ≤ other.dataSector ∨
    other.dataSector + other.bundleSectors ≤ one.dataSector

structure Consistent (volume : Volume) : Prop where
  disjoint : (readCatalog volume.store.disk).Pairwise Separate
  created : ∀ entry ∈ readCatalog volume.store.disk, ∃ bundle, (entry, bundle) ∈ volume.created
  restored : ∀ entry ∈ readCatalog volume.store.disk, ∀ bundle,
    (entry, bundle) ∈ volume.created → bundleFromEntry volume.store.disk entry = bundle

def Whole (fault : Option Fault) (data : Nat) : Prop :=
  ∀ hit ∈ fault, hit.done < data ∨ hit.done = data ∧ hit.failed = none ∨
    data + catalogSectors ≤ hit.done

/-- The fields of the entry hold the length of the bundle, no fault is among the catalog sectors,
and a machine that comes up finds the superblock of the last change. -/
def Guarded (volume : Volume) : Call → Prop
  | .persistBundle _ bundle _ fault =>
    bundle.length < 2 ^ 32 ∧
      volume.store.nextDataSector + sectorsForBytes bundle.length < 2 ^ 64 ∧
      Whole fault (sectorsForBytes bundle.length)
  | .removeBundle _ _ fault => Whole fault 0
  | .reboot => (readSuperblock volume.store.disk).map (·.nextDataSector) =
      some volume.store.nextDataSector

variable {place : Nat} {answer : Except Halt (Option Fault)}

section Write

variable {disk result : Disk} {sector count : Nat} {data : List UInt8} {rest : Option Fault}

lemma tryWrite_outside
    (wrote : tryWrite disk sector count data fault = (result, answer))
    (outside : place < sector * 512 ∨ (sector + count) * 512 ≤ place) :
    result place = disk place := by
  cases fault with
  | none =>
    obtain ⟨rfl, _⟩ := mk.inj wrote
    exact writeSectors_outside outside
  | some hit =>
    simp only [tryWrite] at wrote
    split at wrote
    · obtain ⟨rfl, _⟩ := mk.inj wrote
      exact writeSectors_outside outside
    have near : place < sector * 512 ∨ (sector + hit.done) * 512 ≤ place :=
      outside.imp_right (le_trans (mul_le_mul_right _ (by omega)))
    have past : place < (sector + hit.done) * 512 ∨ (sector + hit.done + 1) * 512 ≤ place :=
      outside.imp (fun low => lt_of_lt_of_le low (mul_le_mul_right _ (by omega)))
        (le_trans (mul_le_mul_right _ (by omega)))
    split at wrote
    · obtain ⟨rfl, _⟩ := mk.inj wrote
      rw [writeSectors_outside past, writeSectors_outside near]
    · obtain ⟨rfl, _⟩ := mk.inj wrote
      exact writeSectors_outside near

lemma tryWrite_ok
    (wrote : tryWrite disk sector count data fault = (result, .ok rest)) :
    result = writeSectors disk sector count data ∧
      ∀ later ∈ rest, ∃ hit ∈ fault, hit.done = later.done + count ∧ hit.failed = later.failed := by
  cases fault with
  | none =>
    obtain ⟨rfl, same⟩ := mk.inj wrote
    obtain rfl := Except.ok.inj same
    exact ⟨rfl, nofun⟩
  | some hit =>
    simp only [tryWrite] at wrote
    split at wrote
    · rename_i enough
      obtain ⟨rfl, same⟩ := mk.inj wrote
      obtain rfl := Except.ok.inj same
      refine ⟨rfl, fun later among => ⟨hit, rfl, ?_, ?_⟩⟩
      · obtain rfl := some.inj among
        exact (Nat.sub_add_cancel enough).symm
      · obtain rfl := some.inj among
        rfl
    split at wrote
    all_goals cases (mk.inj wrote).2

lemma Whole.later {more : Nat} (whole : Whole fault (count + more))
    (wrote : tryWrite disk sector count data fault = (result, .ok rest)) : Whole rest more := by
  intro later among
  obtain ⟨hit, present, _, failed⟩ := (tryWrite_ok wrote).2 later among
  rcases whole hit present with _ | ⟨exact, stops⟩ | _
  · exact .inl (by omega)
  · exact .inr (.inl ⟨by omega, failed ▸ stops⟩)
  · exact .inr (.inr (by omega))

lemma tryWrite_whole {halt : Halt} (whole : Whole fault 0)
    (wrote : tryWrite disk sector catalogSectors data fault = (result, .error halt)) :
    result = disk := by
  cases fault with
  | none => cases (mk.inj wrote).2
  | some hit =>
    simp only [tryWrite] at wrote
    split at wrote
    · cases (mk.inj wrote).2
    rcases whole hit rfl with early | ⟨first, stops⟩ | _
    · cases early
    · simp only [stops, first] at wrote
      obtain ⟨rfl, _⟩ := mk.inj wrote
      funext place
      exact writeSectors_outside (by omega)
    · omega

end Write

def Reaches (next ideal : State) : Prop :=
  next.nextDataSector = ideal.nextDataSector ∧
    ∀ place, 512 ≤ place → next.disk place = ideal.disk place

lemma reaches_superblock {disk final : Disk} {sb written : Superblock}
    (wrote : tryWrite disk superSector 1 (encodeSuperblock sb) fault = (final, answer))
    (high : 512 ≤ place) : final place = writeSuperblock disk written place := by
  rw [tryWrite_outside wrote (.inr (by simpa [superSector] using high)),
    writeSuperblock_outside high]

variable {hdr : BundleHeader} {appId : Nat} {after : Nat → Nat}

lemma tryPersist_cases
    (parsed : parseHeader bundle = some hdr) (start : dataStartSector ≤ state.nextDataSector)
    (whole : Whole fault (sectorsForBytes bundle.length)) :
    let next := (state.tryPersist appId bundle after fault).1
    (next.nextDataSector = state.nextDataSector ∧
      ∀ place < state.nextDataSector * 512, next.disk place = state.disk place) ∨
    ((readCatalog state.disk).length < catalogEntries ∧
      Reaches next (state.persistBundle appId bundle after).1) := by
  have begins : 6656 ≤ state.nextDataSector * 512 := by
    simp only [dataStartSector] at start
    omega
  simp only [tryPersist, persistBundle, parsed]
  split
  · rename_i disk halt wrote
    exact .inl ⟨rfl, fun place low => tryWrite_outside wrote (.inl low)⟩
  rename_i disk rest wrote
  have below : ∀ place < state.nextDataSector * 512, disk place = state.disk place :=
    fun place low => tryWrite_outside wrote (.inl low)
  have catalog : readCatalog disk = readCatalog state.disk :=
    readCatalog_congr fun place _ upper => below place (by omega)
  have spared : Whole rest 0 := Whole.later whole wrote
  obtain ⟨rfl, _⟩ := tryWrite_ok wrote
  split
  · exact .inl ⟨rfl, below⟩
  split
  · rename_i halt listed
    rw [tryWrite_whole spared listed]
    exact .inl ⟨rfl, below⟩
  rename_i listed rest wrote
  obtain ⟨rfl, _⟩ := tryWrite_ok wrote
  refine .inr ⟨by rw [← catalog]; omega, ?_⟩
  split
  all_goals
    rename_i last
    exact ⟨rfl, fun place high => reaches_superblock last high⟩

lemma tryRemove_cases (whole : Whole fault 0) : let next := (state.tryRemove appId after fault).1
    next = state ∨ Reaches next (state.removeBundle appId after).1 := by
  simp only [tryRemove, removeBundle]
  split
  · exact .inl rfl
  split
  · rename_i halt listed
    rw [tryWrite_whole whole listed]
    exact .inl rfl
  rename_i listed rest wrote
  obtain ⟨rfl, _⟩ := tryWrite_ok wrote
  refine .inr ?_
  split
  all_goals
    rename_i last
    exact ⟨rfl, fun place high => reaches_superblock last high⟩

structure Laid (volume : Volume) : Prop where
  start : dataStartSector ≤ volume.store.nextDataSector
  far : volume.store.nextDataSector < 2 ^ 64
  within : ∀ entry ∈ readCatalog volume.store.disk, dataStartSector ≤ entry.dataSector ∧
    entry.dataSector + entry.bundleSectors ≤ volume.store.nextDataSector
  used : ∀ made ∈ volume.created, made.1.dataSector < volume.store.nextDataSector
  consistent : Consistent volume

variable {entry : CatalogEntry}

lemma bundleFromEntry_congr {disk other : Disk}
    (same : ∀ place, entry.dataSector * 512 ≤ place →
      place < (entry.dataSector + entry.bundleSectors) * 512 → other place = disk place) :
    bundleFromEntry other entry = bundleFromEntry disk entry := by
  rw [bundleFromEntry, readSectors_congr same, bundleFromEntry]

lemma sectors_pos (parsed : parseHeader bundle = some hdr)
    (small : bundle.length < 2 ^ 32) : 0 < sectorsForBytes bundle.length := by
  have long : headerSize ≤ bundle.length := by
    by_contra short
    simp only [parseHeader, if_pos (Nat.lt_of_not_le short)] at parsed
    cases parsed
  simp only [headerSize] at long
  rw [sectorsForBytes_eq small]
  omega

section

variable (laid : Laid volume)
include laid

lemma Laid.thin (same : next.created = volume.created)
    (sector : next.store.nextDataSector = volume.store.nextDataSector)
    (fewer : (readCatalog next.store.disk).Sublist (readCatalog volume.store.disk))
    (frame : ∀ place, dataStartSector * 512 ≤ place → place < volume.store.nextDataSector * 512 →
      next.store.disk place = volume.store.disk place) : Laid next := by
  have kept := fewer.subset
  refine ⟨sector ▸ laid.start, sector ▸ laid.far, fun entry member => ?_, fun made member => ?_,
    laid.consistent.disjoint.sublist fewer, fun entry member => ?_,
    fun entry member bundle made => ?_⟩
  · rw [sector]
    exact laid.within entry (kept member)
  · rw [sector]
    exact laid.used made (same ▸ member)
  · rw [same]
    exact laid.consistent.created entry (kept member)
  obtain ⟨lower, upper⟩ := laid.within entry (kept member)
  rw [bundleFromEntry_congr fun place low high => frame place
    (le_trans (mul_le_mul_right _ lower) low)
    (lt_of_lt_of_le high (mul_le_mul_right _ upper))]
  exact laid.consistent.restored entry (kept member) bundle (same ▸ made)

lemma Laid.grow (same : next.created = (entry, bundle) :: volume.created)
    (placed : entry.dataSector = volume.store.nextDataSector) (some : 0 < entry.bundleSectors)
    (sector : next.store.nextDataSector = volume.store.nextDataSector + entry.bundleSectors)
    (far : next.store.nextDataSector < 2 ^ 64)
    (catalog : readCatalog next.store.disk = readCatalog volume.store.disk ++ [entry])
    (data : bundleFromEntry next.store.disk entry = bundle)
    (frame : ∀ place, dataStartSector * 512 ≤ place → place < volume.store.nextDataSector * 512 →
      next.store.disk place = volume.store.disk place) : Laid next := by
  have start := laid.start
  have fresh : ∀ other, (entry, other) ∉ volume.created := by
    intro other made
    have before : entry.dataSector < volume.store.nextDataSector := laid.used _ made
    omega
  refine ⟨by omega, far, fun other member => ?_, fun made member => ?_, ?_, fun other member => ?_,
    fun other member old made => ?_⟩
  · rw [catalog, mem_append, mem_singleton] at member
    rcases member with before | rfl
    · have bounds := laid.within other before
      omega
    · omega
  · rw [same, mem_cons] at member
    rcases member with rfl | before
    · show entry.dataSector < _
      omega
    · have bound := laid.used made before
      omega
  · rw [catalog, pairwise_append]
    refine ⟨laid.consistent.disjoint, pairwise_singleton .., fun one member last only => ?_⟩
    obtain rfl := mem_singleton.1 only
    have bounds := laid.within one member
    exact .inl (by omega)
  · rw [catalog, mem_append, mem_singleton] at member
    rw [same]
    rcases member with before | rfl
    · obtain ⟨old, made⟩ := laid.consistent.created other before
      exact ⟨old, mem_cons_of_mem _ made⟩
    · exact ⟨bundle, mem_cons_self⟩
  rw [catalog, mem_append, mem_singleton] at member
  rw [same, mem_cons] at made
  rcases member with before | rfl
  · obtain ⟨lower, upper⟩ := laid.within other before
    have differs : other ≠ entry := by
      rintro rfl
      omega
    rw [bundleFromEntry_congr fun place low high => frame place
      (le_trans (mul_le_mul_right _ lower) low)
      (lt_of_lt_of_le high (mul_le_mul_right _ upper))]
    refine laid.consistent.restored other before old (made.resolve_left fun both => ?_)
    exact differs (mk.inj both).1
  rcases made with both | before
  · rw [data, (mk.inj both).2]
  · exact absurd before (fresh old)

lemma persist_laid {up : Bool} (parsed : parseHeader bundle = some hdr) (id : appId < 2 ^ 32)
    (small : bundle.length < 2 ^ 32)
    (sectors : volume.store.nextDataSector + sectorsForBytes bundle.length < 2 ^ 64)
    (whole : Whole fault (sectorsForBytes bundle.length)) :
    let store := (volume.store.tryPersist appId bundle after fault).1
    Laid { store, up, created := volume.record appId bundle store } := by
  have some := sectors_pos parsed small
  have start := laid.start
  obtain ⟨store, same⟩ : ∃ store, store = (volume.store.tryPersist appId bundle after fault).1 :=
    ⟨_, rfl⟩
  have cases := @tryPersist_cases volume.store bundle fault hdr appId after parsed laid.start whole
  simp only [← same] at cases ⊢
  rcases cases with ⟨sector, below⟩ | ⟨room, sector, beyond⟩
  · have catalog : readCatalog store.disk = readCatalog volume.store.disk := by
      simp only [dataStartSector] at start
      exact readCatalog_congr fun place _ upper => below place (by omega)
    have absent : entryOf volume.store appId bundle hdr ∉ readCatalog store.disk := by
      intro member
      have bounds := laid.within _ (catalog ▸ member)
      simp only [entryOf] at bounds
      omega
    have unrecorded : volume.record appId bundle store = volume.created := by
      simp [record, parsed, if_neg absent]
    have fewer : (readCatalog store.disk).Sublist (readCatalog volume.store.disk) := by
      rw [catalog]
    exact laid.thin unrecorded sector fewer fun place _ low => below place low
  have ideal := @persistBundle_spec volume.store hdr appId bundle after laid.start parsed
    ⟨room, small, sectors⟩ id
  have catalog : readCatalog store.disk =
      readCatalog volume.store.disk ++ [entryOf volume.store appId bundle hdr] := by
    rw [← ideal.catalog]
    exact readCatalog_congr fun place lower _ => beyond place lower
  have recorded : volume.record appId bundle store =
      (entryOf volume.store appId bundle hdr, bundle) :: volume.created := by
    simp [record, parsed, catalog]
  simp only [dataStartSector] at start
  refine laid.grow recorded rfl some (sector.trans ideal.nextDataSector) ?_ catalog ?_ ?_
  · show store.nextDataSector < _
    rw [sector, ideal.nextDataSector]
    exact sectors
  · refine Eq.trans (bundleFromEntry_congr fun place low _ => beyond place ?_) ideal.data
    simp only [entryOf] at low
    omega
  intro place lower upper
  rw [← ideal.frame place lower upper]
  simp only [dataStartSector] at lower
  exact beyond place (by omega)

lemma remove_laid {up : Bool} (whole : Whole fault 0) :
    Laid { volume with store := (volume.store.tryRemove appId after fault).1, up } := by
  obtain ⟨store, same⟩ : ∃ store, store = (volume.store.tryRemove appId after fault).1 := ⟨_, rfl⟩
  have cases := @tryRemove_cases volume.store fault appId after whole
  simp only [← same] at cases ⊢
  rcases cases with rfl | ⟨sector, beyond⟩
  · exact laid.thin rfl rfl (Sublist.refl _) fun _ _ _ => rfl
  obtain ⟨filtered, frame⟩ := @removeBundle_catalog volume.store appId after
  have catalog : readCatalog store.disk =
      (readCatalog volume.store.disk).filter fun entry => entry.id ≠ appId := by
    rw [← filtered]
    exact readCatalog_congr fun place lower _ => beyond place lower
  have still : (volume.store.removeBundle appId after).1.nextDataSector =
      volume.store.nextDataSector := by
    simp only [removeBundle]
    split <;> rfl
  have fewer : (readCatalog store.disk).Sublist (readCatalog volume.store.disk) := by
    rw [catalog]
    exact filter_sublist
  refine laid.thin rfl (sector.trans still) fewer fun place lower _ => ?_
  rw [← frame place lower]
  simp only [dataStartSector] at lower
  exact beyond place (by omega)

lemma reboot_laid (current : (readSuperblock volume.store.disk).map (·.nextDataSector) =
      some volume.store.nextDataSector) (owed : List (Nat × List UInt8)) :
    Laid { volume with store := boot image volume.store.disk owed, up := true } := by
  obtain ⟨sb, opened, _⟩ := map_eq_some_iff.1 current
  obtain ⟨disk, sector, _⟩ := @boot_opened image volume.store.disk sb owed opened
  have start := laid.start
  refine laid.thin rfl (sector.trans (by omega)) ?_ fun place lower _ => ?_
  · show (readCatalog (boot image volume.store.disk owed).disk).Sublist _
    rw [disk]
    exact readCatalog_selfTest_sublist
  rw [disk]
  simp only [dataStartSector] at lower
  exact selfTest_outside (.inr (by omega))

lemma step_laid {call : Call} (guarded : Guarded volume call)
    (taken : volume.step image call = some next) : Laid next := by
  cases call with
  | persistBundle appId bundle after fault =>
    obtain ⟨small, sectors, whole⟩ := guarded
    simp only [Volume.step] at taken
    split at taken
    · obtain rfl := some.inj taken
      cases parsed : parseHeader bundle with
      | some hdr => exact persist_laid laid parsed (mod_lt _ (by decide)) small sectors whole
      | none =>
        simp only [tryPersist, record, parsed]
        exact laid.thin rfl rfl (Sublist.refl _) fun _ _ _ => rfl
    · cases taken
  | removeBundle appId after fault =>
    simp only [Volume.step] at taken
    split at taken
    · obtain rfl := some.inj taken
      exact remove_laid laid guarded
    · cases taken
  | reboot =>
    obtain rfl := some.inj taken
    exact reboot_laid laid guarded _

end

lemma fresh_laid {disk : Disk} (fresh : readSuperblock disk = none) :
    Laid { store := boot image disk [], up := true, created := [] } := by
  obtain ⟨catalog, _, sector, _⟩ := @boot_format image disk fresh
  have none : ∀ entry, entry ∉ readCatalog (boot image disk []).disk := by
    intro entry
    rw [catalog]
    exact not_mem_nil
  refine ⟨le_of_eq sector.symm, ?_, fun entry member => absurd member (none entry), nofun, ?_,
    fun entry member => absurd member (none entry), fun entry member => absurd member (none entry)⟩
  · show (boot image disk []).nextDataSector < _
    rw [sector]
    decide
  rw [catalog]
  exact Pairwise.nil

theorem entries_keep_bundles (reached : (volumes image).Reachable Guarded volume) :
    Consistent volume := by
  have laid : Laid volume := by
    refine reached.invariant ?_ fun _ call _ laid guarded taken => step_laid laid guarded taken
    rintro _ ⟨_, fresh, rfl⟩
    exact fresh_laid fresh
  exact laid.consistent

section Torn

variable {disk : Disk}

lemma writeSectors_front {sector count more : Nat} {data : List UInt8}
    (fewer : count ≤ more) (low : place < (sector + count) * 512) :
    writeSectors disk sector count data place = writeSectors disk sector more data place := by
  by_cases before : place < sector * 512
  · rw [writeSectors_outside (.inl before), writeSectors_outside (.inl before)]
  have inside : place - sector * sectorSize < count * sectorSize := by
    simp only [sectorSize]
    omega
  have further : place - sector * sectorSize < more * sectorSize :=
    lt_of_lt_of_le inside (mul_le_mul_right _ fewer)
  simp only [writeSectors, Store.write]
  rw [getElem?_take_of_lt inside, getElem?_take_of_lt further]

lemma writeSectors_nil (sector count : Nat) : writeSectors disk sector count [] = disk := by
  funext place
  simp [writeSectors, Store.write]

lemma entryAt_torn {entries : List CatalogEntry} {index count : Nat} (after : Nat → Nat)
    (fits : ∀ entry ∈ entries, entry.Fits ∧ entry.flags = 1)
    (room : entries.length ≤ catalogEntries) (inside : index < catalogEntries)
    (some : count ≤ catalogSectors) :
    entryAt (writeSectors disk catalogSector count (encodeCatalog entries after)) index =
      if index < 4 * count then entries[index]? else entryAt disk index := by
  split
  · rw [← @entryAt_writeCatalog disk index entries after fits room inside]
    refine entryAt_congr inside fun place _ upper => writeSectors_front some ?_
    simp only [catalogSector]
    omega
  refine entryAt_congr inside fun place lower _ => writeSectors_outside (.inr ?_)
  simp only [catalogSector]
  omega

lemma readCatalog_torn (after : Nat → Nat) (fits : entry.Fits)
    (flagged : entry.flags = 1) (empty : readCatalog disk = []) :
    readCatalog (writeSectors disk catalogSector 1 (encodeCatalog [entry] after)) = [entry] := by
  have places : readCatalog (writeSectors disk catalogSector 1 (encodeCatalog [entry] after)) =
      (range catalogEntries).filterMap fun index => [entry][index]? := by
    refine filterMap_congr fun index member => ?_
    have inside := mem_range.1 member
    rw [entryAt_torn after (fun other only => by
      obtain rfl := mem_singleton.1 only
      exact ⟨fits, flagged⟩) (le_of_ble_eq_true rfl) inside (by decide)]
    split
    · rfl
    rw [getElem?_eq_none (by simp only [length_singleton]; omega)]
    cases here : entryAt disk index with
    | none => rfl
    | some other =>
      have member := mem_readCatalog.2 ⟨index, inside, here⟩
      rw [empty] at member
      cases member
  rw [places, filterMap_getElem?]
  rfl

lemma tryPersist_torn (after : Nat → Nat)
    (parsed : parseHeader bundle = some hdr) (small : appId < 2 ^ 32)
    (start : dataStartSector = state.nextDataSector) (one : sectorsForBytes bundle.length = 1)
    (empty : readCatalog state.disk = []) :
    let result := state.tryPersist appId bundle after (some ⟨2, some []⟩)
    readCatalog result.1.disk = [entryOf state appId bundle hdr] ∧
      result.1.nextDataSector = state.nextDataSector ∧ running result.2 := by
  have catalog : readCatalog (writeSectors state.disk state.nextDataSector 1
      (resize bundle (1 * 512))) = [] := by
    rw [← empty]
    refine readCatalog_congr fun place _ upper => writeSectors_outside (.inl ?_)
    rw [← start]
    simp only [dataStartSector]
    omega
  have fits : (entryOf state appId bundle hdr).Fits :=
    entryOf_fits parsed small (by rw [← start]; decide)
  have torn := readCatalog_torn after fits rfl catalog
  have first : tryWrite state.disk state.nextDataSector 1 (resize bundle (1 * 512))
      (some ⟨2, some []⟩) = (writeSectors state.disk state.nextDataSector 1
        (resize bundle (1 * 512)), .ok (some ⟨1, some []⟩)) := by
    rfl
  have second (disk : Disk) (data : List UInt8) : tryWrite disk catalogSector catalogSectors data
      (some ⟨1, some []⟩) = (writeSectors disk catalogSector 1 data,
        .error (.error "virtio-blk: I/O error")) := by
    rw [tryWrite, if_neg (by decide)]
    dsimp only
    rw [writeSectors_nil]
  simp only [tryPersist, parsed, one, first, second, catalog, nil_append]
  exact ⟨torn, rfl, rfl⟩

end Torn

lemma tryPersist_none :
    (state.tryPersist appId bundle after none).1 = (state.persistBundle appId bundle after).1 := by
  simp only [tryPersist, persistBundle, tryWrite]
  cases parseHeader bundle with
  | none => rfl
  | some hdr =>
    dsimp only
    split
    · rfl
    · rfl

def secondBundle : Bundle :=
  magic ++ leBytes 4 1 ++ (0x42 :: List.replicate 63 0) ++ List.replicate 16 0 ++ leBytes 8 0 ++
    leBytes 8 0 ++ leBytes 4 1 ++ leBytes 4 0 ++ [8]

lemma secondBundle_parsed :
    ∃ hdr, parseHeader secondBundle = some hdr ∧ secondBundle.length = 113 :=
  ⟨_, rfl, by decide +kernel⟩

lemma blank_volume : ∃ volume, (volumes {}).start volume ∧ volume.up ∧
    readCatalog volume.store.disk = [] ∧ dataStartSector = volume.store.nextDataSector := by
  obtain ⟨catalog, _, sector, _⟩ := @boot_format {} blankDisk blankDisk_fresh
  exact ⟨_, ⟨blankDisk, blankDisk_fresh, rfl⟩, rfl, catalog, sector.symm⟩

lemma persist_taken (after : Nat → Nat) (fault : Option Fault)
    (up : volume.up) (small : appId < 2 ^ 32) :
    ∃ next, (volumes image).step volume (.persistBundle appId bundle after fault) = some next ∧
      next.store = (volume.store.tryPersist appId bundle after fault).1 ∧
      next.up = running (volume.store.tryPersist appId bundle after fault).2 ∧
      next.created = volume.record appId bundle next.store := by
  simp only [volumes, Volume.step, up, if_true, Nat.mod_eq_of_lt small]
  exact ⟨_, rfl, rfl, rfl, rfl⟩

lemma room_for_sample {bundle : Bundle} (length : bundle.length = 113)
    (few : (readCatalog state.disk).length < 2) (sector : dataStartSector = state.nextDataSector) :
    Room state bundle := by
  refine ⟨lt_trans few (by decide), by rw [length]; decide, ?_⟩
  rw [length, ← sector]
  decide

theorem entries_keep_bundles_sample : ∃ volume, (volumes {}).Reachable Guarded volume ∧
    (readCatalog volume.store.disk).length = 1 ∧ Consistent volume := by
  obtain ⟨_, _, parsed, _, _, _, length⟩ := sampleBundle_parsed
  obtain ⟨volume, begun, up, empty, sector⟩ := blank_volume
  have room : Room volume.store sampleBundle :=
    room_for_sample length (by rw [empty]; decide) sector
  obtain ⟨next, taken, store, _⟩ := @persist_taken {} volume sampleBundle 1 (fun _ => 0) none up
    (by decide)
  have persisted := persistBundle_spec (fun _ => 0) (le_of_eq sector) parsed room
    (show 1 < 2 ^ 32 by decide)
  rw [← tryPersist_none, ← store] at persisted
  have guarded : Guarded volume (.persistBundle 1 sampleBundle (fun _ => 0) none) :=
    ⟨room.bytes, room.sectors, nofun⟩
  have reached : (volumes {}).Reachable Guarded next := .step (.start begun) guarded taken
  refine ⟨next, reached, ?_, entries_keep_bundles reached⟩
  rw [persisted.catalog, empty]
  rfl

theorem torn_catalog_shares_sectors : ∃ volume, (volumes {}).Reachable Runs.anyStep volume ∧
    ¬ Consistent volume ∧ ∃ entry ∈ readCatalog volume.store.disk,
      (entry, sampleBundle) ∈ volume.created ∧
      bundleFromEntry volume.store.disk entry = secondBundle := by
  obtain ⟨hdr, _, parsed, _, _, _, length⟩ := sampleBundle_parsed
  obtain ⟨_, parsedSecond, lengthSecond⟩ := secondBundle_parsed
  obtain ⟨volume, begun, up, empty, sector⟩ := blank_volume
  have one : sectorsForBytes sampleBundle.length = 1 := by rw [length]; rfl
  obtain ⟨catalog, still, alive⟩ := @tryPersist_torn volume.store sampleBundle hdr 1 (fun _ => 0)
    parsed (by decide) sector one empty
  obtain ⟨torn, first, store, running, made⟩ := @persist_taken {} volume sampleBundle 1
    (fun _ => 0) (some ⟨2, some []⟩) up (by decide)
  rw [← store] at catalog still
  have listed : (entryOf volume.store 1 sampleBundle hdr, sampleBundle) ∈ torn.created := by
    simp [made, record, parsed, catalog]
  have free : dataStartSector = torn.store.nextDataSector := sector.trans still.symm
  have room : Room torn.store secondBundle :=
    room_for_sample lengthSecond (by rw [catalog]; exact one_lt_two) free
  obtain ⟨last, taken, storeLast, _, madeLast⟩ := @persist_taken {} torn secondBundle 2
    (fun _ => 0) none (running.trans alive) (by decide)
  have persisted := persistBundle_spec (fun _ => 0) (le_of_eq free) parsedSecond room
    (show 2 < 2 ^ 32 by decide)
  rw [← tryPersist_none, ← storeLast] at persisted
  have both := persisted.catalog
  rw [catalog, singleton_append] at both
  have reached : (volumes {}).Reachable Runs.anyStep last :=
    .step (.step (.start begun) trivial first) trivial taken
  refine ⟨last, reached, fun consistent => ?_, _, both ▸ mem_cons_self, ?_, ?_⟩
  · have separate := consistent.disjoint
    rw [both, pairwise_pair] at separate
    simp only [Separate, entryOf, length, lengthSecond, still] at separate
    have some : sectorsForBytes 113 = 1 := rfl
    omega
  · rw [madeLast]
    simp only [record, parsedSecond]
    split
    · exact mem_cons_of_mem _ listed
    · exact listed
  · rw [← persisted.data]
    simp [bundleFromEntry, entryOf, length, lengthSecond, still]

end OsCortex.AppStore
