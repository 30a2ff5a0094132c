import OsCortex.Store.AppStoreCore

/-! What is written to the superblock and the catalog is what is read back. -/

namespace OsCortex.AppStore

open Bytes List

variable {disk other : Disk}

structure CatalogEntry.Fits (entry : CatalogEntry) : Prop where
  flags : entry.flags < 256 ^ 4
  id : entry.id < 256 ^ 4
  name : entry.name.length = 64
  version : entry.version.length = 16
  entryOffset : entry.entryOffset < 256 ^ 8
  stackSize : entry.stackSize < 256 ^ 8
  dataSector : entry.dataSector < 256 ^ 8
  bundleSectors : entry.bundleSectors < 256 ^ 4
  bundleBytes : entry.bundleBytes < 256 ^ 4
  pad : entry.pad < 256 ^ 4

variable {bytes : List UInt8}

lemma ofLe_slice_lt {offset width : Nat} (inside : offset + width ≤ bytes.length) :
    ofLe (slice bytes offset width) < 256 ^ width := by
  have bound := ofLe_lt (slice bytes offset width)
  rwa [length_slice inside] at bound

lemma decodeEntry_fits (long : 124 ≤ bytes.length) : (decodeEntry bytes).Fits where
  flags := ofLe_slice_lt (by omega)
  id := ofLe_slice_lt (by omega)
  name := length_slice (by omega)
  version := length_slice (by omega)
  entryOffset := ofLe_slice_lt (by omega)
  stackSize := ofLe_slice_lt (by omega)
  dataSector := ofLe_slice_lt (by omega)
  bundleSectors := ofLe_slice_lt (by omega)
  bundleBytes := ofLe_slice_lt (by omega)
  pad := ofLe_slice_lt (by omega)

variable {entry : CatalogEntry}

lemma length_encodeEntry (fits : entry.Fits) : (encodeEntry entry).length = 124 := by
  simp [encodeEntry, fits.name, fits.version]

lemma decode_encode (fits : entry.Fits) (back : List UInt8) :
    decodeEntry (encodeEntry entry ++ back) = entry := by
  have name := fits.name
  have version := fits.version
  simp (disch := simp [name, version]) only [decodeEntry, encodeEntry, append_assoc,
    slice_append_right, slice_append_left, length_leBytes, name, version, Nat.reduceSub, slice_all,
    ofLe_leBytes fits.flags, ofLe_leBytes fits.id, ofLe_leBytes fits.entryOffset,
    ofLe_leBytes fits.stackSize, ofLe_leBytes fits.dataSector, ofLe_leBytes fits.bundleSectors,
    ofLe_leBytes fits.bundleBytes, ofLe_leBytes fits.pad]

variable {index : Nat}

lemma entryAt_eq (inside : index < catalogEntries) :
    entryAt disk index = validEntry (disk.read (512 + index * 128) 128) := by
  have bound : index * 128 + 128 ≤ 12 * 512 := by
    simp only [catalogEntries] at inside
    omega
  have same : slice (readSectors disk catalogSector catalogSectors) (index * catalogEntryBytes)
      catalogEntryBytes = disk.read (512 + index * 128) 128 := slice_read bound
  rw [entryAt, same]

lemma validEntry_fits (long : 124 ≤ bytes.length)
    (valid : validEntry bytes = some entry) : entry.Fits ∧ entry.flags = 1 := by
  obtain ⟨flagged, rfl⟩ := of_guard valid
  exact ⟨decodeEntry_fits long, flagged⟩

lemma entryAt_fits (inside : index < catalogEntries)
    (found : entryAt disk index = some entry) : entry.Fits ∧ entry.flags = 1 := by
  rw [entryAt_eq inside] at found
  exact validEntry_fits (by simp) found

lemma entryAt_congr (inside : index < catalogEntries)
    (same : ∀ place, 512 + index * 128 ≤ place → place < 512 + index * 128 + 128 →
      other place = disk place) : entryAt other index = entryAt disk index := by
  rw [entryAt_eq inside, entryAt_eq inside,
    read_congr fun i bound => same (512 + index * 128 + i) (by omega) (by omega)]

lemma validEntry_encode (fits : entry.Fits) (flagged : entry.flags = 1)
    (back : List UInt8) : validEntry (encodeEntry entry ++ back) = some entry := by
  rw [validEntry, decode_encode fits, if_pos flagged]

lemma validEntry_zeros : validEntry (replicate 128 0) = none := by
  decide

def placeBytes (entries : List CatalogEntry) (after : Nat → Nat) (index : Nat) : List UInt8 :=
  match entries[index]? with
  | some entry => encodeEntry entry ++ leBytes 4 (after index)
  | none => List.replicate 128 0

variable {entries : List CatalogEntry}

lemma encodeCatalog_slice (after : Nat → Nat)
    (fits : ∀ entry ∈ entries, entry.Fits) (room : entries.length ≤ catalogEntries)
    (inside : index < catalogEntries) :
    (encodeCatalog entries after).length = 12 * 512 ∧
      slice (encodeCatalog entries after) (index * 128) 128 = placeBytes entries after index := by
  have whole : entries.take catalogEntries = entries := take_of_length_le room
  have places : ∀ piece ∈ (entries.zipIdx.map fun place =>
      encodeEntry place.1 ++ leBytes 4 (after place.2)), piece.length = 128 := by
    intro piece member
    obtain ⟨⟨entry, index⟩, indexed, rfl⟩ := mem_map.1 member
    have entryFits := fits entry (fst_mem_of_mem_zipIdx indexed)
    simp [length_encodeEntry entryFits]
  have total := length_flatten places
  have count : (entries.zipIdx.map fun place =>
      encodeEntry place.1 ++ leBytes 4 (after place.2)).length = entries.length := by simp
  simp only [catalogEntries] at room inside
  constructor
  · simp only [encodeCatalog, whole, length_append, total, count, length_replicate,
      catalogSectors, sectorSize, catalogEntryBytes]
    omega
  simp only [encodeCatalog, whole, count, placeBytes]
  by_cases low : index < entries.length
  · rw [slice_flatten places (by omega)]
    simp [low]
  rw [slice_append_right _ _ (by omega), getElem?_eq_none (by omega)]
  simp only [catalogSectors, sectorSize, catalogEntryBytes, slice, drop_replicate, take_replicate]
  congr 1
  omega

lemma entryAt_writeCatalog (after : Nat → Nat)
    (fits : ∀ entry ∈ entries, entry.Fits ∧ entry.flags = 1)
    (room : entries.length ≤ catalogEntries) (inside : index < catalogEntries) :
    entryAt (writeCatalog disk entries after) index = entries[index]? := by
  obtain ⟨length, place⟩ := encodeCatalog_slice after (fun entry member => (fits entry member).1) room
    inside
  have bound : index * 128 + 128 ≤ (encodeCatalog entries after).length := by
    simp only [catalogEntries] at inside
    omega
  have written : writeCatalog disk entries after = disk.write 512 (encodeCatalog entries after) := by
    rw [writeCatalog, writeSectors, take_of_length_le (by rw [length]; decide)]
    rfl
  rw [entryAt_eq inside, written, read_write_inside bound, place, placeBytes]
  cases here : entries[index]? with
  | none => exact validEntry_zeros
  | some entry =>
    obtain ⟨fit, flagged⟩ := fits entry (mem_of_getElem? here)
    exact validEntry_encode fit flagged _

lemma validEntry_testPattern (low : index < 4) :
    validEntry (slice testPattern (index * 128) 128) = none := by
  match index, low with
  | 0, _ => decide +kernel
  | 1, _ => decide +kernel
  | 2, _ => decide +kernel
  | 3, _ => decide +kernel

lemma length_testPattern : testPattern.length = 512 := by
  rw [testPattern, length_append, length_replicate]
  rfl

lemma selfTest_eq : selfTest disk = disk.write 512 testPattern := by
  rw [selfTest, writeSectors, take_of_length_le (by rw [length_testPattern]; decide)]
  rfl

lemma entryAt_selfTest (inside : index < catalogEntries) :
    entryAt (selfTest disk) index = if index < 4 then none else entryAt disk index := by
  have length := length_testPattern
  split
  · rename_i low
    rw [entryAt_eq inside, selfTest_eq, read_write_inside (by omega)]
    exact validEntry_testPattern low
  rw [selfTest_eq]
  exact entryAt_congr inside fun place lower _ => write_outside (.inr (by omega))

lemma filterMap_getElem? {α : Type} (list : List α) (count : Nat) :
    (range count).filterMap (fun index => list[index]?) = list.take count := by
  induction count with
  | zero => simp
  | succ count ih =>
    rw [range_succ, filterMap_append, ih, take_add_one]
    cases here : list[count]? <;> simp [here]

lemma readCatalog_writeCatalog (after : Nat → Nat)
    (fits : ∀ entry ∈ entries, entry.Fits ∧ entry.flags = 1)
    (room : entries.length ≤ catalogEntries) :
    readCatalog (writeCatalog disk entries after) = entries := by
  have places : readCatalog (writeCatalog disk entries after) =
      (range catalogEntries).filterMap fun index => entries[index]? :=
    filterMap_congr fun index member =>
      entryAt_writeCatalog after fits room (mem_range.1 member)
  rw [places, filterMap_getElem?, take_of_length_le room]

lemma mem_readCatalog :
    entry ∈ readCatalog disk ↔ ∃ index < catalogEntries, entryAt disk index = some entry := by
  simp [readCatalog, mem_filterMap]

lemma readCatalog_fits (member : entry ∈ readCatalog disk) : entry.Fits ∧ entry.flags = 1 := by
  obtain ⟨_, inside, found⟩ := mem_readCatalog.1 member
  exact entryAt_fits inside found

lemma readCatalog_congr (same : ∀ place, 512 ≤ place → place < 6656 → other place = disk place) :
    readCatalog other = readCatalog disk := by
  refine filterMap_congr fun index member => ?_
  have inside := mem_range.1 member
  refine entryAt_congr inside fun place lower upper => same place (by omega) ?_
  simp only [catalogEntries] at inside
  omega

lemma filterMap_sublist {α β : Type} {fewer all : α → Option β} {list : List α}
    (drops : ∀ item ∈ list, fewer item = none ∨ fewer item = all item) :
    (list.filterMap fewer).Sublist (list.filterMap all) := by
  induction list with
  | nil => exact Sublist.refl _
  | cons item rest ih =>
    have sub := ih fun other member => drops other (mem_cons_of_mem _ member)
    rw [filterMap_cons, filterMap_cons]
    rcases drops item mem_cons_self with dropped | same
    · rw [dropped]
      cases all item with
      | none => exact sub
      | some value => exact sub.cons value
    rw [same]
    cases all item with
    | none => exact sub
    | some value => exact sub.cons_cons value

lemma readCatalog_selfTest_sublist : (readCatalog (selfTest disk)).Sublist (readCatalog disk) := by
  refine filterMap_sublist fun index member => ?_
  rw [entryAt_selfTest (mem_range.1 member)]
  split
  · exact .inl rfl
  · exact .inr rfl

lemma mem_readCatalog_selfTest :
    entry ∈ readCatalog (selfTest disk) ↔
      ∃ index, 4 ≤ index ∧ index < catalogEntries ∧ entryAt disk index = some entry := by
  rw [mem_readCatalog]
  constructor
  · rintro ⟨index, inside, found⟩
    rw [entryAt_selfTest inside] at found
    split at found
    · cases found
    · exact ⟨index, by omega, inside, found⟩
  rintro ⟨index, _, inside, found⟩
  refine ⟨index, inside, ?_⟩
  rw [entryAt_selfTest inside, if_neg (by omega), found]

variable {place : Nat}

lemma writeSectors_outside {sector count : Nat} {data : List UInt8}
    (outside : place < sector * 512 ∨ (sector + count) * 512 ≤ place) :
    writeSectors disk sector count data place = disk place := by
  refine write_outside ?_
  simp only [sectorSize, length_take]
  rw [Nat.add_mul] at outside
  omega

lemma readSectors_congr {sector count : Nat}
    (same : ∀ place, sector * 512 ≤ place → place < (sector + count) * 512 → other place = disk place) :
    readSectors other sector count = readSectors disk sector count := by
  refine read_congr fun i bound => same _ ?_ ?_
  · simp only [sectorSize]
    omega
  simp only [sectorSize] at bound ⊢
  omega

lemma readSuperblock_congr (same : ∀ place < 512, other place = disk place) :
    readSuperblock other = readSuperblock disk := by
  have sector : readSectors other superSector 1 = readSectors disk superSector 1 :=
    readSectors_congr fun place _ upper => same place (by simpa [superSector] using upper)
  rw [readSuperblock, sector, readSuperblock]

lemma writeSuperblock_outside {sb : Superblock} (outside : 512 ≤ place) :
    writeSuperblock disk sb place = disk place :=
  writeSectors_outside (.inr (by simpa [superSector] using outside))

lemma readCatalog_writeSuperblock (sb : Superblock) :
    readCatalog (writeSuperblock disk sb) = readCatalog disk :=
  readCatalog_congr fun _ lower _ => writeSuperblock_outside lower

lemma writeCatalog_outside {after : Nat → Nat}
    (outside : place < 512 ∨ 6656 ≤ place) : writeCatalog disk entries after place = disk place := by
  refine writeSectors_outside ?_
  simp only [catalogSector, catalogSectors]
  omega

lemma length_encodeSuperblock (sb : Superblock) : (encodeSuperblock sb).length = 512 := by
  simp only [encodeSuperblock, length_append, length_leBytes, length_replicate]
  rfl

lemma readSuperblock_write {sb : Superblock} (fits : sb.nextDataSector < 256 ^ 8) :
    ∃ found, readSuperblock (writeSuperblock disk sb) = some found ∧
      found.nextDataSector = sb.nextDataSector := by
  have length := length_encodeSuperblock sb
  have buffer : readSectors (writeSuperblock disk sb) superSector 1 = encodeSuperblock sb := by
    rw [writeSuperblock, writeSectors, take_of_length_le (by rw [length]; decide)]
    exact read_write_self length
  have magicLength : storeMagic.length = 8 := rfl
  have magic : slice (encodeSuperblock sb) 0 8 = storeMagic := by
    simp (disch := simp [magicLength, -reduceReplicate]) only [encodeSuperblock, append_assoc, slice_append_left,
      slice_all]
  have sector : slice (encodeSuperblock sb) 16 8 = leBytes 8 sb.nextDataSector := by
    simp (disch := simp [magicLength, -reduceReplicate]) only [encodeSuperblock, append_assoc,
      slice_append_right, slice_append_left, magicLength, length_leBytes, Nat.reduceSub, slice_all]
  rw [readSuperblock, buffer]
  exact ⟨_, rfl, by rw [sector]; exact ofLe_leBytes fits⟩

end OsCortex.AppStore
