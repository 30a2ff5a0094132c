import OsCortex.Store.RegistryCore

/-!
The registry keeps its ids and names apart, and every installation adds at most one record.
-/

namespace OsCortex.AppRegistry.AppTable

open List Option

variable {table next : AppTable} {record : AppRecord}

def Apart (first second : AppRecord) : Prop :=
  first.id ≠ second.id ∧ trimmed first.name ≠ trimmed second.name

variable {first second : AppRecord}

lemma Apart.symm (apart : Apart first second) : Apart second first := ⟨apart.1.symm, apart.2.symm⟩

instance : Std.Symm Apart := ⟨fun _ _ apart => apart.symm⟩

structure Kept (table : AppTable) : Prop where
  apart : table.records.Pairwise Apart
  below : ∀ record ∈ table.records, record.id < table.nextId
  bounded : table.nextId < 2 ^ 32

lemma kept_empty : Kept {} := ⟨.nil, by simp [records], by decide⟩

lemma find_mem {id : Nat} (found : table.find id = some record) :
    record ∈ table.records ∧ record.id = id :=
  ⟨mem_of_find?_eq_some found, by simpa using find?_some found⟩

lemma find_none {id : Nat} (fresh : ∀ record ∈ table.records, record.id ≠ id) :
    table.find id = none := by
  refine find?_eq_none.2 fun record member => ?_
  simpa using fresh record member

lemma findByName_none_iff {name : List UInt8} :
    (table.findByName name).isSome = false ↔
      ∀ record ∈ table.records, trimmed record.name ≠ name := by
  rw [findByName, isSome_eq_false_iff, isNone_iff_eq_none, find?_eq_none]
  simp

lemma fill_perm (record : AppRecord) (slots : List (Option AppRecord)) :
    ((fill record slots).filterMap id).Perm (record :: slots.filterMap id) := by
  induction slots with
  | nil => exact Perm.refl _
  | cons slot rest ih =>
    cases slot with
    | none => exact Perm.refl _
    | some other => exact (ih.cons other).trans (Perm.swap ..)

lemma insert_perm (inserted : table.insert record = some next) :
    next.records.Perm (record :: table.records) ∧ next.nextId = table.nextId := by
  simp only [insert] at inserted
  split at inserted <;> cases inserted
  exact ⟨fill_perm record table.slots, rfl⟩

structure Adds (table next : AppTable) (record : AppRecord) : Prop where
  kept : Kept next
  member : ∀ other, other ∈ next.records ↔ other = record ∨ other ∈ table.records

variable {bundle : Bundle}

structure Extends (table next : AppTable) : Prop where
  kept : Kept next
  mono : ∀ record ∈ table.records, record ∈ next.records
  only : ∀ record ∈ next.records, record ∈ table.records ∨ record.system = true

lemma Extends.trans {first second third : AppTable} (one : Extends first second)
    (two : Extends second third) : Extends first third := by
  refine ⟨two.kept, fun record member => two.mono record (one.mono record member), ?_⟩
  intro record member
  rcases two.only record member with before | system
  · exact one.only record before
  · exact .inr system

lemma Adds.extends (adds : Adds table next record) (system : record.system) :
    Extends table next := by
  refine ⟨adds.kept, fun other member => (adds.member other).2 (.inr member), ?_⟩
  intro other member
  rcases (adds.member other).1 member with rfl | before
  · exact .inr system
  · exact .inl before

lemma idAfter_small {id : Nat} (room : id + 1 < 2 ^ 32) : idAfter id = id + 1 := by
  rw [idAfter, Nat.mod_eq_of_lt room]
  omega

lemma clear_records (wanted : Nat) (slots : List (Option AppRecord)) :
    (clear wanted slots).filterMap id =
      (slots.filterMap id).eraseP fun record => record.id = wanted := by
  induction slots with
  | nil => rfl
  | cons slot rest ih =>
    cases slot with
    | none => simpa [clear] using ih
    | some record =>
      by_cases here : record.id = wanted
      · simp [clear, here]
      · simpa [clear, here] using ih

lemma mem_eraseP_iff {records : List AppRecord} {wanted : Nat} (apart : records.Pairwise Apart)
    (other : AppRecord) :
    other ∈ (records.eraseP fun record => record.id = wanted) ↔
      other ∈ records ∧ other.id ≠ wanted := by
  induction records with
  | nil => simp
  | cons record rest ih =>
    rw [pairwise_cons] at apart
    by_cases here : record.id = wanted
    · rw [eraseP_cons_of_pos (by simpa using here), mem_cons]
      constructor
      · intro member
        exact ⟨.inr member, fun same => (apart.1 other member).1 (here.trans same.symm)⟩
      rintro ⟨rfl | member, different⟩
      · exact absurd here different
      · exact member
    rw [eraseP_cons_of_neg (by simpa using here), mem_cons, mem_cons, ih apart.2]
    constructor
    · rintro (rfl | ⟨member, different⟩)
      · exact ⟨.inl rfl, here⟩
      · exact ⟨.inr member, different⟩
    rintro ⟨rfl | member, different⟩
    · exact .inl rfl
    · exact .inr ⟨member, different⟩

section

variable (kept : Kept table)
include kept

lemma Kept.eq_of_id (one : first ∈ table.records)
    (other : second ∈ table.records) (same : first.id = second.id) : first = second := by
  by_contra different
  exact (kept.apart.forall one other different).1 same

lemma Kept.find_eq (member : record ∈ table.records) :
    table.find record.id = some record := by
  cases found : table.find record.id with
  | none =>
    have none := find?_eq_none.1 found record member
    simp at none
  | some other =>
    have facts := find_mem found
    rw [kept.eq_of_id facts.1 member facts.2]

lemma Kept.insert (inserted : table.insert record = some next)
    (fresh : ∀ other ∈ table.records, Apart record other) {nextId : Nat}
    (grows : table.nextId ≤ nextId) (below : record.id < nextId) (bounded : nextId < 2 ^ 32) :
    Adds table { next with nextId } record := by
  obtain ⟨perm, _⟩ := insert_perm inserted
  refine ⟨⟨?_, fun other member => ?_, bounded⟩, fun other => ?_⟩
  · refine (perm.pairwise_iff Apart.symm).2 ?_
    exact pairwise_cons.2 ⟨fresh, kept.apart⟩
  · rcases mem_cons.1 (perm.mem_iff.1 member) with rfl | before
    · exact below
    · exact Nat.lt_of_lt_of_le (kept.below other before) grows
  · rw [← mem_cons]
    exact perm.mem_iff

lemma installRecord_adds {id : Nat} {system : Bool} (small : id + 1 < 2 ^ 32) :
    (table.installRecord bundle id system).1 = table ∨
      ∃ hdr, parseHeader bundle = some hdr ∧
        Adds table (table.installRecord bundle id system).1 (recordOf bundle hdr id system) ∧
        (table.installRecord bundle id system).1.nextId = max table.nextId (id + 1) := by
  simp only [installRecord]
  split
  · exact .inl rfl
  rename_i hdr parsed
  split
  · exact .inl rfl
  rename_i freshId
  split
  · exact .inl rfl
  rename_i freshName
  split
  · exact .inl rfl
  rename_i insertion
  have sameNext := (insert_perm insertion).2
  refine .inr ⟨hdr, parsed, ?_, ?_⟩
  · refine kept.insert insertion (fun other member => ?_) ?_ ?_ ?_
    · refine ⟨fun same => freshId ?_, fun same => ?_⟩
      · rw [show id = other.id from same, kept.find_eq member]
        rfl
      · have none := findByName_none_iff.1 (Bool.eq_false_iff.2 freshName)
        exact none other member same.symm
    · simp only [sameNext]
      split <;> omega
    · simp only [sameNext, recordOf]
      split <;> omega
    have := kept.bounded
    split <;> omega
  · simp only [sameNext]
    split <;> omega

lemma installRecord_new {hdr : BundleHeader} {id : Nat}
    (small : id + 1 < 2 ^ 32) (parsed : parseHeader bundle = some hdr)
    (fresh : ∀ other ∈ table.records, Apart (recordOf bundle hdr id false) other)
    (room : table.records.length < maxApps) :
    Adds table (table.installRecord bundle id false).1 (recordOf bundle hdr id false) ∧
      (table.installRecord bundle id false).1.nextId = max table.nextId (id + 1) ∧
      (table.installRecord bundle id false).1.records.length = table.records.length + 1 := by
  have freshId : table.find id = none := find_none fun other member => (fresh other member).1.symm
  have freshName : (table.findByName (trimmed hdr.name)).isSome = false :=
    findByName_none_iff.2 fun other member => (fresh other member).2.symm
  obtain ⟨inserted, insertion⟩ : ∃ inserted, table.insert (recordOf bundle hdr id false) = some inserted :=
    ⟨_, if_neg (by omega)⟩
  have added : (table.installRecord bundle id false).1.records = inserted.records := by
    simp only [installRecord, parsed, freshId, freshName, insertion, isSome_none,
      Bool.false_eq_true, if_false]
    rfl
  have length := (insert_perm insertion).1.length_eq
  rcases @installRecord_adds table bundle kept id false small with
    same | ⟨other, parsedOther, adds, nextId⟩
  · rw [same] at added
    rw [← added, length_cons] at length
    omega
  obtain rfl : hdr = other := some.inj (parsed.symm.trans parsedOther)
  refine ⟨adds, nextId, ?_⟩
  rw [added, length, length_cons]

lemma Extends.refl : Extends table table :=
  ⟨kept, fun _ member => member, fun _ member => .inl member⟩

lemma seed_extends {source : Option Bundle} {id : Nat} (small : id + 1 < 2 ^ 32) :
    Extends table (seed table (source, id)) ∧ (seed table (source, id)).nextId ≤ max table.nextId (id + 1) := by
  cases source with
  | none => exact ⟨.refl kept, Nat.le_max_left ..⟩
  | some bundle =>
    simp only [seed]
    rcases @installRecord_adds table bundle kept id true small with
      same | ⟨hdr, _, adds, nextId⟩
    · rw [same]
      exact ⟨.refl kept, Nat.le_max_left ..⟩
    · exact ⟨adds.extends rfl, Nat.le_of_eq nextId⟩

lemma core_extends {seeds : List (Option Bundle × Nat)} (small : ∀ source ∈ seeds, source.2 < 4) :
    Extends table (seeds.foldl seed table) ∧
      (seeds.foldl seed table).nextId ≤ max table.nextId 4 := by
  induction seeds generalizing table with
  | nil => exact ⟨.refl kept, Nat.le_max_left ..⟩
  | cons first rest ih =>
    obtain ⟨source, id⟩ := first
    have bound : id < 4 := small (source, id) mem_cons_self
    obtain ⟨grown, _⟩ := @seed_extends table kept source id (by omega)
    obtain ⟨more, _⟩ := ih grown.kept fun other member =>
      small other (mem_cons_of_mem _ member)
    refine ⟨grown.trans more, ?_⟩
    rw [foldl_cons]
    omega

lemma allocateId_next :
    table.allocateId = ({ table with nextId := idAfter table.nextId }, table.nextId) := by
  have fresh : table.find table.nextId = none :=
    find_none fun record member => Nat.ne_of_lt (kept.below record member)
  simp [allocateId, allocateIdFrom, fresh]

lemma Kept.advance (room : table.nextId + 1 < 2 ^ 32) :
    Kept { table with nextId := table.nextId + 1 } :=
  ⟨kept.apart, fun record member => Nat.lt_succ_of_lt (kept.below record member), room⟩

lemma Kept.insertNext {inserted : AppTable} (room : table.nextId + 1 < 2 ^ 32)
    (numbered : record.id = table.nextId)
    (freshName : ¬ (table.findByName (trimmed record.name)).isSome)
    (insertion : { table with nextId := table.nextId + 1 }.insert record = some inserted) :
    Adds table inserted record ∧ inserted.nextId = table.nextId + 1 := by
  have sameNext := (insert_perm insertion).2
  have none := findByName_none_iff.1 (Bool.eq_false_iff.2 freshName)
  have fresh : ∀ other ∈ table.records, Apart record other := fun other member =>
    ⟨fun same => Nat.ne_of_lt (kept.below other member) (same.symm.trans numbered),
      fun same => none other member same.symm⟩
  have adds := (kept.advance room).insert insertion fresh (Nat.le_refl _)
    (numbered ▸ Nat.lt_succ_self _) room
  rw [← sameNext] at adds
  exact ⟨{ adds with }, sameNext⟩

lemma installRecordAutoId_extends (room : table.nextId + 1 < 2 ^ 32) :
    Extends table (table.installRecordAutoId bundle true).1 ∧
      (table.installRecordAutoId bundle true).1.nextId ≤ table.nextId + 1 := by
  simp only [installRecordAutoId, allocateId_next kept, idAfter_small room]
  iterate 2
    split
    · exact ⟨.refl kept, Nat.le_succ _⟩
  rename_i freshName
  split
  · exact ⟨⟨kept.advance room, fun _ member => member, fun _ member => .inl member⟩, Nat.le_refl _⟩
  rename_i insertion
  obtain ⟨adds, nextId⟩ := kept.insertNext room rfl freshName insertion
  exact ⟨adds.extends rfl, Nat.le_of_eq nextId⟩

lemma discovered_extends {bundles : List Bundle} (room : table.nextId + bundles.length < 2 ^ 32) :
    Extends table (bundles.foldl (fun table bundle => (table.installRecordAutoId bundle true).1) table) := by
  induction bundles generalizing table with
  | nil => exact .refl kept
  | cons bundle rest ih =>
    rw [length_cons] at room
    obtain ⟨grown, _⟩ := @installRecordAutoId_extends table bundle kept (by omega)
    exact grown.trans (ih grown.kept (by omega))

lemma installSystemApps_extends {image : Image}
    (room : max table.nextId 4 + image.discovered.length < 2 ^ 32) :
    Extends table (installSystemApps image table) := by
  obtain ⟨grown, _⟩ := @core_extends table kept image.core (by simp [Image.core])
  exact grown.trans (discovered_extends grown.kept (by omega))

lemma install_cases (room : table.nextId + 1 < 2 ^ 32) :
    (∃ hdr, parseHeader bundle = some hdr ∧ (table.install bundle).2 = some table.nextId ∧
      Adds table (table.install bundle).1 (recordOf bundle hdr table.nextId false)) ∨
    (table.install bundle).2 = none ∧ Kept (table.install bundle).1 ∧
      (table.install bundle).1.records = table.records := by
  simp only [install, idAfter_small room]
  split
  · exact .inr ⟨rfl, kept, rfl⟩
  rename_i hdr parsed
  split
  · exact .inr ⟨rfl, kept, rfl⟩
  rename_i freshName
  split
  · exact .inr ⟨rfl, kept.advance room, rfl⟩
  · rename_i insertion
    exact .inl ⟨hdr, parsed, rfl, (kept.insertNext room rfl freshName insertion).1⟩

lemma remove_kept {wanted : Nat} :
    Kept (table.remove wanted).1 ∧
      ∀ other, other ∈ (table.remove wanted).1.records ↔ other ∈ table.records ∧ other.id ≠ wanted := by
  have erased : (table.remove wanted).1.records =
      table.records.eraseP fun record => record.id = wanted := clear_records wanted table.slots
  have sublist : (table.records.eraseP fun record => record.id = wanted).Sublist table.records :=
    eraseP_sublist
  have apart : ((table.remove wanted).1.records).Pairwise Apart := erased ▸ kept.apart.sublist sublist
  refine ⟨⟨apart, fun record member => ?_, kept.bounded⟩, fun other => ?_⟩
  · rw [erased] at member
    exact kept.below record (sublist.subset member)
  · rw [erased]
    exact mem_eraseP_iff kept.apart other

end

end OsCortex.AppRegistry.AppTable
