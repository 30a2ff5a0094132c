import OsCortex.Lib.Runs
import OsCortex.Store.RegistryChecks

/-!
The registry over any sequence of its calls, as long as `install`, which takes the counter as it is,
never finds it in use.
-/

namespace OsCortex.AppRegistry.AppTable

open Bytes List Option Nat Bool

variable {table next : AppTable} {record : AppRecord} {bundle : Bundle} {system : Bool}
  {appId : Nat}

def uninstall (table : AppTable) (appId : Nat) : AppTable × Bool :=
  if (table.find appId).any (·.system) then (table, false) else table.remove appId

inductive Call where
  | install (bundle : Bundle)
  | installFromStore (bundle : Bundle) (id : UInt32)
  | installSystemFromPath (file : Option Bundle) (id : UInt32)
  | installSystemFromPathAuto (file : Option Bundle)
  | uninstall (appId : UInt32)

def call (table : AppTable) : Call → AppTable
  | .install bundle => (table.install bundle).1
  | .installFromStore bundle id => (table.installFromStore bundle id.toNat).1
  | .installSystemFromPath file id => seed table (file, id.toNat)
  | .installSystemFromPathAuto (some bundle) => (table.installRecordAutoId bundle true).1
  | .installSystemFromPathAuto none => table
  | .uninstall appId => (table.uninstall appId.toNat).1

def registry : Runs.Machine AppTable Call where
  start table := table = {}
  step table request := some (table.call request)

structure Orderly (table : AppTable) : Prop where
  ids : table.records.Pairwise fun first second => first.id ≠ second.id
  names : table.records.Pairwise fun first second => trimmed first.name ≠ trimmed second.name
  few : table.records.length ≤ maxApps

def KeepsSystem (table : AppTable) (request : Call) : Prop :=
  ∀ record ∈ table.records, record.system = true → record ∈ (table.call request).records

def accepts (table : AppTable) (bundle : Bundle) : Bool :=
  match parseHeader bundle with
  | none => false
  | some hdr =>
    (table.findByName (trimmed hdr.name)).isNone && decide (table.records.length < maxApps)

def CounterFree (table : AppTable) : Call → Prop
  | .install bundle => table.accepts bundle = true → table.find table.nextId = none
  | _ => True

structure Distinct (table : AppTable) : Prop where
  apart : table.records.Pairwise Apart
  few : table.records.length ≤ maxApps
  slots : table.slots.length ≤ maxApps
  positive : 1 ≤ table.nextId
  bounded : table.nextId < 2 ^ 32

lemma distinct_empty : Distinct {} := ⟨.nil, zero_le _, zero_le _, by decide, by decide⟩

lemma Distinct.orderly (distinct : Distinct table) : Orderly table :=
  ⟨distinct.apart.imp And.left, distinct.apart.imp And.right, distinct.few⟩

lemma Distinct.count (distinct : Distinct table) {nextId : Nat} (positive : 1 ≤ nextId)
    (bounded : nextId < 2 ^ 32) : Distinct { table with nextId } :=
  ⟨distinct.apart, distinct.few, distinct.slots, positive, bounded⟩

def Fresh (table : AppTable) (record : AppRecord) : Prop :=
  ∀ other ∈ table.records, Apart record other

structure Gains (table next : AppTable) (record : AppRecord) : Prop where
  fresh : Fresh table record
  perm : next.records.Perm (record :: table.records)

lemma Gains.mem_iff (gains : Gains table next record) {other : AppRecord} :
    other ∈ next.records ↔ other = record ∨ other ∈ table.records := by
  rw [gains.perm.mem_iff, mem_cons]

lemma length_fill (record : AppRecord) (slots : List (Option AppRecord)) :
    (fill record slots).length ≤ max slots.length ((slots.filterMap id).length + 1) := by
  induction slots with
  | nil => simp [fill]
  | cons slot rest ih =>
    cases slot with
    | none =>
      simp only [fill, length_cons]
      omega
    | some other =>
      have shown : (some other :: rest).filterMap id = other :: rest.filterMap id := rfl
      rw [fill, shown, length_cons, length_cons, length_cons]
      omega

lemma insert_spec (inserted : table.insert record = some next) :
    next.records.Perm (record :: table.records) ∧ next.nextId = table.nextId ∧
      table.records.length < maxApps ∧
      next.slots.length ≤ max table.slots.length (table.records.length + 1) := by
  obtain ⟨perm, nextId⟩ := insert_perm inserted
  simp only [insert] at inserted
  split at inserted
  · cases inserted
  rename_i room
  cases inserted
  exact ⟨perm, nextId, Nat.lt_of_not_le room, length_fill record table.slots⟩

lemma Distinct.insert (distinct : Distinct table) (inserted : table.insert record = some next)
    (fresh : Fresh table record) : Distinct next ∧ Gains table next record := by
  obtain ⟨perm, nextId, _, slots⟩ := insert_spec inserted
  have length := perm.length_eq
  rw [length_cons] at length
  have most := distinct.slots
  refine ⟨⟨?_, by omega, by omega, nextId ▸ distinct.positive, nextId ▸ distinct.bounded⟩, fresh,
    perm⟩
  exact (perm.pairwise_iff Apart.symm).2 (pairwise_cons.2 ⟨fresh, distinct.apart⟩)

lemma insert_none (full : table.insert record = none) : maxApps ≤ table.records.length := by
  simp only [insert] at full
  split at full
  · assumption
  · cases full

lemma find_some_of_mem (member : record ∈ table.records) : (table.find record.id).isSome := by
  rw [find, find?_isSome]
  exact ⟨record, member, by simp⟩

lemma fresh_iff {hdr : BundleHeader} :
    Fresh table (recordOf bundle hdr appId system) ↔
      (table.find appId).isSome = false ∧ (table.findByName (trimmed hdr.name)).isSome = false := by
  constructor
  · intro fresh
    refine ⟨?_, findByName_none_iff.2 fun other member => (fresh other member).2.symm⟩
    have unused : table.find appId = none :=
      find_none fun other member => (fresh other member).1.symm
    rw [unused]
    rfl
  rintro ⟨freeId, freeName⟩ other member
  refine ⟨fun same => ?_, (findByName_none_iff.1 freeName other member).symm⟩
  have taken := find_some_of_mem member
  rw [show other.id = appId from same.symm, freeId] at taken
  cases taken

lemma iterate_idAfter {start : Nat} (positive : 1 ≤ start) (bounded : start < 2 ^ 32)
    (steps : Nat) :
    idAfter^[steps] start = (start - 1 + steps) % (2 ^ 32 - 1) + 1 := by
  induction steps with
  | zero =>
    rw [Function.iterate_zero_apply]
    omega
  | succ steps ih =>
    rw [Function.iterate_succ_apply', ih, idAfter]
    omega

lemma allocateIdFrom_spec (tries : Nat) (positive : 1 ≤ table.nextId)
    (bounded : table.nextId < 2 ^ 32) :
    (allocateIdFrom tries table).1.slots = table.slots ∧ 1 ≤ (allocateIdFrom tries table).1.nextId ∧
      (allocateIdFrom tries table).1.nextId < 2 ^ 32 ∧
      (table.find (allocateIdFrom tries table).2 = none ∨
        ∀ steps < tries, (table.find (idAfter^[steps] table.nextId)).isSome) := by
  induction tries generalizing table with
  | zero => exact ⟨rfl, positive, bounded, .inr nofun⟩
  | succ tries ih =>
    have after : 1 ≤ idAfter table.nextId ∧ idAfter table.nextId < 2 ^ 32 := by
      rw [idAfter]
      omega
    simp only [allocateIdFrom]
    split
    · rename_i free
      exact ⟨rfl, after.1, after.2, .inl (isNone_iff_eq_none.1 free)⟩
    rename_i taken
    obtain ⟨slots, low, high, found⟩ :=
      @ih { table with nextId := idAfter table.nextId } after.1 after.2
    refine ⟨slots, low, high, found.imp_right fun all steps below => ?_⟩
    cases steps with
    | zero =>
      rw [isNone_iff_eq_none] at taken
      exact isSome_iff_ne_none.2 taken
    | succ steps => exact all steps (lt_of_succ_lt_succ below)

lemma install_rejected (rejected : table.accepts bundle = false) :
    (table.install bundle).1.records = table.records ∧ (table.install bundle).2 = none ∧
      ((table.install bundle).1 = table ∨
        (table.install bundle).1 = { table with nextId := idAfter table.nextId }) := by
  simp only [install]
  split
  · exact ⟨rfl, rfl, .inl rfl⟩
  rename_i parsed
  split
  · exact ⟨rfl, rfl, .inl rfl⟩
  rename_i freeName
  split
  · exact ⟨rfl, rfl, .inr rfl⟩
  rename_i insertion
  have room := (insert_spec insertion).2.2.1
  have accepted : table.accepts bundle := by
    simp only [accepts, parsed, and_eq_true, decide_eq_true_eq]
    exact ⟨by simpa using freeName, room⟩
  rw [rejected] at accepted
  cases accepted

lemma install_accepted (accepted : table.accepts bundle) :
    ∃ hdr, parseHeader bundle = some hdr ∧ (table.findByName (trimmed hdr.name)).isSome = false ∧
      (table.install bundle).2 = some table.nextId ∧
      { table with nextId := idAfter table.nextId }.insert
        (recordOf bundle hdr table.nextId false) = some (table.install bundle).1 := by
  simp only [accepts] at accepted
  split at accepted
  · cases accepted
  rename_i hdr parsed
  obtain ⟨freeName, room⟩ := and_eq_true_iff.1 accepted
  have unnamed : (table.findByName (trimmed hdr.name)).isSome = false := by
    rw [isNone_iff_eq_none.1 freeName]
    rfl
  have insertion : { table with nextId := idAfter table.nextId }.insert
      (recordOf bundle hdr table.nextId false) =
      some { table with
        slots := fill (recordOf bundle hdr table.nextId false) table.slots
        nextId := idAfter table.nextId } := if_neg (Nat.not_le_of_lt (of_decide_eq_true room))
  have whole : table.install bundle =
      ({ table with
        slots := fill (recordOf bundle hdr table.nextId false) table.slots
        nextId := idAfter table.nextId }, some table.nextId) := by
    simp [install, parsed, unnamed, insertion]
  exact ⟨hdr, parsed, unnamed, by rw [whole], by rw [whole]; exact insertion⟩

lemma install_repeats (accepted : table.accepts bundle)
    (taken : (table.find table.nextId).isSome) : ¬ Orderly (table.install bundle).1 := by
  intro orderly
  obtain ⟨_, _, _, _, insertion⟩ := install_accepted accepted
  obtain ⟨holder, found⟩ := isSome_iff_exists.1 taken
  obtain ⟨member, same⟩ := find_mem found
  have perm := (insert_perm insertion).1
  have ids := (perm.pairwise_iff fun different => Ne.symm different).1 orderly.ids
  exact (pairwise_cons.1 ids).1 holder member same.symm

lemma length_clear (wanted : Nat) (slots : List (Option AppRecord)) :
    (clear wanted slots).length = slots.length := by
  induction slots with
  | nil => rfl
  | cons slot rest ih =>
    cases slot with
    | none => simp [clear, ih]
    | some other =>
      simp only [clear]
      split
      · rfl
      · simp [ih]

lemma clear_missing {wanted : Nat} {slots : List (Option AppRecord)}
    (missing : ∀ other ∈ slots.filterMap id, other.id ≠ wanted) : clear wanted slots = slots := by
  induction slots with
  | nil => rfl
  | cons slot rest ih =>
    cases slot with
    | none => rw [clear, ih missing]
    | some other =>
      have shown : (some other :: rest).filterMap id = other :: rest.filterMap id := rfl
      rw [clear, if_neg (missing other mem_cons_self),
        ih fun later member => missing later (mem_cons_of_mem _ member)]

lemma remove_missing (missing : (table.find appId).isSome = false) :
    (table.remove appId).1 = table := by
  rw [remove, clear_missing fun other member same => ?_]
  have found := find_some_of_mem (show other ∈ table.records from member)
  rw [same, missing] at found
  cases found

lemma records_remove (appId : Nat) : (table.remove appId).1.records =
    table.records.eraseP fun record => record.id = appId := clear_records appId table.slots

section

variable (distinct : Distinct table)
include distinct

lemma installRecord_step (small : appId < 2 ^ 32) :
    Distinct (table.installRecord bundle appId system).1 ∧
      ((table.installRecord bundle appId system).1.records = table.records ∧
          (∀ hdr, parseHeader bundle = some hdr → Fresh table (recordOf bundle hdr appId system) →
            maxApps ≤ table.records.length) ∨
        ∃ hdr, parseHeader bundle = some hdr ∧
          Gains table (table.installRecord bundle appId system).1
            (recordOf bundle hdr appId system)) := by
  simp only [installRecord]
  split
  · rename_i unparsed
    exact ⟨distinct, .inl ⟨rfl, fun hdr parsed => by cases unparsed.symm.trans parsed⟩⟩
  rename_i hdr parsed
  have only : ∀ other, parseHeader bundle = some other → hdr = other :=
    fun other same => some.inj (parsed.symm.trans same)
  split
  · rename_i taken
    refine ⟨distinct, .inl ⟨rfl, fun other same fresh => ?_⟩⟩
    obtain rfl := only other same
    rw [(fresh_iff.1 fresh).1] at taken
    cases taken
  rename_i freeId
  split
  · rename_i taken
    refine ⟨distinct, .inl ⟨rfl, fun other same fresh => ?_⟩⟩
    obtain rfl := only other same
    rw [(fresh_iff.1 fresh).2] at taken
    cases taken
  rename_i freeName
  split
  · rename_i full
    exact ⟨distinct, .inl ⟨rfl, fun _ _ _ => insert_none full⟩⟩
  rename_i insertion
  have fresh : Fresh table (recordOf bundle hdr appId system) :=
    fresh_iff.2 ⟨eq_false_iff.2 freeId, eq_false_iff.2 freeName⟩
  obtain ⟨added, gains⟩ := distinct.insert insertion fresh
  have bounded := added.bounded
  refine ⟨added.count ?_ ?_, .inr ⟨hdr, parsed, fresh, gains.perm⟩⟩
  · split <;> omega
  · split <;> omega

lemma allocateId_fresh : table.find table.allocateId.2 = none := by
  have fewer : table.records.length ≤ table.slots.length := length_filterMap_le ..
  have most : table.slots.length ≤ 64 := distinct.slots
  obtain ⟨_, _, _, free | all⟩ := allocateIdFrom_spec (table.slots.length + 1) distinct.positive
    distinct.bounded
  · exact free
  exfalso
  let tried := (range (table.slots.length + 1)).map fun steps => idAfter^[steps] table.nextId
  have differ : tried.Nodup := by
    refine Nodup.map_on (fun first one second two same => ?_) nodup_range
    rw [mem_range] at one two
    rw [iterate_idAfter distinct.positive distinct.bounded,
      iterate_idAfter distinct.positive distinct.bounded] at same
    omega
  have used : tried ⊆ table.records.map AppRecord.id := by
    intro id member
    obtain ⟨steps, below, rfl⟩ := mem_map.1 member
    obtain ⟨record, found⟩ := isSome_iff_exists.1 (all steps (mem_range.1 below))
    exact mem_map.2 ⟨record, find_mem found⟩
  have length := (subperm_of_subset differ used).length_le
  simp only [tried, length_map, length_range] at length
  omega

lemma allocateId_kept :
    Distinct table.allocateId.1 ∧ table.allocateId.1.records = table.records := by
  obtain ⟨slots, positive, bounded, _⟩ := allocateIdFrom_spec (table.slots.length + 1)
    distinct.positive distinct.bounded
  have records : table.allocateId.1.records = table.records := congrArg (filterMap id) slots
  refine ⟨⟨?_, ?_, ?_, positive, bounded⟩, records⟩
  · rw [records]
    exact distinct.apart
  · rw [records]
    exact distinct.few
  · rw [allocateId, slots]
    exact distinct.slots

lemma installRecordAutoId_step :
    Distinct (table.installRecordAutoId bundle system).1 ∧
      ((table.installRecordAutoId bundle system).1.records = table.records ∧
          (∀ hdr, parseHeader bundle = some hdr →
            (∀ other ∈ table.records, trimmed other.name ≠ trimmed hdr.name) →
            maxApps ≤ table.records.length) ∨
        ∃ hdr id, parseHeader bundle = some hdr ∧
          Gains table (table.installRecordAutoId bundle system).1
            (recordOf bundle hdr id system)) := by
  obtain ⟨advanced, records⟩ := allocateId_kept distinct
  have free := allocateId_fresh distinct
  simp only [installRecordAutoId]
  split
  · rename_i unparsed
    exact ⟨distinct, .inl ⟨rfl, fun hdr parsed => by cases unparsed.symm.trans parsed⟩⟩
  rename_i hdr parsed
  split
  · rename_i taken
    refine ⟨distinct, .inl ⟨rfl, fun other same unused => ?_⟩⟩
    obtain rfl := some.inj (parsed.symm.trans same)
    rw [findByName_none_iff.2 unused] at taken
    cases taken
  rename_i freeName
  split
  · rename_i full
    refine ⟨advanced, .inl ⟨records, fun _ _ _ => ?_⟩⟩
    rw [← records]
    exact insert_none full
  rename_i insertion
  have fresh : Fresh table (recordOf bundle hdr table.allocateId.2 system) := by
    refine fresh_iff.2 ⟨?_, eq_false_iff.2 freeName⟩
    rw [free]
    rfl
  obtain ⟨added, gains⟩ := advanced.insert insertion (by rw [Fresh, records]; exact fresh)
  refine ⟨added, .inr ⟨hdr, _, parsed, fresh, ?_⟩⟩
  rw [← records]
  exact gains.perm

lemma Distinct.advance :
    Distinct { table with nextId := idAfter table.nextId } := by
  refine distinct.count ?_ ?_
  all_goals
    rw [idAfter]
    omega

lemma install_step (free : CounterFree table (.install bundle)) :
    Distinct (table.install bundle).1 ∧
      ((table.install bundle).1.records = table.records ∨
        ∃ hdr, parseHeader bundle = some hdr ∧
          Gains table (table.install bundle).1 (recordOf bundle hdr table.nextId false)) := by
  cases accepted : table.accepts bundle with
  | false =>
    obtain ⟨_, _, same | moved⟩ := install_rejected accepted
    · rw [same]
      exact ⟨distinct, .inl rfl⟩
    · rw [moved]
      exact ⟨distinct.advance, .inl rfl⟩
  | true =>
    obtain ⟨hdr, parsed, freeName, _, insertion⟩ := install_accepted accepted
    have fresh : Fresh table (recordOf bundle hdr table.nextId false) := by
      refine fresh_iff.2 ⟨?_, freeName⟩
      rw [free accepted]
      rfl
    obtain ⟨added, gains⟩ := distinct.advance.insert insertion fresh
    exact ⟨added, .inr ⟨hdr, parsed, fresh, gains.perm⟩⟩

lemma uninstall_distinct (appId : Nat) :
    Distinct (table.uninstall appId).1 := by
  simp only [uninstall]
  split
  · exact distinct
  have sublist : ((table.remove appId).1.records).Sublist table.records :=
    records_remove appId ▸ eraseP_sublist
  refine ⟨distinct.apart.sublist sublist, le_trans sublist.length_le distinct.few, ?_,
    distinct.positive, distinct.bounded⟩
  exact le_trans (le_of_eq (length_clear appId table.slots)) distinct.slots

lemma Distinct.eq_of_id {first second : AppRecord}
    (one : first ∈ table.records) (other : second ∈ table.records) (same : first.id = second.id) :
    first = second := by
  by_contra different
  exact (distinct.apart.forall one other different).1 same

lemma mem_uninstall_iff :
    record ∈ (table.uninstall appId).1.records ↔
      record ∈ table.records ∧ (record.id = appId → record.system) := by
  cases found : table.find appId with
  | none =>
    have other : ∀ record ∈ table.records, record.id ≠ appId := by
      simpa using find?_eq_none.1 found
    have same : (table.uninstall appId).1 = table := by
      simp only [uninstall, found, any_none, false_eq_true, if_false]
      exact remove_missing (by rw [found]; rfl)
    rw [same]
    exact ⟨fun member => ⟨member, fun named => absurd named (other record member)⟩, And.left⟩
  | some holder =>
    obtain ⟨held, numbered⟩ := find_mem found
    have only : ∀ record ∈ table.records, record.id = appId → record = holder :=
      fun record member named => distinct.eq_of_id member held (named.trans numbered.symm)
    simp only [uninstall, found, any_some]
    split
    · rename_i isSystem
      exact ⟨fun member => ⟨member, fun named => only record member named ▸ isSystem⟩, And.left⟩
    rename_i user
    rw [records_remove, mem_eraseP_iff distinct.apart]
    refine and_congr_right fun member => ⟨fun differs named => absurd named differs, ?_⟩
    exact fun isSystem named => user (only record member named ▸ isSystem named)

end

lemma uninstall_keeps (appId : Nat) (member : record ∈ table.records)
    (isSystem : record.system) : record ∈ (table.uninstall appId).1.records := by
  simp only [uninstall]
  split
  · exact member
  rename_i user
  rw [records_remove]
  rcases exists_or_eq_self_of_eraseP (fun record : AppRecord => decide (record.id = appId))
    table.records with same | ⟨found, before, after, missed, hit, split, joined⟩
  · rw [same]
    exact member
  rw [joined]
  have first : table.find appId = some found := by
    rw [find, split, find?_append, find?_eq_none.2 (by simpa using missed),
      none_or, find?_cons_of_pos (by simpa using hit)]
  rw [first] at user
  rw [split] at member
  rcases mem_append.1 member with earlier | here
  · exact mem_append_left _ earlier
  rcases mem_cons.1 here with rfl | later
  · exact absurd isSystem user
  · exact mem_append_right _ later

lemma seed_step {source : Option Bundle} (distinct : Distinct table) (small : appId < 2 ^ 32) :
    Distinct (seed table (source, appId)) ∧
      ∀ record ∈ table.records, record ∈ (seed table (source, appId)).records := by
  cases source with
  | none => exact ⟨distinct, fun _ member => member⟩
  | some bundle =>
    obtain ⟨kept, ⟨same, _⟩ | ⟨_, _, gains⟩⟩ :=
      @installRecord_step table bundle true appId distinct small
    · exact ⟨kept, fun record member => same ▸ member⟩
    · exact ⟨kept, fun record member => gains.mem_iff.2 (.inr member)⟩

lemma call_step {request : Call} (distinct : Distinct table) (free : CounterFree table request) :
    Distinct (table.call request) ∧ KeepsSystem table request := by
  cases request with
  | install bundle =>
    obtain ⟨kept, same | ⟨_, _, gains⟩⟩ := install_step distinct free
    · exact ⟨kept, fun record member _ => (congrArg (record ∈ ·) same).mpr member⟩
    · exact ⟨kept, fun record member _ => gains.mem_iff.2 (.inr member)⟩
  | installFromStore bundle id =>
    obtain ⟨kept, ⟨same, _⟩ | ⟨_, _, gains⟩⟩ :=
      @installRecord_step table bundle false id.toNat distinct id.toNat_lt
    · exact ⟨kept, fun record member _ => (congrArg (record ∈ ·) same).mpr member⟩
    · exact ⟨kept, fun record member _ => gains.mem_iff.2 (.inr member)⟩
  | installSystemFromPath file id =>
    obtain ⟨kept, mono⟩ := @seed_step table id.toNat file distinct id.toNat_lt
    exact ⟨kept, fun record member _ => mono record member⟩
  | installSystemFromPathAuto file =>
    cases file with
    | none => exact ⟨distinct, fun _ member _ => member⟩
    | some bundle =>
      obtain ⟨kept, ⟨same, _⟩ | ⟨_, _, _, gains⟩⟩ :=
        @installRecordAutoId_step table bundle true distinct
      · exact ⟨kept, fun record member _ => (congrArg (record ∈ ·) same).mpr member⟩
      · exact ⟨kept, fun record member _ => gains.mem_iff.2 (.inr member)⟩
  | uninstall appId =>
    exact ⟨uninstall_distinct distinct _,
      fun _ member isSystem => uninstall_keeps _ member isSystem⟩

lemma call_breaks {request : Call} (taken : ¬ CounterFree table request) :
    ¬ Orderly (table.call request) := by
  cases request with
  | install bundle =>
    obtain ⟨accepted, used⟩ := Classical.not_imp.1 taken
    exact install_repeats accepted (isSome_iff_ne_none.2 used)
  | installFromStore | installSystemFromPath | installSystemFromPathAuto | uninstall =>
    exact absurd trivial taken

theorem registry_orderly_iff (calls : List Call) :
    registry.Always Orderly {} calls ∧ registry.Obeys KeepsSystem {} calls ↔
      registry.Obeys CounterFree {} calls := by
  have exactly : registry.Always Orderly {} calls ↔ registry.Obeys CounterFree {} calls := by
    refine Runs.Machine.always_iff_obeys (fun table => Distinct.orderly) ?_ ?_ calls distinct_empty
      (registry.obeys_anyStep calls {})
    · intro table request next distinct _ free taken
      cases taken
      exact (call_step distinct free).1
    · intro table request _ _ taken
      exact ⟨_, rfl, call_breaks taken⟩
  refine ⟨fun both => exactly.1 both.1, fun obeys => ⟨exactly.2 obeys, ?_⟩⟩
  refine Runs.Machine.obeys_of_invariant ?_ ?_ calls distinct_empty obeys
  · exact fun table request distinct free => (call_step distinct free).2
  intro table request next distinct free taken
  cases taken
  exact (call_step distinct free).1

def tinyBundle (letter : UInt8) : Bundle :=
  magic ++ leBytes 4 1 ++ (letter :: List.replicate 63 0) ++ List.replicate 40 0

theorem largest_id_given_twice :
    ¬ registry.Always Orderly {}
      [.installFromStore (tinyBundle 65) 0xFFFFFFFF, .install (tinyBundle 66)] := by
  intro always
  have orderly := (always.2 _ rfl).2 _ rfl
  have ids : ((call {} (.installFromStore (tinyBundle 65) 0xFFFFFFFF)).call
      (.install (tinyBundle 66))).records.map (·.id) = [4294967295, 4294967295] := by
    decide +kernel
  have differ := pairwise_map.2 orderly.ids
  exact (pairwise_cons.1 differ).1 4294967295 mem_cons_self rfl

end OsCortex.AppRegistry.AppTable
