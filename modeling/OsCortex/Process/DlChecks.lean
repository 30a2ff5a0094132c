import OsCortex.Process.DlCore

/-!
When the ranges `mmap` gives out stay apart. Pages are counted for each live range and each recycled
range they lie in; the count never passes one in a run whose calls are `Careful`.
-/

namespace OsCortex.Dl

open List LibTable Scan RecycledRange

def topVa : Nat := 2 ^ 63 + 2 ^ 48

def overlaps (va size page : Nat) : Bool := decide (va < page + 4096 ∧ page < va + size)

def coversPage (pml4Phys page : Nat) : Option RecycledRange → Bool
  | some range => range.pml4Phys == pml4Phys && overlaps range.va range.size page
  | none => false

lemma coversPage_iff {pml4Phys page : Nat} {slot : Option RecycledRange} :
    coversPage pml4Phys page slot ↔ ∃ range, slot = some range ∧ range.pml4Phys = pml4Phys ∧
      overlaps range.va range.size page := by
  cases slot <;> simp [coversPage]

def LibTable.anonCursor (libs : LibTable) (pml4Phys : Nat) : Nat :=
  ((libs.slotFor pml4Phys).map AsSlot.nextAnonVa).getD anonVaBase

def LibTable.libCursor (libs : LibTable) (pml4Phys : Nat) : Nat :=
  ((libs.slotFor pml4Phys).map AsSlot.nextLibVa).getD libVaBase

def Settled (libs : LibTable) (pml4Phys page : Nat) : Prop :=
  page < libVaBase ∨ anonVaBase ≤ page ∧ page < libs.anonCursor pml4Phys

def occurrences (spaces : AddressSpaces) (pml4Phys page : Nat) : Nat :=
  spaces.live.count (pml4Phys, page) + spaces.libs.recycled.countP (coversPage pml4Phys page)

structure Orderly (spaces : AddressSpaces) : Prop where
  rooted : ∀ entry ∈ spaces.live, entry.1 ≠ 0 ∧ entry.2 % 4096 = 0
  once : ∀ pml4Phys page, page % 4096 = 0 → occurrences spaces pml4Phys page ≤ 1
  liveSettled : ∀ entry ∈ spaces.live, Settled spaces.libs entry.1 entry.2
  recycledSettled : ∀ range, some range ∈ spaces.libs.recycled →
    range.pml4Phys ≠ 0 ∧ range.va + range.size ≤ topVa ∧
      ∀ page, page % 4096 = 0 → overlaps range.va range.size page = true →
        Settled spaces.libs range.pml4Phys page
  cursors : ∀ slot ∈ spaces.libs.asSlots, slot.pml4Phys ≠ 0 →
    anonVaBase ≤ slot.nextAnonVa ∧ slot.nextAnonVa ≤ topVa ∧ libVaBase ≤ slot.nextLibVa
  libraries : ∀ lib ∈ spaces.loaded, libVaBase ≤ lib.base ∧ lib.base + lib.span ≤ anonVaBase

lemma alignUp_spec (size : Nat) {value : Nat} (room : value + 0x200000 ≤ 2 ^ 64) :
    value ≤ alignUp (anonAlign size) value ∧ alignUp (anonAlign size) value < value + 0x200000 ∧
      alignUp (anonAlign size) value % 4096 = 0 := by
  simp only [anonAlign]
  split <;> simp only [alignUp, alignDown, u64] <;> omega

lemma resolve_spec (mapped : Nat → Bool) (size : Nat) {pages : Nat} (few : pages ≤ 65536)
    (fuel candidate : Nat) (aligned : candidate % 4096 = 0)
    (room : candidate + (fuel + 1) * 2 ^ 29 ≤ 2 ^ 64) :
    candidate ≤ resolve mapped (anonAlign size) pages fuel candidate ∧
      resolve mapped (anonAlign size) pages fuel candidate ≤ candidate + fuel * 2 ^ 29 ∧
      resolve mapped (anonAlign size) pages fuel candidate % 4096 = 0 := by
  induction fuel generalizing candidate with
  | zero => exact ⟨Nat.le_refl _, by simp [resolve], aligned⟩
  | succ fuel ih =>
    simp only [resolve]
    split
    · rename_i page conflict
      have bound : page < pages := mem_range.mp (mem_of_find?_eq_some conflict)
      obtain ⟨_, _, jumpAligned⟩ :=
        alignUp_spec size (show candidate + page * 4096 + 4096 + 0x200000 ≤ 2 ^ 64 by omega)
      obtain ⟨_, _, final⟩ := ih _ jumpAligned (by omega)
      exact ⟨by omega, by omega, final⟩
    · exact ⟨Nat.le_refl _, by omega, aligned⟩

variable {mapped : Nat → Bool}

lemma resolve_clear {align pages candidate : Nat}
    (clear : ∀ page, page < pages → mapped (u64 (candidate + page * 4096)) = false) (fuel : Nat) :
    resolve mapped align pages fuel candidate = candidate := by
  cases fuel with
  | zero => rfl
  | succ fuel =>
    have none : (range pages).find?
        (fun page => mapped (u64 (candidate + page * 4096))) = none := by
      refine find?_eq_none.mpr fun page member => ?_
      rw [clear page (mem_range.mp member)]
      exact Bool.false_ne_true
    simp [resolve, none]

structure Upserted (libs changed : LibTable) (pml4Phys : Nat) (slot : AsSlot) : Prop where
  here : changed.slotFor pml4Phys = some slot
  elsewhere : ∀ other, other ≠ 0 → other ≠ pml4Phys → changed.slotFor other = libs.slotFor other
  recycled : changed.recycled = libs.recycled
  members : ∀ member ∈ changed.asSlots, member ∈ libs.asSlots ∨ member = slot

variable {libs : LibTable} {slot : AsSlot}

lemma slotFor_key {pml4Phys : Nat} (found : libs.slotFor pml4Phys = some slot) :
    slot ∈ libs.asSlots ∧ slot.pml4Phys = pml4Phys :=
  ⟨mem_of_find?_eq_some found, by simpa using find?_some found⟩

variable {changed : LibTable}

lemma upsertSlot_spec {pml4Phys : Nat} {change : AsSlot → AsSlot}
    {fresh : AsSlot} {old : Option AsSlot}
    (done : libs.upsertSlot pml4Phys change fresh = some (old, changed))
    (keeps : ∀ slot, slot.pml4Phys = pml4Phys → (change slot).pml4Phys = pml4Phys)
    (own : fresh.pml4Phys = pml4Phys) :
    old = libs.slotFor pml4Phys ∧ Upserted libs changed pml4Phys (old.elim fresh change) := by
  simp only [upsertSlot] at done
  split at done
  · rename_i slot asSlots updated
    cases done
    have key : slot.pml4Phys = pml4Phys := by simpa using (updateFirst_some updated).1
    refine ⟨(find?_hit updated).symm, ?_, ?_, rfl, ?_⟩
    · exact find?_updateFirst_same updated (by simpa using keeps slot key)
        fun entry skipped _ => skipped
    · intro other _ different
      refine find?_updateFirst_other updated ?_ ?_
      · simpa [key] using Ne.symm different
      · simpa [keeps slot key] using Ne.symm different
    · exact fun member inside => (mem_of_updateFirst updated inside).symm
  rename_i missing
  split at done <;> cases done
  rename_i slot asSlots updated
  have absent := updateFirst_none missing
  have free : slot.pml4Phys = 0 := by simpa using (updateFirst_some updated).1
  refine ⟨?_, ?_, ?_, rfl, ?_⟩
  · exact (find?_eq_none.mpr fun entry member => by simp [absent entry member]).symm
  · exact find?_updateFirst_same updated (by simpa using own)
      fun entry _ member => absent entry member
  · intro other used different
    refine find?_updateFirst_other updated ?_ ?_
    · simpa [free] using Ne.symm used
    · simpa [own] using Ne.symm different
  · exact fun member inside => (mem_of_updateFirst updated inside).symm

def HasSlot (libs : LibTable) (pml4Phys : Nat) : Prop :=
  ∃ slot ∈ libs.asSlots, slot.pml4Phys = pml4Phys

lemma upsertSlot_room {pml4Phys : Nat}
    (room : HasSlot libs pml4Phys ∨ HasSlot libs 0) (change : AsSlot → AsSlot) (fresh : AsSlot) :
    ∃ old changed, libs.upsertSlot pml4Phys change fresh = some (old, changed) := by
  simp only [upsertSlot]
  split
  · exact ⟨_, _, rfl⟩
  rename_i missing
  split
  · exact ⟨_, _, rfl⟩
  rename_i full
  rcases room with ⟨slot, member, key⟩ | ⟨slot, member, key⟩
  · simpa [key] using updateFirst_none missing slot member
  · simpa [key] using updateFirst_none full slot member

lemma Upserted.anonCursor_here {pml4Phys : Nat} (upserted : Upserted libs changed pml4Phys slot) :
    changed.anonCursor pml4Phys = slot.nextAnonVa := by
  simp [anonCursor, upserted.here]

lemma Upserted.anonCursor_elsewhere {pml4Phys other : Nat}
    (upserted : Upserted libs changed pml4Phys slot) (used : other ≠ 0)
    (different : other ≠ pml4Phys) : changed.anonCursor other = libs.anonCursor other := by
  simp [anonCursor, upserted.elsewhere other used different]

variable {page : Nat}

lemma Settled.mono {pml4Phys : Nat} (settled : Settled libs pml4Phys page)
    (higher : libs.anonCursor pml4Phys ≤ changed.anonCursor pml4Phys) :
    Settled changed pml4Phys page := by
  rcases settled with below | ⟨lower, _⟩
  · exact .inl below
  · exact .inr ⟨lower, by omega⟩

def Vacant (spaces : AddressSpaces) (pml4Phys : Nat) : Prop :=
  (∀ entry ∈ spaces.live, entry.1 ≠ pml4Phys) ∧
    ∀ range, some range ∈ spaces.libs.recycled → range.pml4Phys ≠ pml4Phys

section

variable {spaces : AddressSpaces} (orderly : Orderly spaces)
include orderly

lemma Orderly.upsert {pml4Phys : Nat} (upserted : Upserted spaces.libs changed pml4Phys slot)
    (higher : spaces.libs.anonCursor pml4Phys ≤ slot.nextAnonVa ∨ Vacant spaces pml4Phys)
    (bounds : anonVaBase ≤ slot.nextAnonVa ∧ slot.nextAnonVa ≤ topVa ∧ libVaBase ≤ slot.nextLibVa) :
    Orderly { spaces with libs := changed } := by
  have monotone : ∀ other, other ≠ 0 → (Vacant spaces pml4Phys → other ≠ pml4Phys) →
      spaces.libs.anonCursor other ≤ changed.anonCursor other := by
    intro other used occupied
    by_cases same : other = pml4Phys
    · rw [same, upserted.anonCursor_here]
      exact higher.resolve_right fun vacant => occupied vacant same
    · exact Nat.le_of_eq (upserted.anonCursor_elsewhere used same).symm
  refine ⟨orderly.rooted, ?_, ?_, ?_, ?_, orderly.libraries⟩
  · intro other page aligned
    simp only [occurrences, upserted.recycled]
    exact orderly.once other page aligned
  · intro entry member
    exact (orderly.liveSettled entry member).mono
      (monotone _ (orderly.rooted entry member).1 fun vacant => vacant.1 entry member)
  · intro range member
    have before : some range ∈ spaces.libs.recycled := upserted.recycled ▸ member
    obtain ⟨used, top, settled⟩ := orderly.recycledSettled range before
    exact ⟨used, top, fun page aligned inside => (settled page aligned inside).mono
      (monotone _ used fun vacant => vacant.2 range before)⟩
  intro member inside used
  rcases upserted.members member inside with old | rfl
  · exact orderly.cursors member old used
  · exact bounds

lemma Orderly.unseen {pml4Phys : Nat}
    (aligned : page % 4096 = 0) (unsettled : ¬ Settled spaces.libs pml4Phys page) :
    occurrences spaces pml4Phys page = 0 := by
  have notLive : spaces.live.count (pml4Phys, page) = 0 :=
    List.count_eq_zero_of_not_mem fun member => unsettled (orderly.liveSettled _ member)
  have notRecycled : spaces.libs.recycled.countP (coversPage pml4Phys page) = 0 := by
    refine List.countP_eq_zero.mpr fun slot member covered => ?_
    obtain ⟨range, rfl, rfl, inside⟩ := coversPage_iff.1 covered
    exact unsettled ((orderly.recycledSettled range member).2.2 page aligned inside)
  simp [occurrences, notLive, notRecycled]

lemma Orderly.patch
    {hit : Option RecycledRange → Bool} {change : Option RecycledRange → Option RecycledRange}
    {found : Option RecycledRange} {recycled : List (Option RecycledRange)}
    (updated : updateFirst hit change spaces.libs.recycled = some (found, recycled))
    (within : ∀ pml4Phys page, page % 4096 = 0 → coversPage pml4Phys page (change found) →
      coversPage pml4Phys page found ∨ occurrences spaces pml4Phys page = 0)
    (settled : ∀ range, change found = some range → range.pml4Phys ≠ 0 ∧
      range.va + range.size ≤ topVa ∧ ∀ page, page % 4096 = 0 →
        overlaps range.va range.size page → Settled spaces.libs range.pml4Phys page) :
    Orderly { spaces with libs := { spaces.libs with recycled } } := by
  refine ⟨orderly.rooted, ?_, orderly.liveSettled, ?_, orderly.cursors, orderly.libraries⟩
  · intro pml4Phys page aligned
    have before := orderly.once pml4Phys page aligned
    have counts := countP_updateFirst updated (coversPage pml4Phys page)
    simp only [occurrences] at before ⊢
    by_cases covered : coversPage pml4Phys page (change found)
    · rcases within pml4Phys page aligned covered with old | unseen
      · rw [covered, old] at counts
        omega
      rw [covered, Bool.toNat_true] at counts
      simp only [occurrences] at unseen
      omega
    · rw [Bool.eq_false_iff.mpr covered, Bool.toNat_false] at counts
      omega
  intro range member
  rcases mem_of_updateFirst updated member with new | old
  · exact settled range new.symm
  · exact orderly.recycledSettled range old

end

def FreshRange (spaces : AddressSpaces) (pml4Phys va pages : Nat) : Prop :=
  va % 4096 = 0 ∧ va + pages * 4096 ≤ 2 ^ 64 ∧ ∀ page, page < pages →
    Settled spaces.libs pml4Phys (va + page * 4096) ∧
      occurrences spaces pml4Phys (va + page * 4096) = 0

lemma mem_pagesOf {pml4Phys va pages : Nat} (fits : va + pages * 4096 ≤ 2 ^ 64)
    {entry : Nat × Nat} :
    entry ∈ pagesOf pml4Phys va pages ↔
      ∃ page, page < pages ∧ entry = (pml4Phys, va + page * 4096) := by
  have exact_ : ∀ page, page < pages → u64 (va + page * 4096) = va + page * 4096 :=
    fun page bound => Nat.mod_eq_of_lt (by omega)
  simp only [pagesOf, List.mem_map, List.mem_range]
  constructor
  all_goals
    rintro ⟨page, bound, rfl⟩
    exact ⟨page, bound, by rw [exact_ page bound]⟩

lemma nodup_pagesOf {pml4Phys va pages : Nat} (fits : va + pages * 4096 ≤ 2 ^ 64) :
    (pagesOf pml4Phys va pages).Nodup := by
  refine Nodup.map_on ?_ nodup_range
  intro page bound page' bound' same
  have bounds := And.intro (mem_range.mp bound) (mem_range.mp bound')
  have equal : u64 (va + page * 4096) = u64 (va + page' * 4096) := (Prod.mk.inj same).2
  simp only [u64] at equal
  omega

lemma Orderly.extend {spaces : AddressSpaces} (orderly : Orderly spaces) {more : List (Nat × Nat)}
    (given : ∀ entry ∈ more, entry.1 ≠ 0 ∧ entry.2 % 4096 = 0 ∧
      Settled spaces.libs entry.1 entry.2 ∧ occurrences spaces entry.1 entry.2 = 0)
    (single : ∀ entry ∈ more, more.count entry ≤ 1) :
    Orderly { spaces with live := more ++ spaces.live } := by
  refine ⟨?_, ?_, ?_, orderly.recycledSettled, orderly.cursors, orderly.libraries⟩
  · intro entry member
    rcases List.mem_append.mp member with new | old
    · exact ⟨(given entry new).1, (given entry new).2.1⟩
    · exact orderly.rooted entry old
  · intro other page aligned
    have before := orderly.once other page aligned
    simp only [occurrences, List.count_append] at before ⊢
    by_cases new : (other, page) ∈ more
    · have none := (given _ new).2.2.2
      have one := single _ new
      simp only [occurrences] at none
      omega
    · rw [List.count_eq_zero_of_not_mem new]
      omega
  intro entry member
  rcases List.mem_append.mp member with new | old
  · exact (given entry new).2.2.1
  · exact orderly.liveSettled entry old

lemma Orderly.give {spaces : AddressSpaces} (orderly : Orderly spaces) {pml4Phys va pages : Nat}
    (used : pml4Phys ≠ 0) (fresh : FreshRange spaces pml4Phys va pages) :
    Orderly { spaces with live := pagesOf pml4Phys va pages ++ spaces.live } := by
  obtain ⟨_, fits, unseen⟩ := fresh
  refine orderly.extend (fun entry member => ?_) fun entry _ =>
    nodup_iff_count_le_one.mp (nodup_pagesOf fits) entry
  obtain ⟨page, bound, rfl⟩ := (mem_pagesOf fits).mp member
  exact ⟨used, by simp only; omega, unseen page bound⟩

section Bump

variable {spaces : AddressSpaces} {pml4Phys pages : Nat}

lemma bumpAnonVa_cursor {size : Nat}
    (missed : updateFirst (fits (anonAlign size) (u64 (size + 4095) / 4096 * 4096)
      pml4Phys) (remainder (anonAlign size) (u64 (size + 4095) / 4096 * 4096))
      libs.recycled = none)
    (room : HasSlot libs pml4Phys ∨ HasSlot libs 0) :
    ∃ changed slot, Upserted libs changed pml4Phys slot ∧
      slot.nextAnonVa = u64 (alignUp (anonAlign size) (libs.anonCursor pml4Phys) +
        u64 (size + 4095) / 4096 * 4096) ∧
      slot.nextLibVa = libs.libCursor pml4Phys ∧
      libs.bumpAnonVa pml4Phys size =
        (changed, alignUp (anonAlign size) (libs.anonCursor pml4Phys)) := by
  simp only [bumpAnonVa, missed]
  obtain ⟨old, changed, done⟩ := upsertSlot_room room
    (fun slot : AsSlot => { slot with
      nextAnonVa := u64 (alignUp (anonAlign size) slot.nextAnonVa +
        u64 (size + 4095) / 4096 * 4096) })
    ⟨pml4Phys, libVaBase, u64 (alignUp (anonAlign size) anonVaBase +
      u64 (size + 4095) / 4096 * 4096)⟩
  obtain ⟨before, upserted⟩ := upsertSlot_spec done (fun _ key => key) rfl
  refine ⟨changed, _, upserted, ?_⟩
  simp only [anonCursor, libCursor, ← before, done]
  cases old with
  | none | some slot => exact ⟨rfl, rfl, rfl⟩

lemma setAnonCursor_spec (va : Nat) (found : libs.slotFor pml4Phys = some slot) :
    Upserted libs (libs.setAnonCursor pml4Phys va) pml4Phys
      { slot with nextAnonVa := max slot.nextAnonVa va } := by
  obtain ⟨member, key⟩ := slotFor_key found
  obtain ⟨_, _, done⟩ := upsertSlot_room (.inl ⟨slot, member, key⟩)
    (fun slot => if va > slot.nextAnonVa then { slot with nextAnonVa := va } else slot)
    ⟨pml4Phys, libVaBase, va⟩
  obtain ⟨before, upserted⟩ := upsertSlot_spec done (fun slot key => by split <;> exact key) rfl
  rw [before, found, Option.elim_some] at upserted
  simp only [setAnonCursor, done]
  convert upserted using 1
  split
  · rw [Nat.max_eq_right (by omega)]
  · rw [Nat.max_eq_left (by omega)]

structure SafeMmap (spaces : AddressSpaces) (pml4Phys hintVa pages : Nat) (mapped : Nat → Bool) :
    Prop where
  room : HasSlot spaces.libs pml4Phys ∨ HasSlot spaces.libs 0 ∧
    ∀ range, some range ∈ spaces.libs.recycled → range.pml4Phys ≠ pml4Phys
  low : spaces.libs.anonCursor pml4Phys < 2 ^ 63
  recycledClear : hintVa = 0 → ∀ range, some range ∈ spaces.libs.recycled →
    range.pml4Phys = pml4Phys → ∀ page, page % 4096 = 0 →
      overlaps range.va range.size page = true → mapped page = false
  hintFree : hintVa ≠ 0 →
    (∀ page, page < pages → mapped (u64 (alignDown 4096 hintVa + page * 4096)) = false) →
    FreshRange spaces pml4Phys (alignDown 4096 hintVa) pages

section

variable (orderly : Orderly spaces)
include orderly

lemma Orderly.takeRecycled {size : Nat} {range : RecycledRange}
    {recycled : List (Option RecycledRange)} (few : pages ≤ 65536)
    (updated : updateFirst (fits (anonAlign size) (pages * 4096) pml4Phys)
      (remainder (anonAlign size) (pages * 4096)) spaces.libs.recycled =
        some (some range, recycled)) :
    some range ∈ spaces.libs.recycled ∧ range.pml4Phys = pml4Phys ∧
      (∀ page, page < pages → overlaps range.va range.size
        (alignUp (anonAlign size) range.va + page * 4096)) ∧
      Orderly { spaces with libs := { spaces.libs with recycled } } ∧
      FreshRange { spaces with libs := { spaces.libs with recycled } } pml4Phys
        (alignUp (anonAlign size) range.va) pages := by
  have member := found_mem updated
  obtain ⟨used, top, settled⟩ := orderly.recycledSettled range member
  have hit := (updateFirst_some updated).1
  simp only [fits, Bool.and_eq_true, beq_iff_eq, decide_eq_true_eq] at hit
  obtain ⟨rfl, fit⟩ := hit
  simp only [topVa] at top
  obtain ⟨above, near, vaAligned⟩ := alignUp_spec size (show range.va + 0x200000 ≤ 2 ^ 64 by omega)
  generalize vaEq : alignUp (anonAlign size) range.va = va at above near vaAligned fit
  have fit' : va + pages * 4096 ≤ range.va + range.size := by
    simp only [u64] at fit
    omega
  have inside : ∀ page, page < pages → overlaps range.va range.size (va + page * 4096) := by
    simp only [overlaps, decide_eq_true_eq]
    omega
  -- what is left of the range lies behind the pages taken
  have left : ∀ rest, remainder (anonAlign size) (pages * 4096) (some range) =
      some rest → rest.pml4Phys = range.pml4Phys ∧ rest.va = va + pages * 4096 ∧
        rest.va + rest.size = range.va + range.size := by
    intro rest isRest
    simp only [remainder, vaEq, u64] at isRest
    obtain ⟨_, rfl⟩ := of_guard isRest
    refine ⟨rfl, by simp only; omega, by simp only; omega⟩
  have smaller : ∀ other page, page % 4096 = 0 →
      coversPage other page (remainder (anonAlign size) (pages * 4096) (some range)) →
      coversPage other page (some range) ∧ va + pages * 4096 ≤ page := by
    intro other page aligned covered
    obtain ⟨rest, isRest, root, inside⟩ := coversPage_iff.1 covered
    obtain ⟨sameRoot, start, stop⟩ := left rest isRest
    simp only [coversPage_iff, overlaps, decide_eq_true_eq] at inside ⊢
    exact ⟨⟨range, rfl, sameRoot ▸ root, by omega, by omega⟩, by omega⟩
  refine ⟨member, rfl, inside, orderly.patch updated
    (fun other page aligned covered => .inl (smaller other page aligned covered).1) ?_,
    vaAligned, by omega, ?_⟩
  · intro rest isRest
    obtain ⟨sameRoot, start, stop⟩ := left rest isRest
    refine ⟨by rw [sameRoot]; exact used, by rw [stop]; simp only [topVa]; omega, ?_⟩
    intro page aligned covered
    rw [sameRoot]
    refine settled page aligned ?_
    simp only [overlaps, decide_eq_true_eq] at covered ⊢
    omega
  intro page bound
  have aligned : (va + page * 4096) % 4096 = 0 := by omega
  refine ⟨settled _ aligned (inside page bound), ?_⟩
  have before := orderly.once range.pml4Phys _ aligned
  have counts := countP_updateFirst updated (coversPage range.pml4Phys (va + page * 4096))
  have old : coversPage range.pml4Phys (va + page * 4096) (some range) := by
    simp only [coversPage, beq_self_eq_true, inside page bound, Bool.and_self]
  have new : coversPage range.pml4Phys (va + page * 4096)
      (remainder (anonAlign size) (pages * 4096) (some range)) = false := by
    refine Bool.eq_false_iff.mpr fun covered => ?_
    have behind := (smaller _ _ aligned covered).2
    omega
  rw [old, new] at counts
  simp only [Bool.toNat_true, Bool.toNat_false] at counts
  simp only [occurrences] at before ⊢
  omega

section

variable (used : pml4Phys ≠ 0)
include used

lemma Orderly.cursor_bounds :
    anonVaBase ≤ spaces.libs.anonCursor pml4Phys ∧ spaces.libs.anonCursor pml4Phys ≤ topVa := by
  simp only [anonCursor]
  cases found : spaces.libs.slotFor pml4Phys with
  | none => exact ⟨Nat.le_refl _, by decide⟩
  | some slot =>
    obtain ⟨member, rfl⟩ := slotFor_key found
    obtain ⟨lower, upper, _⟩ := orderly.cursors slot member used
    exact ⟨lower, upper⟩

lemma Orderly.libCursor_bound :
    libVaBase ≤ spaces.libs.libCursor pml4Phys := by
  simp only [libCursor]
  cases found : spaces.libs.slotFor pml4Phys with
  | none => exact Nat.le_refl _
  | some slot =>
    obtain ⟨member, rfl⟩ := slotFor_key found
    exact (orderly.cursors slot member used).2.2

lemma Orderly.bump
    (few : pages ≤ 65536) (room : HasSlot spaces.libs pml4Phys ∨ HasSlot spaces.libs 0)
    (low : spaces.libs.anonCursor pml4Phys < 2 ^ 63) :
    ∃ libs base, spaces.libs.bumpAnonVa pml4Phys (pages * 4096) = (libs, base) ∧
      Orderly { spaces with libs } ∧ FreshRange { spaces with libs } pml4Phys base pages ∧
      ((∃ range, some range ∈ spaces.libs.recycled ∧ range.pml4Phys = pml4Phys ∧
          libs.asSlots = spaces.libs.asSlots ∧
          ∀ page, page < pages → overlaps range.va range.size (base + page * 4096)) ∨
        (∃ slot, Upserted spaces.libs libs pml4Phys slot ∧ spaces.libs.anonCursor pml4Phys ≤ base ∧
          base < spaces.libs.anonCursor pml4Phys + 0x200000)) := by
  have whole : u64 (pages * 4096 + 4095) / 4096 * 4096 = pages * 4096 := by
    simp only [u64]
    omega
  cases updated : updateFirst (fits (anonAlign (pages * 4096)) (pages * 4096) pml4Phys)
      (remainder (anonAlign (pages * 4096)) (pages * 4096))
      spaces.libs.recycled with
  | some result =>
    obtain ⟨found, recycled⟩ := result
    cases found with
    | none =>
      have impossible := (updateFirst_some updated).1
      cases impossible
    | some range =>
      obtain ⟨member, root, inside, kept, fresh⟩ := orderly.takeRecycled few updated
      refine ⟨_, _, ?_, kept, fresh, .inl ⟨range, member, root, rfl, inside⟩⟩
      simp [bumpAnonVa, whole, updated]
  | none =>
    obtain ⟨libs, slot, upserted, cursor, libCursor, result⟩ :=
      bumpAnonVa_cursor (by rw [whole]; exact updated) room
    obtain ⟨_, _⟩ := orderly.cursor_bounds used
    obtain ⟨above, near, aligned⟩ := alignUp_spec (pages * 4096)
      (show spaces.libs.anonCursor pml4Phys + 0x200000 ≤ 2 ^ 64 by omega)
    generalize alignUp (anonAlign (pages * 4096)) (spaces.libs.anonCursor pml4Phys) = base
      at above near aligned cursor result
    have next : slot.nextAnonVa = base + pages * 4096 := by
      simp only [u64] at cursor
      omega
    have libLow : libVaBase ≤ slot.nextLibVa := libCursor ▸ orderly.libCursor_bound used
    have raised : Orderly { spaces with libs } :=
      orderly.upsert upserted (.inl (by omega)) ⟨by omega, by simp only [topVa]; omega, libLow⟩
    refine ⟨libs, base, result, raised, ⟨aligned, by omega, ?_⟩,
      .inr ⟨slot, upserted, above, near⟩⟩
    intro page bound
    have unsettled : ¬ Settled spaces.libs pml4Phys (base + page * 4096) := by
      have window : libVaBase ≤ anonVaBase := by decide
      rintro (below | ⟨_, below⟩) <;> omega
    refine ⟨.inr ⟨by omega, ?_⟩, ?_⟩
    · rw [upserted.anonCursor_here, next]
      omega
    have unseen := orderly.unseen (by omega) unsettled
    simp only [occurrences, upserted.recycled] at unseen ⊢
    exact unseen

lemma Orderly.mmapUnhinted (nonempty : 0 < pages) (few : pages ≤ 65536)
    (safe : SafeMmap spaces pml4Phys 0 pages mapped) :
    ∃ libs va, spaces.libs.bumpAnonVa pml4Phys (pages * 4096) = (libs, va) ∧
      let candidate := resolve mapped (anonAlign (pages * 4096)) pages maxConflicts va
      let moved := libs.setAnonCursor pml4Phys (u64 (candidate + pages * 4096))
      Orderly { spaces with libs := moved } ∧
        FreshRange { spaces with libs := moved } pml4Phys candidate pages := by
  obtain ⟨libs, base, result, kept, fresh, source⟩ :=
    orderly.bump used few (safe.room.imp_right And.left) safe.low
  refine ⟨libs, base, result, ?_⟩
  obtain ⟨baseAligned, baseFits, basePages⟩ := fresh
  have low := safe.low
  rcases source with ⟨range, member, root, sameSlots, inside⟩ | ⟨slot, upserted, _, _⟩
  · -- a recycled range is clear, so the candidate stays where it is
    have clear : ∀ page, page < pages → mapped (u64 (base + page * 4096)) = false := by
      intro page bound
      have exact_ : u64 (base + page * 4096) = base + page * 4096 := Nat.mod_eq_of_lt (by omega)
      rw [exact_]
      exact safe.recycledClear rfl range member root _ (by omega) (inside page bound)
    simp only [resolve_clear clear]
    have owned : HasSlot spaces.libs pml4Phys :=
      safe.room.resolve_right fun other => other.2 range member root
    obtain ⟨slot, slotMember, key⟩ := owned
    obtain ⟨found, isFound⟩ : ∃ found, libs.slotFor pml4Phys = some found := by
      refine Option.isSome_iff_exists.mp (find?_isSome.mpr ⟨slot, ?_, by simp [key]⟩)
      rw [sameSlots]
      exact slotMember
    have cursor : libs.anonCursor pml4Phys = found.nextAnonVa := by
      simp [anonCursor, isFound]
    have moved := setAnonCursor_spec (u64 (base + pages * 4096)) isFound
    obtain ⟨foundMember, foundKey⟩ := slotFor_key isFound
    have bounds := kept.cursors found foundMember (by rw [foundKey]; exact used)
    have endBound : u64 (base + pages * 4096) ≤ topVa := by
      have top := (orderly.recycledSettled range member).2.1
      have last := inside (pages - 1) (by omega)
      simp only [overlaps, decide_eq_true_eq, topVa, u64] at last top ⊢
      omega
    refine ⟨kept.upsert moved (.inl (by rw [cursor]; exact Nat.le_max_left _ _))
      ⟨Nat.le_trans bounds.1 (Nat.le_max_left _ _), Nat.max_le.mpr ⟨bounds.2.1, endBound⟩,
        bounds.2.2⟩, baseAligned, baseFits, ?_⟩
    intro page bound
    obtain ⟨settled, unseen⟩ := basePages page bound
    refine ⟨settled.mono ?_, ?_⟩
    · rw [moved.anonCursor_here, cursor]
      exact Nat.le_max_left _ _
    · simp only [occurrences, moved.recycled] at unseen ⊢
      exact unseen
  -- above the cursor the candidate only moves further up
  have conflicts : maxConflicts ≤ 2 ^ 18 := by decide
  generalize maxConflicts = fuel at conflicts
  have room : base + (fuel + 1) * 2 ^ 29 ≤ 2 ^ 64 := by
    clear baseFits
    omega
  obtain ⟨lower, upper, aligned⟩ := resolve_spec mapped (pages * 4096) few fuel base
    baseAligned room
  generalize resolve mapped (anonAlign (pages * 4096)) pages fuel base = candidate
    at lower upper aligned
  have exact_ : u64 (candidate + pages * 4096) = candidate + pages * 4096 :=
    Nat.mod_eq_of_lt (by omega)
  simp only [exact_]
  have moved := setAnonCursor_spec (candidate + pages * 4096) upserted.here
  obtain ⟨foundMember, foundKey⟩ := slotFor_key upserted.here
  have bounds := kept.cursors slot foundMember (by rw [foundKey]; exact used)
  have old := orderly.cursor_bounds used
  refine ⟨kept.upsert moved (.inl (by rw [upserted.anonCursor_here]; exact Nat.le_max_left _ _))
    ⟨Nat.le_trans bounds.1 (Nat.le_max_left _ _),
      Nat.max_le.mpr ⟨bounds.2.1, by simp only [topVa]; omega⟩, bounds.2.2⟩, aligned,
    by omega, ?_⟩
  intro page bound
  have unsettled : ¬ Settled spaces.libs pml4Phys (candidate + page * 4096) := by
    have window : libVaBase ≤ anonVaBase := by decide
    rintro (below | ⟨_, below⟩) <;> omega
  refine ⟨.inr ⟨by omega, ?_⟩, ?_⟩
  · rw [moved.anonCursor_here]
    exact Nat.lt_of_lt_of_le (by omega) (Nat.le_max_right _ _)
  have unseen := orderly.unseen (by omega) unsettled
  simp only [occurrences, moved.recycled, upserted.recycled] at unseen ⊢
  exact unseen

lemma Orderly.mmapAnon {hintVa : Nat}
    (safe : SafeMmap spaces pml4Phys hintVa pages mapped) :
    Orderly (spaces.returned (spaces.libs.mmapAnon mapped pml4Phys hintVa pages).1 pml4Phys pages
      (spaces.libs.mmapAnon mapped pml4Phys hintVa pages).2) := by
  simp only [LibTable.mmapAnon]
  split
  · exact orderly
  have few : pages ≤ 65536 := by omega
  split
  · rename_i hinted
    split
    · obtain ⟨libs, base, result, kept, fresh, _⟩ :=
        orderly.bump used few (safe.room.imp_right And.left) safe.low
      rw [result]
      exact kept.give used fresh
    rename_i clear
    refine orderly.give used (safe.hintFree hinted fun page bound => ?_)
    refine Bool.eq_false_iff.mpr fun isMapped => clear ?_
    exact any_eq_true.mpr ⟨page, mem_range.mpr bound, isMapped⟩
  rename_i unhinted
  obtain rfl : hintVa = 0 := Decidable.not_not.mp unhinted
  obtain ⟨libs, base, result, kept, fresh⟩ := orderly.mmapUnhinted used (by omega) few safe
  rw [result]
  exact kept.give used fresh

end

end

end Bump

section Reclaim

variable {spaces : AddressSpaces} {pml4Phys va size : Nat}

lemma Orderly.forget (orderly : Orderly spaces) (keep : Nat × Nat → Bool) :
    Orderly { spaces with live := spaces.live.filter keep } := by
  refine ⟨?_, ?_, ?_, orderly.recycledSettled, orderly.cursors, orderly.libraries⟩
  · exact fun entry member => orderly.rooted entry (List.mem_of_mem_filter member)
  · intro other page aligned
    have before := orderly.once other page aligned
    have fewer := (filter_sublist (p := keep) (l := spaces.live)).count_le (other, page)
    simp only [occurrences] at before ⊢
    omega
  · exact fun entry member => orderly.liveSettled entry (List.mem_of_mem_filter member)

def Owned (spaces : AddressSpaces) (pml4Phys va size : Nat) : Prop :=
  ∀ page, page % 4096 = 0 → overlaps va size page = true → (pml4Phys, page) ∈ spaces.live

lemma Orderly.owned_bound (orderly : Orderly spaces) (owned : Owned spaces pml4Phys va size)
    (nonempty : size ≠ 0) : va + size ≤ topVa := by
  have last := owned ((va + size - 1) / 4096 * 4096) (by omega) (by
    simp only [overlaps, decide_eq_true_eq]
    omega)
  have bounds := orderly.cursor_bounds (orderly.rooted _ last).1
  have window : libVaBase ≤ anonVaBase := by decide
  simp only [topVa] at bounds ⊢
  rcases orderly.liveSettled _ last with below | ⟨_, below⟩ <;> simp only at below <;> omega

lemma unmaps_overlapped (bound : va + size + 4096 ≤ 2 ^ 64)
    (aligned : page % 4096 = 0) (inside : overlaps va size page) (nonempty : size ≠ 0) :
    unmaps va size page := by
  simp only [overlaps, decide_eq_true_eq] at inside
  refine decide_eq_true ⟨nonempty, ?_, ?_⟩
  · simp only [alignDown]
    omega
  · simp only [alignDown, u64]
    omega

lemma Orderly.recycle (orderly : Orderly spaces) (used : pml4Phys ≠ 0) (bound : va + size ≤ topVa)
    (unseen : ∀ page, page % 4096 = 0 → overlaps va size page →
      occurrences spaces pml4Phys page = 0)
    (settled : ∀ page, page % 4096 = 0 → overlaps va size page →
      Settled spaces.libs pml4Phys page) :
    Orderly { spaces with libs := spaces.libs.recycleAnonVa pml4Phys va size } := by
  simp only [recycleAnonVa]
  split
  · exact orderly
  split
  · rename_i found recycled updated
    have member := found_mem updated
    have hit := (updateFirst_some updated).1
    cases found with
    | none => cases hit
    | some range =>
      obtain ⟨_, top, rangeSettled⟩ := orderly.recycledSettled range member
      simp only [touches, Bool.and_eq_true, Bool.or_eq_true, beq_iff_eq, u64] at hit
      simp only [topVa] at top bound
      obtain ⟨rfl, _⟩ := hit
      -- the merged range covers no page that neither of its parts covers
      have merged : ∀ joined, RecycledRange.merge va size (some range) = some joined →
          joined.pml4Phys = range.pml4Phys ∧ joined.va + joined.size ≤ topVa ∧
            ∀ page, overlaps joined.va joined.size page →
              overlaps range.va range.size page ∨ overlaps va size page := by
        intro joined isJoined
        simp only [RecycledRange.merge] at isJoined
        simp only [topVa, overlaps, decide_eq_true_eq]
        split at isJoined
        · rename_i follows
          cases isJoined
          simp only [u64] at follows ⊢
          exact ⟨trivial, by omega, fun page => by omega⟩
        rename_i precedes
        cases isJoined
        simp only [u64] at precedes ⊢
        exact ⟨trivial, by omega, fun page => by omega⟩
      refine orderly.patch updated ?_ ?_
      · intro other page aligned covered
        obtain ⟨joined, isJoined, rfl, inside⟩ := coversPage_iff.1 covered
        obtain ⟨root, _, parts⟩ := merged joined isJoined
        rw [root]
        rcases parts page inside with old | new
        · exact .inl (coversPage_iff.2 ⟨range, rfl, rfl, old⟩)
        · exact .inr (unseen page aligned new)
      intro joined isJoined
      obtain ⟨root, joinedTop, parts⟩ := merged joined isJoined
      refine ⟨by rw [root]; exact used, joinedTop, ?_⟩
      intro page aligned inside
      rw [root]
      rcases parts page inside with old | new
      · exact rangeSettled page aligned old
      · exact settled page aligned new
  split
  · rename_i found recycled updated
    refine orderly.patch updated ?_ ?_
    · intro other page aligned covered
      obtain ⟨_, ⟨⟩, rfl, inside⟩ := coversPage_iff.1 covered
      exact .inr (unseen page aligned inside)
    intro range isRange
    cases isRange
    exact ⟨used, bound, settled⟩
  · exact orderly

lemma Orderly.reclaim (orderly : Orderly spaces) (used : pml4Phys ≠ 0) (nonempty : size ≠ 0)
    (owned : Owned spaces pml4Phys va size) (running : Bool) :
    Orderly (spaces.reclaim pml4Phys va size running) := by
  have forgotten := orderly.forget fun entry => !(entry.1 == pml4Phys && unmaps va size entry.2)
  cases running with
  | false => exact forgotten
  | true =>
    have bound := orderly.owned_bound owned nonempty
    refine forgotten.recycle used bound ?_ ?_
    · intro page aligned inside
      have before := orderly.once pml4Phys page aligned
      have live := count_pos_iff.mpr (owned page aligned inside)
      have gone : (pml4Phys, page) ∉ spaces.live.filter
          (fun entry => !(entry.1 == pml4Phys && unmaps va size entry.2)) := by
        simp only [topVa] at bound
        have unmapped := unmaps_overlapped (by omega) aligned inside nonempty
        simp [unmapped]
      simp only [occurrences] at before ⊢
      rw [List.count_eq_zero_of_not_mem gone]
      omega
    · exact fun page aligned inside => orderly.liveSettled _ (owned page aligned inside)

end Reclaim

section Spaces

variable {spaces : AddressSpaces} {pml4Phys : Nat}

lemma bumpLibVa_spec (size : Nat) (room : HasSlot libs pml4Phys ∨ HasSlot libs 0) :
    ∃ changed slot, Upserted libs changed pml4Phys slot ∧
      slot.nextAnonVa = libs.anonCursor pml4Phys ∧
      slot.nextLibVa = u64 (libs.libCursor pml4Phys +
        u64 (size + libVaStride - 1) / libVaStride * libVaStride) ∧
      libs.bumpLibVa pml4Phys size = (changed, libs.libCursor pml4Phys) := by
  obtain ⟨old, changed, done⟩ := upsertSlot_room room
    (fun slot : AsSlot => { slot with
      nextLibVa := u64 (slot.nextLibVa + u64 (size + libVaStride - 1) / libVaStride * libVaStride) })
    ⟨pml4Phys, u64 (libVaBase + u64 (size + libVaStride - 1) / libVaStride * libVaStride),
      anonVaBase⟩
  obtain ⟨before, upserted⟩ := upsertSlot_spec done (fun _ key => key) rfl
  refine ⟨changed, _, upserted, ?_⟩
  simp only [bumpLibVa, anonCursor, libCursor, ← before, done]
  cases old with
  | none | some slot => exact ⟨rfl, rfl, rfl⟩

def SafeDlopen (spaces : AddressSpaces) (pml4Phys span : Nat) : Prop :=
  (HasSlot spaces.libs pml4Phys ∨ HasSlot spaces.libs 0) ∧
    spaces.libs.libCursor pml4Phys + span + libVaStride ≤ anonVaBase

lemma Orderly.dlopen (orderly : Orderly spaces) (used : pml4Phys ≠ 0) {span : Nat}
    (safe : SafeDlopen spaces pml4Phys span) (pid : Nat) (mappedSegments : Bool) :
    Orderly (spaces.step (.dlopen pml4Phys pid span mappedSegments)) := by
  obtain ⟨room, fits⟩ := safe
  obtain ⟨libs, slot, upserted, anon, next, result⟩ := bumpLibVa_spec span room
  have low := orderly.libCursor_bound used
  obtain ⟨lower, upper⟩ := orderly.cursor_bounds used
  have bumped : libVaBase ≤ slot.nextLibVa := by
    simp only [libVaStride, anonVaBase, u64] at fits next
    omega
  have kept : Orderly { spaces with libs } :=
    orderly.upsert upserted (.inl (Nat.le_of_eq anon.symm)) ⟨anon ▸ lower, anon ▸ upper, bumped⟩
  have fitted : libVaBase ≤ spaces.libs.libCursor pml4Phys ∧
      spaces.libs.libCursor pml4Phys + span ≤ anonVaBase := ⟨low, by omega⟩
  have loaded : ∀ lib ∈ ⟨pml4Phys, spaces.libs.libCursor pml4Phys, span⟩ :: spaces.loaded,
      libVaBase ≤ lib.base ∧ lib.base + lib.span ≤ anonVaBase := by
    intro lib member
    rcases mem_cons.mp member with rfl | old
    · exact fitted
    · exact orderly.libraries lib old
  simp only [AddressSpaces.step, result]
  cases mappedSegments with
  | false => exact kept
  | true =>
    simp only [register, if_true]
    split
    · exact kept
    · exact ⟨kept.rooted, kept.once, kept.liveSettled, kept.recycledSettled, kept.cursors, loaded⟩

lemma Orderly.processExit (orderly : Orderly spaces) :
    Orderly (spaces.step (.processExit pml4Phys)) := by
  have forgotten := orderly.forget fun entry => entry.1 != pml4Phys
  exact ⟨forgotten.rooted, forgotten.once, forgotten.liveSettled, forgotten.recycledSettled,
    forgotten.cursors,
    fun lib member => orderly.libraries lib (List.mem_of_mem_filter member)⟩

def SafeFork (spaces : AddressSpaces) (parent child : Nat) : Prop :=
  parent ≠ 0 ∧ child ≠ parent ∧ Vacant spaces child ∧
    (HasSlot spaces.libs child ∨ HasSlot spaces.libs 0)

lemma Orderly.fork (orderly : Orderly spaces) {parent child : Nat} (used : child ≠ 0)
    (safe : SafeFork spaces parent child) : Orderly (spaces.step (.fork parent child)) := by
  obtain ⟨parentUsed, _, vacant, room⟩ := safe
  let copied : AsSlot :=
    { (spaces.libs.slotFor parent).getD ⟨parent, libVaBase, anonVaBase⟩ with pml4Phys := child }
  obtain ⟨old, libs, done⟩ := upsertSlot_room room (fun _ => copied) copied
  obtain ⟨_, upserted⟩ := upsertSlot_spec done (fun _ _ => rfl) rfl
  have cloned : spaces.libs.cloneAsSlot parent child = libs := by
    simp only [cloneAsSlot, parentUsed, used, or_self, if_false]
    have same : spaces.libs.upsertSlot child (fun _ => copied) copied = some (old, libs) := done
    rw [same]
  have copiedSlot : old.elim copied (fun _ => copied) = copied := by cases old <;> rfl
  rw [copiedSlot] at upserted
  have anon : copied.nextAnonVa = spaces.libs.anonCursor parent := by
    simp only [copied, anonCursor]
    cases spaces.libs.slotFor parent <;> rfl
  have lib : copied.nextLibVa = spaces.libs.libCursor parent := by
    simp only [copied, libCursor]
    cases spaces.libs.slotFor parent <;> rfl
  obtain ⟨lower, upper⟩ := orderly.cursor_bounds parentUsed
  have kept : Orderly { spaces with libs } := orderly.upsert upserted (.inr vacant)
    ⟨anon ▸ lower, anon ▸ upper, lib ▸ orderly.libCursor_bound parentUsed⟩
  have inherited : ∀ entry ∈ (spaces.live.filter fun entry => entry.1 == parent).map
      fun entry => (child, entry.2), entry.1 = child ∧ (parent, entry.2) ∈ spaces.live := by
    intro entry member
    obtain ⟨source, inside, rfl⟩ := List.mem_map.mp member
    obtain ⟨live, root⟩ := List.mem_filter.mp inside
    exact ⟨rfl, by rw [← (beq_iff_eq.mp root : source.1 = parent)]; exact live⟩
  have forked := @Orderly.extend _ kept
    ((spaces.live.filter fun entry => entry.1 == parent).map fun entry => (child, entry.2)) ?_ ?_
  · simp only [AddressSpaces.step, cloned]
    refine ⟨forked.rooted, forked.once, forked.liveSettled, kept.recycledSettled, kept.cursors, ?_⟩
    intro lib member
    rcases List.mem_append.mp member with new | before
    · obtain ⟨source, inside, rfl⟩ := List.mem_map.mp new
      exact orderly.libraries source (List.mem_of_mem_filter inside)
    · exact orderly.libraries lib before
  · intro entry member
    obtain ⟨rfl, source⟩ := inherited entry member
    refine ⟨used, (orderly.rooted _ source).2, ?_, ?_⟩
    · refine (orderly.liveSettled _ source).imp_right fun bounds => ⟨bounds.1, ?_⟩
      rw [upserted.anonCursor_here, anon]
      exact bounds.2
    simp only [occurrences, upserted.recycled]
    rw [List.count_eq_zero_of_not_mem fun member => vacant.1 _ member rfl, List.countP_eq_zero.mpr]
    intro slot member covered
    obtain ⟨range, rfl, root, _⟩ := coversPage_iff.1 covered
    exact vacant.2 range member root
  intro entry member
  obtain ⟨rfl, source⟩ := inherited entry member
  have single := orderly.once parent entry.2 (orderly.rooted _ source).2
  refine Nat.le_trans ?_ (Nat.le_trans (Nat.le_add_right _ _) single)
  simp only [List.count, List.countP_map, List.countP_filter]
  refine List.countP_mono_left fun other _ counted => ?_
  simp only [Function.comp_apply, Bool.and_eq_true, beq_iff_eq] at counted
  simp only [beq_iff_eq]
  exact Prod.ext counted.2 (Prod.mk.inj counted.1).2

end Spaces

structure SafeThreadExit (spaces : AddressSpaces) (pml4Phys stackBase stackSize fsBase : Nat) :
    Prop where
  stack : stackBase ≠ 0 ∧ stackSize ≠ 0 ∧ isAnon stackBase = true →
    Owned spaces pml4Phys stackBase stackSize
  tls : fsBase ≠ 0 ∧ isAnon fsBase = true → Owned spaces pml4Phys fsBase 4096
  apart : ∀ page, unmaps stackBase stackSize page = true → overlaps fsBase 4096 page = false

def Careful (spaces : AddressSpaces) : Call → Prop
  | .mmap pml4Phys hintVa size mapped =>
    size < 0x80000000 ∧ SafeMmap spaces pml4Phys hintVa ((size + 4095) / 4096) mapped
  | .kernelMmap pml4Phys pages mapped => SafeMmap spaces pml4Phys 0 pages mapped
  | .munmap pml4Phys va size => Owned spaces pml4Phys va size
  | .threadExit pml4Phys stackBase stackSize fsBase _ =>
    SafeThreadExit spaces pml4Phys stackBase stackSize fsBase
  | .dlopen pml4Phys _ span _ => SafeDlopen spaces pml4Phys span
  | .processExit _ => True
  | .fork parent child => SafeFork spaces parent child

lemma Orderly.mmap {spaces : AddressSpaces} (orderly : Orderly spaces)
    {pml4Phys hintVa size : Nat} (used : pml4Phys ≠ 0)
    (real : size < 0x80000000)
    (safe : SafeMmap spaces pml4Phys hintVa ((size + 4095) / 4096) mapped) :
    Orderly (spaces.step (.mmap pml4Phys hintVa size mapped)) := by
  have given := orderly.mmapAnon used safe
  simp only [AddressSpaces.step, sysMmap]
  rw [if_neg (by omega)]
  split
  · exact orderly
  split
  · rename_i result
    rw [result] at given
    exact given
  rename_i result
  rw [result] at given
  exact given

lemma Orderly.threadExit {spaces : AddressSpaces} (orderly : Orderly spaces)
    {pml4Phys stackBase stackSize fsBase : Nat} (used : pml4Phys ≠ 0)
    (safe : SafeThreadExit spaces pml4Phys stackBase stackSize fsBase) (running : Bool) :
    Orderly (spaces.step (.threadExit pml4Phys stackBase stackSize fsBase running)) := by
  simp only [AddressSpaces.step]
  by_cases stack : stackBase ≠ 0 ∧ stackSize ≠ 0 ∧ isAnon stackBase
  · have reclaimed := orderly.reclaim used stack.2.1 (safe.stack stack) running
    split
    · rename_i tls
      refine reclaimed.reclaim used (by decide) ?_ running
      -- the TLS page survives the unmapping of the stack
      intro page aligned inside
      refine mem_filter.mpr ⟨safe.tls tls page aligned inside, ?_⟩
      by_cases unmapped : unmaps stackBase stackSize page
      · rw [safe.apart page unmapped] at inside
        cases inside
      · simp [unmapped]
    · exact reclaimed
  split
  · rename_i tls
    exact orderly.reclaim used (by decide) (safe.tls tls) running
  · exact orderly

lemma start_orderly {spaces : AddressSpaces} (begun : system.start spaces) : Orderly spaces := by
  subst begun
  have noRange : ∀ slot ∈ new.recycled, slot = none := fun slot member => eq_of_mem_replicate member
  refine ⟨by simp, ?_, by simp, ?_, ?_, by simp⟩
  · intro pml4Phys page _
    have none : new.recycled.countP (coversPage pml4Phys page) = 0 := by
      refine List.countP_eq_zero.mpr fun slot member => ?_
      rw [noRange slot member]
      exact Bool.false_ne_true
    simp [occurrences, none]
  · intro range member
    cases noRange _ member
  intro slot member used
  rw [eq_of_mem_replicate member] at used
  exact absurd rfl used

lemma step_orderly {spaces next : AddressSpaces} {call : Call} (orderly : Orderly spaces)
    (careful : Careful spaces call) (taken : system.step spaces call = some next) :
    Orderly next := by
  simp only [system] at taken
  split at taken
  · cases taken
  rename_i used
  cases taken
  cases call with
  | mmap pml4Phys hintVa size mapped => exact orderly.mmap used careful.1 careful.2
  | kernelMmap pml4Phys pages mapped => exact orderly.mmapAnon used careful
  | munmap pml4Phys va size =>
    simp only [AddressSpaces.step]
    split
    · exact orderly
    · rename_i nonempty
      exact orderly.reclaim used nonempty careful true
  | threadExit pml4Phys stackBase stackSize fsBase running =>
    exact orderly.threadExit used careful running
  | dlopen pml4Phys pid span mappedSegments => exact orderly.dlopen used careful pid mappedSegments
  | processExit pml4Phys => exact orderly.processExit
  | fork parent child => exact orderly.fork used careful

theorem mmap_disjoint (spaces : AddressSpaces) (reached : system.Reachable Careful spaces) :
    spaces.live.Nodup ∧ ∀ entry ∈ spaces.live, ∀ lib ∈ spaces.loaded, lib.pml4Phys = entry.1 →
      overlaps lib.base lib.span entry.2 = false := by
  have orderly : Orderly spaces := by
    refine reached.invariant ?_ ?_
    · exact fun _ begun => start_orderly begun
    · exact fun _ _ _ before careful taken => step_orderly before careful taken
  refine ⟨nodup_iff_count_le_one.mpr fun entry => ?_, ?_⟩
  · by_cases member : entry ∈ spaces.live
    · have single := orderly.once entry.1 entry.2 (orderly.rooted entry member).2
      exact Nat.le_trans (Nat.le_add_right _ _) single
    · rw [List.count_eq_zero_of_not_mem member]
      omega
  intro entry member lib loaded _
  have aligned := (orderly.rooted entry member).2
  have window := orderly.libraries lib loaded
  refine Bool.eq_false_iff.mpr fun inside => ?_
  simp only [overlaps, decide_eq_true_eq] at inside
  simp only [libVaBase] at window
  rcases orderly.liveSettled entry member with below | _
  · simp only [libVaBase] at below
    omega
  · omega

theorem mmap_disjoint_first :
    ∃ spaces, system.Reachable Careful spaces ∧ spaces.live = [(0x200000, 0x310000000)] ∧
      spaces.live.Nodup := by
  let start : AddressSpaces := { libs := new, live := [], loaded := [] }
  have safe : SafeMmap start 0x200000 0 1 (fun _ => false) := by
    refine ⟨.inr ⟨⟨⟨0, 0, 0⟩, by decide, rfl⟩, ?_⟩, by decide, fun _ _ _ _ _ _ _ => rfl, ?_⟩
    · intro range member
      cases eq_of_mem_replicate member
    · exact fun hinted => absurd rfl hinted
  have reached : system.Reachable Careful (start.step (.mmap 0x200000 0 4096 fun _ => false)) :=
    .step (.start rfl)
      (show Careful start (.mmap 0x200000 0 4096 fun _ => false) from ⟨by decide, safe⟩) rfl
  exact ⟨_, reached, by decide +kernel, (mmap_disjoint _ reached).1⟩

theorem mmap_overlaps :
    ∃ spaces, system.Reachable Runs.anyStep spaces ∧
      spaces.live = [(0x200000, 0x20000000), (0x200000, 0x20000000)] ∧ ¬ spaces.live.Nodup := by
  have ran : (system.run { libs := new, live := [], loaded := [] }
      [.mmap 0x200000 0x20000000 4096 fun _ => false,
        .mmap 0x200000 0x20000000 4096 fun _ => false]).map AddressSpaces.live =
      some [(0x200000, 0x20000000), (0x200000, 0x20000000)] := by decide
  obtain ⟨spaces, reached, live⟩ := Option.map_eq_some_iff.mp ran
  refine ⟨spaces, Runs.Machine.run_reachable (.start rfl) reached, live, ?_⟩
  rw [live]
  decide

/-- No page is mapped twice, waits twice for its next use, or does both. -/
theorem pages_used_once {spaces : AddressSpaces} (reached : system.Reachable Careful spaces)
    {pml4Phys page : Nat} (aligned : page % 4096 = 0) : occurrences spaces pml4Phys page ≤ 1 := by
  have orderly : Orderly spaces := by
    refine reached.invariant ?_ ?_
    · exact fun _ begun => start_orderly begun
    · exact fun _ _ _ before careful taken => step_orderly before careful taken
  exact orderly.once pml4Phys page aligned

theorem mapped_page_used_once : ∃ spaces, system.Reachable Careful spaces ∧
    (0x200000, 0x310000000) ∈ spaces.live ∧ occurrences spaces 0x200000 0x310000000 ≤ 1 := by
  let start : AddressSpaces := { libs := new, live := [], loaded := [] }
  let first : Call := .mmap 0x200000 0 4096 fun _ => false
  have careful : Careful start first := by
    refine ⟨by decide, .inr ⟨⟨⟨0, 0, 0⟩, by decide, rfl⟩, fun _ member => ?_⟩, by decide,
      fun _ _ _ _ _ _ _ => rfl, fun hinted => absurd rfl hinted⟩
    cases eq_of_mem_replicate member
  have reached : system.Reachable Careful (start.step first) := .step (.start rfl) careful rfl
  exact ⟨_, reached, by decide +kernel, pages_used_once reached (by decide)⟩

end OsCortex.Dl
