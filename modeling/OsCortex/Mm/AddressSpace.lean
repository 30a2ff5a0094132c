import OsCortex.Mm.PagingOperations

/-! Address spaces as a whole, when every user page has a frame of its own. -/

namespace OsCortex.Paging

open FrameAllocator Radix List Memory

variable {regions : List MemRegion} {usable : Finset Nat} {roots kept : Nat → Prop}
  {memory : Memory}

variable {phys : Nat} {entries : Nat → Entry} {path : List Nat}

lemma reach_newRoot {found : Nat}
    (empty : ∀ index, index < 256 → entries index = {}) (within : Within leafWidths path)
    (reached : descend Entry.next (memory.tables.fill phys entries) phys path = some found) :
    path = [] ∧ found = phys := by
  cases path with
  | nil => exact ⟨rfl, (Option.some.inj reached).symm⟩
  | cons index rest => simp [descend, Store.fill, empty index within.1, Entry.next] at reached

variable {root : Nat}

lemma addRoot_leaf {found : Nat}
    (notTable : ¬ IsTable roots memory phys) (empty : ∀ index, index < 256 → entries index = {})
    (isRoot : roots root ∨ root = phys) (within : Within leafWidths path) (length : path.length = 4)
    (reached : descend Entry.next (memory.tables.fill phys entries) root path = some found) :
    roots root ∧ memory.reach root path = some found := by
  rcases isRoot with isRoot | rfl
  · exact ⟨isRoot, (reach_fill notTable entries isRoot within).symm.trans reached⟩
  · rw [(reach_newRoot empty within reached).1] at length
    cases length

lemma LeavesOwned.addRoot (owned : LeavesOwned roots memory)
    (notTable : ¬ IsTable roots memory phys) (empty : ∀ index, index < 256 → entries index = {}) :
    LeavesOwned (fun root => roots root ∨ root = phys)
      { memory with tables := memory.tables.fill phys entries } := by
  intro root path shared isRoot within length reached
  obtain ⟨isRoot, reached⟩ := addRoot_leaf notTable empty isRoot within length reached
  obtain ⟨held, only⟩ := owned root path shared isRoot within length reached
  refine ⟨held, fun root' path' isRoot' within' length' reached' => ?_⟩
  obtain ⟨isRoot', reached'⟩ := addRoot_leaf notTable empty isRoot' within' length' reached'
  exact only root' path' isRoot' within' length' reached'

/-! `free_user_pml4`: on tidy tables it visits exactly what the root reaches. -/

lemma flatMap_range_congr {width : Nat} {left right : Nat → List Nat} {last : List Nat}
    (same : ∀ index, index < width → left index = right index) :
    (range width).flatMap left ++ last = (range width).flatMap right ++ last := by
  rw [flatMap_congr fun index member => same index (mem_range.mp member)]

lemma tableFrames_collect {table index : Nat} {widths : List Nat} {below : Entry → List Nat}
    (good : (memory.tables table index).present → walkable (memory.tables table index).addr)
    (deeper : ∀ child, (memory.tables table index).next = some child → ∀ later, later < 512 →
      below (memory.tables child later) = match (memory.tables child later).next with
        | some frame => collect Entry.next memory.tables widths frame
        | none => []) :
    tableFrames memory.tables below (memory.tables table index) =
      match (memory.tables table index).next with
      | some child => collect Entry.next memory.tables (512 :: widths) child
      | none => [] := by
  by_cases present : (memory.tables table index).present
  · simp only [tableFrames, present, good present, and_self, if_true, Entry.next, collect]
    refine flatMap_range_congr fun later bound => ?_
    rw [deeper _ (by simp [Entry.next, present]) later bound]
    rfl
  · simp [tableFrames, Entry.next, Bool.eq_false_iff.mpr present]

lemma within_table_or_leaf (within : Within leafWidths path) :
    Within tableWidths path ∨ path.length = 4 := by
  have bound := within.length_le
  by_cases short : path.length ≤ tableWidths.length
  · exact .inl (Radix.Within.restrict within short)
  simp only [leafWidths, tableWidths, length_append, length_cons, length_nil] at bound short
  exact .inr (by omega)

def SoleOwner (roots : Nat → Prop) (memory : Memory) (root : Nat) : Prop :=
  ∀ path phys, Within leafWidths path → path.length = 4 → memory.reach root path = some phys →
    Exclusive roots memory root path phys

section

variable (tidy : Tidy regions usable roots kept memory)
include tidy

lemma Tidy.addRoot (fresh : Fresh roots kept memory phys)
    (empty : ∀ index, index < 256 → entries index = {}) :
    Tidy regions usable (fun root => roots root ∨ root = phys) kept
      { memory with tables := memory.tables.fill phys entries } := by
  have old : ∀ {root path}, roots root → Within leafWidths path →
      descend Entry.next (memory.tables.fill phys entries) root path = memory.reach root path :=
    fun isRoot within => reach_fill fresh.notTable entries isRoot within
  have own : ∀ {path found}, Within leafWidths path →
      descend Entry.next (memory.tables.fill phys entries) phys path = some found →
      path = [] ∧ found = phys :=
    fun within reached => reach_newRoot empty within reached
  have tables : ∀ shared, IsTable (fun root => roots root ∨ root = phys)
      { memory with tables := memory.tables.fill phys entries } shared →
      shared = phys ∨ IsTable roots memory shared := by
    rintro shared ⟨root, path, isRoot | rfl, within, reached⟩
    · exact .inr ⟨root, path, isRoot, within, (old isRoot (Within.table within)).symm.trans reached⟩
    · exact .inl (own (Within.table within) reached).2
  have leaf : ∀ shared, IsLeaf (fun root => roots root ∨ root = phys)
      { memory with tables := memory.tables.fill phys entries } shared →
      IsLeaf roots memory shared := by
    rintro shared ⟨root, path, isRoot, within, length, reached⟩
    obtain ⟨isRoot, reached⟩ := addRoot_leaf fresh.notTable empty isRoot within length reached
    exact ⟨root, path, isRoot, within, length, reached⟩
  refine ⟨tidy.sound, tidy.once, ?_, ?_, ?_, ?_, ?_⟩
  · rintro root₁ root₂ path₁ path₂ shared isRoot₁ isRoot₂ within₁ within₂ reached₁ reached₂
    rcases isRoot₁ with isRoot₁ | rfl <;> rcases isRoot₂ with isRoot₂ | rfl
    · rw [old isRoot₁ (Within.table within₁)] at reached₁
      rw [old isRoot₂ (Within.table within₂)] at reached₂
      exact tidy.separate root₁ root₂ path₁ path₂ shared isRoot₁ isRoot₂ within₁ within₂
        reached₁ reached₂
    · rw [old isRoot₁ (Within.table within₁)] at reached₁
      obtain ⟨_, rfl⟩ := own (Within.table within₂) reached₂
      exact absurd ⟨root₁, path₁, isRoot₁, within₁, reached₁⟩ fresh.notTable
    · rw [old isRoot₂ (Within.table within₂)] at reached₂
      obtain ⟨_, rfl⟩ := own (Within.table within₁) reached₁
      exact absurd ⟨root₂, path₂, isRoot₂, within₂, reached₂⟩ fresh.notTable
    · exact ⟨rfl, (own (Within.table within₁) reached₁).1.trans
        (own (Within.table within₂) reached₂).1.symm⟩
  · intro shared isTable
    rcases tables shared isTable with rfl | before
    · exact fresh.held
    · exact tidy.tables shared before
  · rintro root path shared index (isRoot | rfl) within reached within'
    · have before := (old isRoot (Within.table within)).symm.trans reached
      have different : shared ≠ phys := by
        rintro rfl
        exact fresh.notTable ⟨root, path, isRoot, within, before⟩
      simp only [Store.fill, different, if_false]
      exact tidy.plain root path shared index isRoot within before within'
    obtain ⟨rfl, rfl⟩ := own (Within.table within) reached
    simp only [Store.fill, if_true]
    rw [empty index within'.1]
  · intro shared isLeaf
    obtain ⟨masked, taken, notTable, notKept⟩ := tidy.leaves shared (leaf shared isLeaf)
    refine ⟨masked, taken, fun isTable => ?_, notKept⟩
    rcases tables shared isTable with rfl | before
    · exact fresh.notLeaf (leaf shared isLeaf)
    · exact notTable before
  intro shared isKept
  obtain ⟨held, notTable⟩ := tidy.keeps shared isKept
  refine ⟨held, fun isTable => ?_⟩
  rcases tables shared isTable with rfl | before
  · exact fresh.notKept isKept
  · exact notTable before

lemma Tidy.allocUserPml4 (cr3 : Nat) :
    (memory.allocUserPml4 cr3 = (memory, none) ∧ freeFrames memory.frames.bitmap = ∅) ∨
      ∃ phys after, memory.allocUserPml4 cr3 = (after, some phys) ∧ ¬ roots phys ∧
        Tidy regions usable (fun root => roots root ∨ root = phys) kept after ∧
        (LeavesOwned roots memory → LeavesOwned (fun root => roots root ∨ root = phys) after) ∧
        (freeFrames memory.frames.bitmap).card ≤ (freeFrames after.frames.bitmap).card + 1 := by
  simp only [Memory.allocUserPml4, Memory.allocPageTable]
  rcases tidy.allocFrame with ⟨failed, empty⟩ | ⟨start, run, done⟩
  · left
    exact ⟨by rw [failed], empty⟩
  right
  have fresh := tidy.take_fresh run (mem_range'_one start)
  have grown : Grown roots kept 1 memory (memory.take start 1) := Grown.take run
  simp only [done, Store.fill_fill]
  have lower : ∀ index, index < 256 →
      (if 256 ≤ index ∧ index < 512 then
        (memory.take start 1).tables.fill (start * frameSize) (fun _ => {}) cr3 index
      else (memory.take start 1).tables.fill (start * frameSize) (fun _ => {})
        (start * frameSize) index) = {} := by
    intro index low
    rw [if_neg (by omega)]
    simp [Store.fill]
  refine ⟨_, _, rfl, ?_, (tidy.take run).addRoot fresh lower,
    fun owned => (owned.grown grown).addRoot fresh.notTable lower, grown.budget⟩
  intro isRoot
  exact fresh.notTable ⟨_, [], isRoot, trivial, rfl⟩

lemma Tidy.userFrames_eq (isRoot : roots root) :
    userFrames memory.tables root = collect Entry.next memory.tables leafWidths root := by
  -- what an entry of a placed table leads to is placed one level further down
  have step : ∀ {path table index}, Place roots memory root path table →
      Within tableWidths (path ++ [index]) → ∀ child, (memory.tables table index).next = some child →
      Place roots memory root (path ++ [index]) child := by
    intro path table index place within child linked
    refine ⟨isRoot, within, ?_⟩
    have here : descend Entry.next memory.tables root path = some table := place.here
    simp [reach, descend_concat, here, linked]
  have good : ∀ {path table index}, Place roots memory root path table →
      Within tableWidths (path ++ [index]) → (memory.tables table index).present →
      walkable (memory.tables table index).addr := by
    intro path table index place within present
    have linked : (memory.tables table index).next = some (memory.tables table index).addr := by
      simp [Entry.next, present]
    exact tidy.held_walkable (tidy.tables _ (step place within _ linked).isTable)
  have plain : ∀ {path table index} (frames : Entry → List Nat), Place roots memory root path table →
      Within tableWidths (path ++ [index]) →
      hugeOr frames (memory.tables table index) = frames (memory.tables table index) := by
    intro path table index frames place within
    have small := tidy.plain root path table index isRoot place.within place.here
      (Within.table within)
    simp [hugeOr, small]
  have leafLevel : ∀ entry : Entry, pteFrames entry = match entry.next with
      | some frame => collect Entry.next memory.tables [] frame
      | none => [] := by
    intro entry
    cases present : entry.present <;> simp [pteFrames, Entry.next, present, collect]
  have rootPlace : Place roots memory root [] root := ⟨isRoot, trivial, rfl⟩
  refine flatMap_range_congr fun first firstBound => ?_
  have within₁ : Within tableWidths ([] ++ [first]) := ⟨firstBound, trivial⟩
  refine tableFrames_collect (good rootPlace within₁) fun pdpt isPdpt second secondBound => ?_
  have place₁ := step rootPlace within₁ pdpt isPdpt
  have within₂ : Within tableWidths ([] ++ [first] ++ [second]) :=
    ⟨firstBound, secondBound, trivial⟩
  rw [pdpteFrames, plain _ place₁ within₂]
  refine tableFrames_collect (good place₁ within₂) fun pd isPd third thirdBound => ?_
  have place₂ := step place₁ within₂ pd isPd
  have within₃ : Within tableWidths ([] ++ [first] ++ [second] ++ [third]) :=
    ⟨firstBound, secondBound, thirdBound, trivial⟩
  rw [pdeFrames, plain _ place₂ within₃]
  exact tableFrames_collect (good place₂ within₃) fun pt _ fourth _ => leafLevel _

lemma Tidy.place_unique {root' : Nat}
    {path' : List Nat} (isRoot : roots root) (sole : SoleOwner roots memory root)
    (isRoot' : roots root') (within : Within leafWidths path) (within' : Within leafWidths path')
    (reached : memory.reach root path = some phys)
    (reached' : memory.reach root' path' = some phys) : root' = root ∧ path' = path := by
  rcases within_table_or_leaf within with table | length <;>
    rcases within_table_or_leaf within' with table' | length'
  · exact tidy.separate root' root path' path phys isRoot' isRoot table' table reached' reached
  · have leaf := tidy.leaves phys ⟨root', path', isRoot', within', length', reached'⟩
    exact absurd ⟨root, path, isRoot, table, reached⟩ leaf.2.2.1
  · have leaf := tidy.leaves phys ⟨root, path, isRoot, within, length, reached⟩
    exact absurd ⟨root', path', isRoot', table', reached'⟩ leaf.2.2.1
  · exact (sole path phys within length reached).2 root' path' isRoot' within' length' reached'

end

lemma Held.freeAll {frames : List Nat} (held : Held memory phys)
    (aligned : ∀ frame ∈ frames, frame % frameSize = 0) (other : phys ∉ frames) :
    Held (memory.freeAll frames) phys := by
  induction frames generalizing memory with
  | nil => exact held
  | cons first rest ih =>
    refine ih (held.freeFrame ?_ (aligned first mem_cons_self))
      (fun frame member => aligned frame (mem_cons_of_mem _ member))
      (fun member => other (mem_cons_of_mem _ member))
    rintro rfl
    exact other mem_cons_self

lemma freeAll_tables (memory : Memory) (frames : List Nat) :
    (memory.freeAll frames).tables = memory.tables := by
  induction frames generalizing memory with
  | nil => rfl
  | cons first rest ih => exact ih (memory.freeFrame first)

structure Shrunk (roots : Nat → Prop) (before after : Memory) : Prop where
  leaf : ∀ root path phys, roots root → Within leafWidths path → path.length = 4 →
    after.reach root path = some phys → before.reach root path = some phys
  held : ∀ phys, IsLeaf roots after phys → Held before phys → Held after phys

variable {after : Memory}

lemma Shrunk.isLeaf (shrunk : Shrunk roots memory after)
    (isLeaf : IsLeaf roots after phys) : IsLeaf roots memory phys := by
  obtain ⟨root, path, isRoot, within, length, reached⟩ := isLeaf
  exact ⟨root, path, isRoot, within, length,
    shrunk.leaf root path phys isRoot within length reached⟩

lemma Shrunk.refl (roots : Nat → Prop) (memory : Memory) : Shrunk roots memory memory :=
  ⟨fun _ _ _ _ _ _ reached => reached, fun _ _ held => held⟩

variable {roots' : Nat → Prop}

lemma Shrunk.mono (shrunk : Shrunk roots memory after)
    (fewer : ∀ root, roots' root → roots root) : Shrunk roots' memory after := by
  constructor
  · exact fun root path phys isRoot => shrunk.leaf root path phys (fewer root isRoot)
  · rintro phys ⟨root, path, isRoot, rest⟩
    exact shrunk.held phys ⟨root, path, fewer root isRoot, rest⟩

lemma Shrunk.trans {middle : Memory} (first : Shrunk roots memory middle)
    (second : Shrunk roots middle after) : Shrunk roots memory after := by
  constructor
  · intro root path phys isRoot within length reached
    exact first.leaf root path phys isRoot within length
      (second.leaf root path phys isRoot within length reached)
  · intro phys isLeaf held
    exact second.held phys isLeaf (first.held phys (second.isLeaf isLeaf) held)

lemma Exclusive.shrunk
    (exclusive : Exclusive roots memory root path phys) (shrunk : Shrunk roots memory after)
    (isLeaf : IsLeaf roots after phys) : Exclusive roots after root path phys := by
  refine ⟨shrunk.held phys isLeaf exclusive.1, ?_⟩
  intro root' path' isRoot' within' length' reached'
  exact exclusive.2 root' path' isRoot' within' length'
    (shrunk.leaf root' path' phys isRoot' within' length' reached')

lemma LeavesOwned.shrunk (owned : LeavesOwned roots memory)
    (shrunk : Shrunk roots memory after) : LeavesOwned roots after := by
  intro root path phys isRoot within length reached
  exact (owned root path phys isRoot within length
    (shrunk.leaf root path phys isRoot within length reached)).shrunk shrunk
      ⟨root, path, isRoot, within, length, reached⟩

lemma Exclusive.mono
    (exclusive : Exclusive roots memory root path phys) (fewer : ∀ root, roots' root → roots root) :
    Exclusive roots' memory root path phys :=
  ⟨exclusive.1, fun root' path' isRoot' => exclusive.2 root' path' (fewer root' isRoot')⟩

lemma LeavesOwned.mono (owned : LeavesOwned roots memory)
    (fewer : ∀ root, roots' root → roots root) : LeavesOwned roots' memory :=
  fun root path phys isRoot within length reached =>
    (owned root path phys (fewer root isRoot) within length reached).mono fewer

section

variable (tidy : Tidy regions usable roots kept memory)
include tidy

lemma Tidy.freeUserPml4 (isRoot : roots root) (sole : SoleOwner roots memory root)
    (others : ∀ other, roots' other → roots other ∧ other ≠ root) :
    Tidy regions usable roots' kept (memory.freeUserPml4 root) ∧
      (memory.freeUserPml4 root).tables = memory.tables ∧
      ∀ phys, Held memory phys → (∀ path, Within leafWidths path →
        memory.reach root path ≠ some phys) → Held (memory.freeUserPml4 root) phys := by
  have isWalkable : walkable root :=
    tidy.held_walkable (tidy.tables root ⟨root, [], isRoot, trivial, rfl⟩)
  have below : ∀ phys ∈ userFrames memory.tables root, ∃ path, Within leafWidths path ∧
      memory.reach root path = some phys := by
    intro phys member
    rw [tidy.userFrames_eq isRoot] at member
    exact mem_collect.mp member
  have held : ∀ phys ∈ userFrames memory.tables root, Held memory phys ∧ ¬ kept phys := by
    intro phys member
    obtain ⟨path, within, reached⟩ := below phys member
    rcases within_table_or_leaf within with table | length
    · have isTable : IsTable roots memory phys := ⟨root, path, isRoot, table, reached⟩
      exact ⟨tidy.tables phys isTable, fun isKept => (tidy.keeps phys isKept).2 isTable⟩
    · exact ⟨(sole path phys within length reached).1,
        (tidy.leaves phys ⟨root, path, isRoot, within, length, reached⟩).2.2.2⟩
  have distinct : (userFrames memory.tables root).Nodup := by
    rw [tidy.userFrames_eq isRoot]
    refine nodup_collect fun path path' phys within within' reached reached' => ?_
    exact (tidy.place_unique isRoot sole isRoot within' within reached' reached).2
  simp only [Memory.freeUserPml4, isWalkable, if_true]
  refine ⟨?_, freeAll_tables _ _, ?_⟩
  · refine (tidy.mono (fun other isOther => (others other isOther).1) fun _ isKept => isKept).freeAll
      distinct fun phys member => ?_
    obtain ⟨path, within, reached⟩ := below phys member
    refine ⟨(held phys member).1, ?_, ?_, (held phys member).2⟩
    · rintro ⟨other, path', isOther, within', reached'⟩
      have same := tidy.place_unique isRoot sole (others other isOther).1 within
        (Within.table within') reached reached'
      exact (others other isOther).2 same.1
    rintro ⟨other, path', isOther, within', _, reached'⟩
    have same := tidy.place_unique isRoot sole (others other isOther).1 within within'
      reached reached'
    exact (others other isOther).2 same.1
  intro phys isHeld elsewhere
  refine isHeld.freeAll (fun frame member => (held frame member).1.1) fun member => ?_
  obtain ⟨path, within, reached⟩ := below phys member
  exact elsewhere path within reached

lemma Tidy.freeUserPml4_shrunk (isRoot : roots root) (sole : SoleOwner roots memory root)
    (others : ∀ other, roots' other → roots other ∧ other ≠ root) :
    Shrunk roots' memory (memory.freeUserPml4 root) := by
  obtain ⟨_, sameTables, stillHeld⟩ := tidy.freeUserPml4 isRoot sole others
  have same : ∀ other path, (memory.freeUserPml4 root).reach other path =
      memory.reach other path := by
    simp [reach, sameTables]
  constructor
  · intro other path phys _ _ _ reached
    rwa [same] at reached
  rintro phys ⟨other, path, isOther, within, _, reached⟩ held
  obtain ⟨isRoot', different⟩ := others other isOther
  rw [same] at reached
  refine stillHeld phys held fun path' within' reached' => ?_
  exact different (tidy.place_unique isRoot sole isRoot' within' within reached' reached).1

lemma Tidy.unmapAndFree {virt : Nat} (isRoot : roots root) (lower : lowerHalf virt)
    (sole : ∀ phys, memory.reach root (indices virt) = some phys →
      Exclusive roots memory root (indices virt) phys) :
    (memory.unmapUserPage root virt = some (memory, .error "not present")) ∨
      ∃ phys after, memory.unmapUserPage root virt = some (after, .ok phys) ∧
        Tidy regions usable roots kept (after.freeFrame phys) ∧
        Shrunk roots memory (after.freeFrame phys) := by
  rcases tidy.unmapUserPage isRoot lower with ⟨_, missing⟩ |
    ⟨phys, after, reached, done, afterTidy, frames, reach⟩
  · exact .inl missing
  right
  obtain ⟨held, only⟩ := sole phys reached
  have pageable := tidy.leaves phys ⟨root, indices virt, isRoot, indices_within lower, rfl, reached⟩
  have leaf : ∀ root' path' other, roots root' → Within leafWidths path' → path'.length = 4 →
      after.reach root' path' = some other →
      memory.reach root' path' = some other ∧ other ≠ phys := by
    intro root' path' other isRoot' within' length' found
    rw [reach root' path' isRoot' within'] at found
    split at found
    · cases found
    rename_i elsewhere
    refine ⟨found, ?_⟩
    rintro rfl
    exact elsewhere (only root' path' isRoot' within' length' found)
  have heldAfter : Held after phys := by
    simp only [Held, frames]
    exact held
  have notTable : ¬ IsTable roots after phys := by
    rintro ⟨root', path', isRoot', within', found⟩
    rw [reach root' path' isRoot' (Within.table within')] at found
    split at found
    · cases found
    · exact pageable.2.2.1 ⟨root', path', isRoot', within', found⟩
  have notLeaf : ¬ IsLeaf roots after phys := by
    rintro ⟨root', path', isRoot', within', length', found⟩
    exact (leaf root' path' phys isRoot' within' length' found).2 rfl
  refine ⟨phys, after, done,
    afterTidy.freeFrame ⟨heldAfter, notTable, notLeaf, pageable.2.2.2⟩, ?_, ?_⟩
  · intro root' path' other isRoot' within' length' found
    exact (leaf root' path' other isRoot' within' length' found).1
  rintro other ⟨root', path', isRoot', within', length', found⟩ otherHeld
  have different := (leaf root' path' other isRoot' within' length' found).2
  have before : Held after other := by
    simp only [Held, frames]
    exact otherHeld
  exact before.freeFrame (Ne.symm different) held.1

lemma Tidy.unmapPages
    (isRoot : roots root) {pages : List Nat} (lower : ∀ virt ∈ pages, lowerHalf virt)
    (sole : ∀ virt ∈ pages, ∀ phys, memory.reach root (indices virt) = some phys →
      Exclusive roots memory root (indices virt) phys) :
    ∃ after, memory.unmapPages root pages = some after ∧
      Tidy regions usable roots kept after ∧ Shrunk roots memory after := by
  induction pages generalizing memory with
  | nil => exact ⟨memory, rfl, tidy, Shrunk.refl roots memory⟩
  | cons virt rest ih =>
    have lowerRest := fun virt member => lower virt (mem_cons_of_mem _ member)
    have here := lower virt mem_cons_self
    rcases tidy.unmapAndFree isRoot here (sole virt mem_cons_self) with missing |
      ⟨phys, middle, done, middleTidy, shrunk⟩
    · obtain ⟨after, ran, afterTidy, afterShrunk⟩ := ih tidy lowerRest
        fun virt member => sole virt (mem_cons_of_mem _ member)
      exact ⟨after, by simp [unmapPages, missing, ran], afterTidy, afterShrunk⟩
    have soleRest : ∀ virt ∈ rest, ∀ phys',
        (middle.freeFrame phys).reach root (indices virt) = some phys' →
        Exclusive roots (middle.freeFrame phys) root (indices virt) phys' := by
      intro virt' member phys' reached
      have within := indices_within (lowerRest virt' member)
      exact (sole virt' (mem_cons_of_mem _ member) phys'
        (shrunk.leaf root _ phys' isRoot within rfl reached)).shrunk shrunk
          ⟨root, _, isRoot, within, rfl, reached⟩
    obtain ⟨after, ran, afterTidy, afterShrunk⟩ := ih middleTidy lowerRest soleRest
    exact ⟨after, by simp [unmapPages, done, ran], afterTidy,
      shrunk.trans afterShrunk⟩

end

lemma leafEntry_next (writable exec : Bool) (masked : physMask phys = phys) :
    (leafEntry phys writable exec).next = some phys := by
  rw [leafEntry, Entry.next, if_pos rfl, masked]

end OsCortex.Paging
