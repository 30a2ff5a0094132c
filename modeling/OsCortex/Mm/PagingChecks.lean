import OsCortex.Mm.FrameOwnership
import OsCortex.Mm.PagingCore

/-! What the page tables of a set of address spaces look like when every frame has one purpose. -/

namespace OsCortex.Paging

open FrameAllocator Radix List

def tableWidths : List Nat := [256, 512, 512]

def leafWidths : List Nat := tableWidths ++ [512]

def Memory.reach (memory : Memory) (root : Nat) (path : List Nat) : Option Nat :=
  descend Entry.next memory.tables root path

def Held (memory : Memory) (phys : Nat) : Prop :=
  phys % frameSize = 0 ∧ Outstanding memory.frames.log (phys / frameSize)

def IsTable (roots : Nat → Prop) (memory : Memory) (phys : Nat) : Prop :=
  ∃ root path, roots root ∧ Within tableWidths path ∧ memory.reach root path = some phys

def IsLeaf (roots : Nat → Prop) (memory : Memory) (phys : Nat) : Prop :=
  ∃ root path, roots root ∧ Within leafWidths path ∧ path.length = 4 ∧
    memory.reach root path = some phys

def Pageable (roots kept : Nat → Prop) (memory : Memory) (phys : Nat) : Prop :=
  physMask phys = phys ∧ phys / frameSize ∉ freeFrames memory.frames.bitmap ∧
    ¬ IsTable roots memory phys ∧ ¬ kept phys

/-- `kept` are the frames held for something else than page tables and user pages. -/
structure Tidy (regions : List MemRegion) (usable : Finset Nat) (roots kept : Nat → Prop)
    (memory : Memory) : Prop where
  sound : Sound regions usable memory.frames
  once : FreedOnce memory.frames.log
  separate : Separate Entry.next memory.tables roots tableWidths
  tables : ∀ phys, IsTable roots memory phys → Held memory phys
  plain : ∀ root path table index, roots root → Within tableWidths path →
    memory.reach root path = some table → Within leafWidths (path ++ [index]) →
      (memory.tables table index).huge = false
  leaves : ∀ phys, IsLeaf roots memory phys → Pageable roots kept memory phys
  keeps : ∀ phys, kept phys → Held memory phys ∧ ¬ IsTable roots memory phys

structure Fresh (roots kept : Nat → Prop) (memory : Memory) (phys : Nat) : Prop where
  held : Held memory phys
  notTable : ¬ IsTable roots memory phys
  notLeaf : ¬ IsLeaf roots memory phys
  notKept : ¬ kept phys

def Exclusive (roots : Nat → Prop) (memory : Memory) (root : Nat) (path : List Nat) (phys : Nat) :
    Prop :=
  Held memory phys ∧ ∀ root' path', roots root' → Within leafWidths path' → path'.length = 4 →
    memory.reach root' path' = some phys → root' = root ∧ path' = path

def LeavesOwned (roots : Nat → Prop) (memory : Memory) : Prop :=
  ∀ root path phys, roots root → Within leafWidths path → path.length = 4 →
    memory.reach root path = some phys → Exclusive roots memory root path phys

variable {phys root' : Nat} {path' : List Nat}

section

variable {regions : List MemRegion} {usable : Finset Nat} {roots kept : Nat → Prop}
  {memory : Memory}

lemma walkable_of_frame (lower : minAllocFrame ≤ phys / frameSize)
    (upper : phys / frameSize < maxFrames) : walkable phys := by
  have first : minAllocFrame = 256 := rfl
  have last : maxFrames = 1048576 := rfl
  simp only [frameSize] at lower upper
  refine decide_eq_true ⟨?_, ?_⟩
  · rintro rfl
    omega
  · simp only [ramLimit]
    omega

section

variable (tidy : Tidy regions usable roots kept memory)
include tidy

lemma Tidy.held_bounds (held : Held memory phys) :
    minAllocFrame ≤ phys / frameSize ∧ phys / frameSize < maxFrames ∧
      phys / frameSize ∉ freeFrames memory.frames.bitmap := by
  obtain ⟨_, _, split, _⟩ := held.2
  have handed : Event.handedOut (phys / frameSize) ∈ memory.frames.log := by
    rw [split]
    simp
  obtain ⟨lower, upper, _⟩ := tidy.sound.usableFrame _ (tidy.sound.handedUsable _ handed)
  exact ⟨lower, upper, tidy.sound.outstandingTaken _ held.2⟩

lemma Tidy.held_walkable (held : Held memory phys) : walkable phys :=
  walkable_of_frame (tidy.held_bounds held).1 (tidy.held_bounds held).2.1

lemma Tidy.held_mask (held : Held memory phys) : physMask phys = phys := by
  have aligned := held.1
  have bound := (of_decide_eq_true (tidy.held_walkable held)).2
  simp only [frameSize, ramLimit] at aligned bound
  simp only [physMask]
  omega

end

lemma physMask_aligned (masked : physMask phys = phys) : phys % frameSize = 0 := by
  rw [← masked, physMask, frameSize]
  omega

lemma Within.table {path : List Nat} (within : Within tableWidths path) : Within leafWidths path :=
  Radix.Within.extend within [512]

lemma Within.upper {before after : List Nat} {index : Nat}
    (within : Within leafWidths (before ++ index :: after)) : Within tableWidths before :=
  Radix.Within.inner within

def Memory.take (memory : Memory) (start count : Nat) : Memory :=
  { memory with
    frames :=
      { bitmap := memory.frames.bitmap.takeRun start count
        log := (List.range' start count).map Event.handedOut ++ memory.frames.log } }

lemma Held.take (held : Held memory phys) (start count : Nat) :
    Held (memory.take start count) phys :=
  ⟨held.1, outstanding_handOut_iff.mpr (.inr held.2)⟩

lemma Held.freeFrame {other : Nat} (held : Held memory phys) (different : other ≠ phys)
    (aligned : other % frameSize = 0) : Held (memory.freeFrame other) phys := by
  refine ⟨held.1, held.2.freed fun same => different ?_⟩
  have alignedPhys := held.1
  simp only [frameSize] at same aligned alignedPhys
  omega

structure Place (roots : Nat → Prop) (memory : Memory) (root : Nat) (path : List Nat)
    (table : Nat) : Prop where
  isRoot : roots root
  within : Within tableWidths path
  here : memory.reach root path = some table

lemma Place.isTable {root table : Nat} {path : List Nat}
    (place : Place roots memory root path table) : IsTable roots memory table :=
  ⟨root, path, place.isRoot, place.within, place.here⟩

section

variable (tidy : Tidy regions usable roots kept memory)
include tidy

lemma Tidy.fresh_pageable
    (fresh : Fresh roots kept memory phys) : Pageable roots kept memory phys :=
  ⟨tidy.held_mask fresh.held, (tidy.held_bounds fresh.held).2.2, fresh.notTable, fresh.notKept⟩

lemma Tidy.mono {roots' kept' : Nat → Prop}
    (fewer : ∀ root, roots' root → roots root) (lesser : ∀ phys, kept' phys → kept phys) :
    Tidy regions usable roots' kept' memory := by
  have table : ∀ phys, IsTable roots' memory phys → IsTable roots memory phys := by
    rintro phys ⟨root, path, isRoot, within, reached⟩
    exact ⟨root, path, fewer root isRoot, within, reached⟩
  have leaf : ∀ phys, IsLeaf roots' memory phys → IsLeaf roots memory phys := by
    rintro phys ⟨root, path, isRoot, within, length, reached⟩
    exact ⟨root, path, fewer root isRoot, within, length, reached⟩
  refine ⟨tidy.sound, tidy.once, ?_, fun phys isTable => tidy.tables phys (table phys isTable), ?_,
    ?_, ?_⟩
  · intro root root' path path' shared isRoot isRoot'
    exact tidy.separate root root' path path' shared (fewer root isRoot) (fewer root' isRoot')
  · exact fun root path shared index isRoot => tidy.plain root path shared index (fewer root isRoot)
  · intro phys isLeaf
    obtain ⟨masked, taken, notTable, notKept⟩ := tidy.leaves phys (leaf phys isLeaf)
    exact ⟨masked, taken, fun isTable => notTable (table phys isTable),
      fun isKept => notKept (lesser phys isKept)⟩
  intro phys isKept
  obtain ⟨held, notTable⟩ := tidy.keeps phys (lesser phys isKept)
  exact ⟨held, fun isTable => notTable (table phys isTable)⟩

lemma Tidy.take {start count : Nat}
    (run : FreeRun memory.frames.bitmap start count) :
    Tidy regions usable roots kept (memory.take start count) := by
  refine ⟨tidy.sound.handOut run, tidy.once.handOut _, tidy.separate,
    fun phys isTable => (tidy.tables phys isTable).take start count, tidy.plain, ?_, ?_⟩
  · intro phys isLeaf
    obtain ⟨masked, taken, rest⟩ := tidy.leaves phys isLeaf
    refine ⟨masked, ?_, rest⟩
    show _ ∉ freeFrames (memory.frames.bitmap.takeRun start count)
    rw [freeFrames_takeRun]
    exact fun member => taken (Finset.mem_sdiff.mp member).1
  intro phys isKept
  obtain ⟨held, notTable⟩ := tidy.keeps phys isKept
  exact ⟨held.take start count, notTable⟩

lemma Tidy.take_fresh {start count frame : Nat}
    (run : FreeRun memory.frames.bitmap start count) (member : frame ∈ range' start count) :
    Fresh roots kept (memory.take start count) (frame * frameSize) := by
  have isFree : frame ∈ freeFrames memory.frames.bitmap :=
    freeRun_subset run (mem_toFinset.mpr member)
  have number : frame * frameSize / frameSize = frame := Nat.mul_div_cancel _ (by decide)
  have unheld : ¬ Held memory (frame * frameSize) := by
    intro held
    have taken := (tidy.held_bounds held).2.2
    rw [number] at taken
    exact taken isFree
  refine ⟨⟨Nat.mul_mod_left _ _, ?_⟩, fun isTable => unheld (tidy.tables _ isTable), ?_,
    fun isKept => unheld (tidy.keeps _ isKept).1⟩
  · rw [number]
    exact outstanding_handOut_iff.mpr (.inl member)
  intro isLeaf
  have taken := (tidy.leaves _ isLeaf).2.1
  rw [number] at taken
  exact taken isFree

lemma Tidy.freeFrame (fresh : Fresh roots kept memory phys) :
    Tidy regions usable roots kept (memory.freeFrame phys) := by
  obtain ⟨held, notTable, notLeaf, notKept⟩ := fresh
  have handed : Event.handedOut (phys / frameSize) ∈ memory.frames.log := by
    obtain ⟨_, _, split, _⟩ := held.2
    rw [split]
    simp
  have other : ∀ frame, Held memory frame → frame ≠ phys → Held (memory.freeFrame phys) frame :=
    fun frame isHeld different => isHeld.freeFrame (Ne.symm different) held.1
  refine ⟨tidy.sound.free handed, tidy.once.cons ?_, tidy.separate, ?_, tidy.plain, ?_, ?_⟩
  · intro frame isFreed
    obtain rfl := Event.freed.inj isFreed
    exact held.2
  · intro table isTable
    refine other table (tidy.tables table isTable) ?_
    rintro rfl
    exact notTable isTable
  · intro leaf isLeaf
    obtain ⟨masked, taken, rest⟩ := tidy.leaves leaf isLeaf
    refine ⟨masked, ?_, rest⟩
    show _ ∉ freeFrames (memory.frames.bitmap.free phys)
    rw [freeFrames_free _ (tidy.held_bounds held).2.1, Finset.mem_insert]
    rintro (same | before)
    · have equal : leaf = phys := by
        have aligned := physMask_aligned masked
        have alignedPhys := held.1
        simp only [frameSize] at same aligned alignedPhys
        omega
      exact notLeaf (equal ▸ isLeaf)
    · exact taken before
  intro frame isKept
  obtain ⟨isHeld, notTable'⟩ := tidy.keeps frame isKept
  refine ⟨other frame isHeld ?_, notTable'⟩
  rintro rfl
  exact notKept isKept

lemma Tidy.freeAll {frames : List Nat}
    (distinct : frames.Nodup) (fresh : ∀ phys ∈ frames, Fresh roots kept memory phys) :
    Tidy regions usable roots kept (memory.freeAll frames) := by
  induction frames generalizing memory with
  | nil => exact tidy
  | cons first rest ih =>
    obtain ⟨notLater, restDistinct⟩ := nodup_cons.mp distinct
    have firstFresh := fresh first mem_cons_self
    refine ih (tidy.freeFrame firstFresh) restDistinct fun phys member => ?_
    have before := fresh phys (mem_cons_of_mem _ member)
    refine { before with held := before.held.freeFrame ?_ firstFresh.held.1 }
    rintro rfl
    exact notLater member

lemma Tidy.retable {tables : Store Entry}
    (same : ∀ root path, roots root → Within leafWidths path →
      descend Entry.next tables root path = memory.reach root path)
    (plain : ∀ root path table index, Place roots memory root path table →
      Within leafWidths (path ++ [index]) → (tables table index).huge = false) :
    Tidy regions usable roots kept { memory with tables } := by
  have table : ∀ phys, IsTable roots { memory with tables } phys → IsTable roots memory phys := by
    rintro phys ⟨root, path, isRoot, within, reached⟩
    exact ⟨root, path, isRoot, within, (same root path isRoot (Within.table within)).symm.trans reached⟩
  have leaf : ∀ phys, IsLeaf roots { memory with tables } phys → IsLeaf roots memory phys := by
    rintro phys ⟨root, path, isRoot, within, length, reached⟩
    exact ⟨root, path, isRoot, within, length, (same root path isRoot within).symm.trans reached⟩
  refine ⟨tidy.sound, tidy.once, tidy.separate.congr fun root path isRoot within =>
    same root path isRoot (Within.table within),
    fun phys isTable => tidy.tables phys (table phys isTable), ?_, ?_, ?_⟩
  · intro root path shared index isRoot within reached
    have before := (same root path isRoot (Within.table within)).symm.trans reached
    exact plain root path shared index ⟨isRoot, within, before⟩
  · intro phys isLeaf
    obtain ⟨masked, taken, notTable, notKept⟩ := tidy.leaves phys (leaf phys isLeaf)
    exact ⟨masked, taken, fun isTable => notTable (table phys isTable), notKept⟩
  intro phys isKept
  obtain ⟨held, notTable⟩ := tidy.keeps phys isKept
  exact ⟨held, fun isTable => notTable (table phys isTable)⟩

end

lemma reach_fill (notTable : ¬ IsTable roots memory phys) (entries : Nat → Entry)
    {root : Nat} {path : List Nat} (isRoot : roots root) (within : Within leafWidths path) :
    descend Entry.next (memory.tables.fill phys entries) root path = memory.reach root path := by
  refine descend_fill fun before index after split reached => ?_
  exact notTable ⟨root, before, isRoot, Within.upper (split ▸ within), reached⟩

section Write

variable {root table index : Nat} {path : List Nat} {entry : Entry}

section

variable (separate : Separate Entry.next memory.tables roots tableWidths)
  (place : Place roots memory root path table)
include separate place

lemma reach_write
    (bare : ∀ rest, rest ≠ [] → Within leafWidths (path ++ index :: rest) →
      memory.reach root (path ++ index :: rest) = none ∧ ∀ child, entry.next = some child →
        descend Entry.next (memory.tables.write table index entry) child rest = none)
    (isRoot' : roots root') (within' : Within leafWidths path') :
    descend Entry.next (memory.tables.write table index entry) root' path' =
      if root' = root ∧ path' = path ++ [index] then entry.next
      else memory.reach root' path' := by
  refine separate.descend_write place.isRoot place.within place.here isRoot' ?_ ?_
  · intro before later after split
    exact Within.upper (split ▸ within')
  intro rest nonempty split
  rw [split]
  exact bare rest nonempty (split ▸ within')

section Link

variable (notTable : ¬ IsTable roots memory phys)
  (empty : (memory.tables table index).present = false) (linked : entry.next = some phys)
include notTable empty linked

lemma link_reach (isRoot' : roots root') (within' : Within leafWidths path') :
    descend Entry.next ((memory.tables.fill phys fun _ => {}).write table index entry) root' path' =
      if root' = root ∧ path' = path ++ [index] then some phys
      else memory.reach root' path' := by
  have filled := fun {root path} (isRoot : roots root) (within : Within leafWidths path) =>
    reach_fill notTable (fun _ => {}) isRoot within
  have here : descend Entry.next (memory.tables.fill phys fun _ => {}) root path = some table :=
    (filled place.isRoot (Within.table place.within)).trans place.here
  have different : phys ≠ table := by
    rintro rfl
    exact notTable place.isTable
  rw [← filled isRoot' within']
  refine (separate.congr fun root path isRoot within => filled isRoot (Within.table within))
    |>.descend_link place.isRoot place.within here ?_ linked different ?_ isRoot' ?_
  · simp [Store.fill, different.symm, Entry.next, empty]
  · simp [Store.fill, Entry.next]
  · exact fun before later after split => Within.upper (split ▸ within')

lemma link_separate : Separate Entry.next
    ((memory.tables.fill phys fun _ => {}).write table index entry) roots tableWidths :=
  separate.link _ _ _ _ (fun _ _ isRoot' within' => link_reach separate place notTable empty linked isRoot'
    (Within.table within')) fun root' path' isRoot' within' reached =>
      notTable ⟨root', path', isRoot', within', reached⟩

lemma link_isTable {shared : Nat} (isTable : IsTable roots { memory with
      tables := (memory.tables.fill phys fun _ => {}).write table index entry } shared) :
    shared = phys ∨ IsTable roots memory shared := by
  obtain ⟨root', path', isRoot', within', reached⟩ := isTable
  have value := (link_reach separate place notTable empty linked isRoot'
    (Within.table within')).symm.trans reached
  split at value
  · exact .inl (Option.some.inj value).symm
  · exact .inr ⟨root', path', isRoot', within', value⟩

end Link

section Leaf

variable (deep : path.length = 3)
include deep

lemma leaf_reach (index : Nat) (entry : Entry) (isRoot' : roots root')
    (within' : Within leafWidths path') :
    descend Entry.next (memory.tables.write table index entry) root' path' =
      if root' = root ∧ path' = path ++ [index] then entry.next
      else memory.reach root' path' := by
  refine reach_write separate place ?_ isRoot' within'
  intro rest nonempty tooLong
  have short := tooLong.length_le
  have longer := length_pos_of_ne_nil nonempty
  simp only [leafWidths, tableWidths, length_append, length_cons, length_nil] at short
  omega

lemma leaf_tables (isRoot' : roots root') (within' : Within tableWidths path') :
    descend Entry.next (memory.tables.write table index entry) root' path' =
      memory.reach root' path' := by
  rw [leaf_reach separate place deep index entry isRoot' (Within.table within'), if_neg]
  rintro ⟨_, rfl⟩
  have short := within'.length_le
  simp only [tableWidths, length_append, length_cons, length_nil] at short
  omega

lemma leaf_isTable
    (isTable : IsTable roots { memory with tables := memory.tables.write table index entry } phys) :
    IsTable roots memory phys := by
  obtain ⟨root', path', isRoot', within', reached⟩ := isTable
  exact ⟨root', path', isRoot', within',
    (leaf_tables separate place deep isRoot' within').symm.trans reached⟩

lemma leaf_separate :
    Separate Entry.next (memory.tables.write table index entry) roots tableWidths :=
  separate.congr fun _ _ isRoot within => leaf_tables separate place deep isRoot within

end Leaf

end

lemma Tidy.setLeaf (tidy : Tidy regions usable roots kept memory)
    (place : Place roots memory root path table) (deep : path.length = 3)
    (small : entry.huge = false)
    (fit : ∀ phys, entry.next = some phys → Pageable roots kept memory phys) :
    Tidy regions usable roots kept
      { memory with tables := memory.tables.write table index entry } := by
  refine ⟨tidy.sound, tidy.once, leaf_separate tidy.separate place deep,
    fun shared isTable => tidy.tables shared (leaf_isTable tidy.separate place deep isTable),
    ?_, ?_, ?_⟩
  · intro root' path' shared index' isRoot' within' reached within''
    simp only [Store.write]
    split
    · exact small
    · exact tidy.plain root' path' shared index' isRoot' within'
        ((leaf_tables tidy.separate place deep isRoot' within').symm.trans reached) within''
  · rintro shared ⟨root', path', isRoot', within', length, reached⟩
    have value :=
      (leaf_reach tidy.separate place deep index entry isRoot' within').symm.trans reached
    have pageable : Pageable roots kept memory shared := by
      split at value
      · exact fit shared value
      · exact tidy.leaves shared ⟨root', path', isRoot', within', length, value⟩
    obtain ⟨masked, taken, notTable, notKept⟩ := pageable
    exact ⟨masked, taken, fun isTable => notTable (leaf_isTable tidy.separate place deep isTable),
      notKept⟩
  intro shared isKept
  obtain ⟨held, notTable⟩ := tidy.keeps shared isKept
  exact ⟨held, fun isTable => notTable (leaf_isTable tidy.separate place deep isTable)⟩

lemma LeavesOwned.setLeaf (owned : LeavesOwned roots memory)
    (tidy : Tidy regions usable roots kept memory)
    (place : Place roots memory root path table) (deep : path.length = 3)
    (own : ∀ phys, entry.next = some phys → Exclusive roots memory root (path ++ [index]) phys) :
    LeavesOwned roots { memory with tables := memory.tables.write table index entry } := by
  have reach := fun {root' path'} (isRoot' : roots root') (within' : Within leafWidths path') =>
    leaf_reach tidy.separate place deep index entry isRoot' within'
  intro root₁ path₁ phys isRoot₁ within₁ length₁ reached₁
  have value₁ := (reach isRoot₁ within₁).symm.trans reached₁
  split at value₁
  · rename_i here₁
    obtain ⟨held, only⟩ := own phys value₁
    refine ⟨held, fun root₂ path₂ isRoot₂ within₂ length₂ reached₂ => ?_⟩
    have value₂ := (reach isRoot₂ within₂).symm.trans reached₂
    rw [here₁.1, here₁.2]
    split at value₂
    · rename_i here₂
      exact here₂
    · exact only root₂ path₂ isRoot₂ within₂ length₂ value₂
  rename_i other₁
  obtain ⟨held, only⟩ := owned root₁ path₁ phys isRoot₁ within₁ length₁ value₁
  refine ⟨held, fun root₂ path₂ isRoot₂ within₂ length₂ reached₂ => ?_⟩
  have value₂ := (reach isRoot₂ within₂).symm.trans reached₂
  split at value₂
  · exact absurd ((own phys value₂).2 root₁ path₁ isRoot₁ within₁ length₁ value₁) other₁
  · exact only root₂ path₂ isRoot₂ within₂ length₂ value₂

end Write

end

end OsCortex.Paging
