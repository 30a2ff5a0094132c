import OsCortex.Mm.AddressSpace

/-! Address spaces, with or without frames that back more than one user page. -/

namespace OsCortex.Paging

open FrameAllocator Radix Outcome Option

/-- `aliased` says whether pages may share their frames. -/
structure Spaces (aliased : Prop) (regions : List MemRegion) (usable : Finset Nat) (roots kept : Nat → Prop)
    (memory : Memory) : Prop where
  tidy : Tidy regions usable roots kept memory
  owned : ¬ aliased → LeavesOwned roots memory

def Memory.room (memory : Memory) : Nat := (freeFrames memory.frames.bitmap).card

variable {aliased : Prop} {regions : List MemRegion} {usable : Finset Nat}
  {roots kept : Nat → Prop} {memory after : Memory} {root virt phys : Nat} {writable exec : Bool} {excuse : Prop}

section

variable (spaces : Spaces aliased regions usable roots kept memory)
include spaces

lemma Spaces.mono {roots' kept' : Nat → Prop} (fewer : ∀ root, roots' root → roots root)
    (lesser : ∀ phys, kept' phys → kept phys) :
    Spaces aliased regions usable roots' kept' memory :=
  ⟨spaces.tidy.mono fewer lesser, fun strict => (spaces.owned strict).mono fewer⟩

lemma Spaces.allocFrame : (memory.allocFrame = (memory, none) ∧ memory.room = 0) ∨
      ∃ after phys, memory.allocFrame = (after, some phys) ∧
        Spaces aliased regions usable roots kept after ∧ ¬ Held memory phys ∧
        Fresh roots kept after phys ∧ Grown roots kept 1 memory after := by
  rcases spaces.tidy.allocFrame with ⟨failed, empty⟩ | ⟨start, run, done⟩
  · exact .inl ⟨failed, by rw [Memory.room, empty, Finset.card_empty]⟩
  have grown : Grown roots kept 1 memory (memory.take start 1) := Grown.take run
  refine .inr ⟨_, _, done, ⟨spaces.tidy.take run, fun strict => (spaces.owned strict).grown grown⟩, ?_,
    spaces.tidy.take_fresh run (mem_range'_one start), grown⟩
  intro held
  refine (spaces.tidy.held_bounds held).2.2 (freeRun_subset run ?_)
  rw [Nat.mul_div_cancel start (by decide)]
  exact List.mem_toFinset.mpr (mem_range'_one start)

lemma Spaces.allocFrameOr {Error : Type} (oom : Error) :
    Costs (Spaces aliased regions usable roots kept) Memory.room excuse 1 memory
      (memory.allocFrameOr oom) fun after phys =>
        ¬ Held memory phys ∧ Fresh roots kept after phys ∧ Grown roots kept 1 memory after := by
  simp only [Memory.allocFrameOr]
  rcases spaces.allocFrame with ⟨failed, _⟩ |
    ⟨after, phys, done, afterSpaces, unheld, fresh, grown⟩
  · rw [failed]
    exact ends_fail ⟨spaces, .inl (by omega)⟩
  · rw [done]
    exact ends_ok ⟨afterSpaces, grown.budget, unheld, fresh, grown⟩

end

lemma Fresh.exclusive (fresh : Fresh roots kept memory phys) (root : Nat) (path : List Nat) :
    Exclusive roots memory root path phys := by
  refine ⟨fresh.held, fun root' path' isRoot' within' length' reached' => ?_⟩
  exact absurd ⟨root', path', isRoot', within', length', reached'⟩ fresh.notLeaf

section

variable (spaces : Spaces aliased regions usable roots kept memory)
include spaces

lemma Spaces.mapped
    (mapped : Mapped regions usable roots kept memory root virt (leafEntry phys writable exec)
      after) (fit : Pageable roots kept memory phys)
    (own : ¬ aliased → Exclusive roots memory root (indices virt) phys) :
    Spaces aliased regions usable roots kept after := by
  have next := leafEntry_next writable exec fit.1
  refine ⟨mapped.tidy rfl fun other isOther => ?_, fun strict =>
    mapped.leavesOwned (spaces.owned strict) fun other isOther => ?_⟩
  · exact some.inj (next.symm.trans isOther) ▸ fit
  · exact some.inj (next.symm.trans isOther) ▸ own strict

lemma Spaces.map (isRoot : roots root)
    (lower : lowerHalf virt) (fit : Pageable roots kept memory phys)
    (own : ¬ aliased → Exclusive roots memory root (indices virt) phys) (writable exec : Bool) :
    Costs (Spaces aliased regions usable roots kept) Memory.room excuse 3 memory
      (memory.mapUserPageWithFlags root virt phys writable exec) fun after _ =>
        Mapped regions usable roots kept memory root virt (leafEntry phys writable exec) after := by
  obtain ⟨after, result, ran, outcome⟩ :=
    spaces.tidy.mapUserPageWithFlags isRoot lower phys writable exec
  refine ⟨after, result, ran, ?_⟩
  rcases outcome with ⟨_, rfl, short, afterTidy, grown⟩ | ⟨rfl, mapped⟩
  · exact ⟨⟨afterTidy, fun strict => (spaces.owned strict).grown grown⟩, .inl short⟩
  · exact ⟨spaces.mapped mapped fit own, mapped.budget, mapped⟩

lemma Spaces.mapAny
    (isRoot : roots root) (lower : lowerHalf virt) (fit : Pageable roots kept memory phys)
    (own : ¬ aliased → Exclusive roots memory root (indices virt) phys) (writable exec : Bool) :
    ∃ after result, memory.mapUserPageWithFlags root virt phys writable exec = some (after, result) ∧
      Spaces aliased regions usable roots kept after := by
  have costs : Costs _ _ False _ _ _ _ := spaces.map isRoot lower fit own writable exec
  obtain ⟨after, result, ran, afterSpaces, _⟩ := costs
  exact ⟨after, result, ran, afterSpaces⟩

lemma Spaces.mapFresh
    (isRoot : roots root) (lower : lowerHalf virt) (fresh : Fresh roots kept memory phys)
    (writable exec : Bool) :
    Costs (Spaces aliased regions usable roots kept) Memory.room excuse 3 memory
      (memory.mapUserPageWithFlags root virt phys writable exec) fun after _ =>
        Mapped regions usable roots kept memory root virt (leafEntry phys writable exec) after :=
  spaces.map isRoot lower (spaces.tidy.fresh_pageable fresh)
    (fun _ => fresh.exclusive root (indices virt)) writable exec

end

lemma Mapped.fresh {other : Nat} (tidy : Tidy regions usable roots kept memory)
    (mapped : Mapped regions usable roots kept memory root virt (leafEntry phys writable exec)
      after) (held : Held memory phys) (fresh : Fresh roots kept memory other)
    (different : other ≠ phys) : Fresh roots kept after other := by
  have next := leafEntry_next writable exec (tidy.held_mask held)
  obtain ⟨_, _, notTable, notKept⟩ := mapped.pageable (tidy.fresh_pageable fresh)
  refine ⟨mapped.held fresh.held, notTable, ?_, notKept⟩
  rintro ⟨root', path', isRoot', within', length', reached⟩
  rw [mapped.reach isRoot' within' length', next] at reached
  split at reached
  · exact different (some.inj reached).symm
  · exact fresh.notLeaf ⟨root', path', isRoot', within', length', reached⟩

section

variable (spaces : Spaces aliased regions usable roots kept memory)
include spaces

lemma Spaces.mapNew
    (isRoot : roots root) (lower : lowerHalf virt) (oom : String) (writable exec : Bool) :
    Costs (Spaces aliased regions usable roots kept) Memory.room excuse 4 memory
      ((memory.allocFrameOr oom).andThen fun memory phys =>
        memory.mapUserPageWithFlags root virt phys writable exec) fun _ _ => True := by
  refine (spaces.allocFrameOr oom).andThen ?_ (Nat.le_refl (1 + 3))
  rintro _ _ middleSpaces ⟨_, fresh, _⟩
  exact (middleSpaces.mapFresh isRoot lower fresh writable exec).mono (Nat.le_refl _)
    fun _ _ _ _ => trivial

lemma Spaces.keep {more : Nat → Prop} (fresh : ∀ phys, more phys → Fresh roots kept memory phys) :
    Spaces aliased regions usable roots (fun phys => kept phys ∨ more phys) memory := by
  obtain ⟨tidy, owned⟩ := spaces
  refine ⟨{ tidy with leaves := ?_, keeps := ?_ }, owned⟩
  · intro phys isLeaf
    obtain ⟨masked, taken, notTable, notKept⟩ := tidy.leaves phys isLeaf
    refine ⟨masked, taken, notTable, ?_⟩
    rintro (isKept | isMore)
    · exact notKept isKept
    · exact (fresh phys isMore).notLeaf isLeaf
  rintro phys (isKept | isMore)
  · exact tidy.keeps phys isKept
  · exact ⟨(fresh phys isMore).held, (fresh phys isMore).notTable⟩

lemma Spaces.takeKept {start count : Nat} (run : FreeRun memory.frames.bitmap start count) :
    Spaces aliased regions usable roots (fun phys => kept phys ∨ ∃ i < count, phys = (start + i) * frameSize)
      (memory.take start count) := by
  have taken : Spaces aliased regions usable roots kept (memory.take start count) :=
    ⟨spaces.tidy.take run, fun strict =>
      (spaces.owned strict).grown (show Grown roots kept count memory _ from Grown.take run)⟩
  refine taken.keep ?_
  rintro _ ⟨_, _, rfl⟩
  exact spaces.tidy.take_fresh run (List.mem_range'_1.mpr ⟨by omega, by omega⟩)

lemma Spaces.freeKept
    {frames : List Nat} (distinct : frames.Nodup) (areKept : ∀ phys ∈ frames, kept phys)
    {kept' : Nat → Prop} (others : ∀ phys, kept' phys → kept phys ∧ phys ∉ frames) :
    Spaces aliased regions usable roots kept' (memory.freeAll frames) ∧
      Shrunk roots memory (memory.freeAll frames) := by
  have held : ∀ phys ∈ frames, Held memory phys :=
    fun phys member => (spaces.tidy.keeps phys (areKept phys member)).1
  have notLeaf : ∀ phys ∈ frames, ¬ IsLeaf roots memory phys :=
    fun phys member isLeaf => (spaces.tidy.leaves phys isLeaf).2.2.2 (areKept phys member)
  obtain ⟨tidy, owned⟩ := spaces.mono (fun _ isRoot => isRoot) fun phys isKept =>
    (others phys isKept).1
  have shrunk : Shrunk roots memory (memory.freeAll frames) := by
    constructor
    · intro root path phys _ _ _ reached
      rwa [Memory.reach, freeAll_tables] at reached
    rintro phys ⟨root, path, isRoot, within, length, reached⟩ isHeld
    rw [Memory.reach, freeAll_tables] at reached
    exact isHeld.freeAll (fun frame member => (held frame member).1)
      fun member => notLeaf phys member ⟨root, path, isRoot, within, length, reached⟩
  refine ⟨⟨tidy.freeAll distinct fun phys member => ?_, fun strict =>
    (owned strict).shrunk shrunk⟩, shrunk⟩
  exact ⟨held phys member, (spaces.tidy.keeps phys (areKept phys member)).2,
    notLeaf phys member, fun isKept => (others phys isKept).2 member⟩

lemma Spaces.freeUserPml4
    (isRoot : roots root) (sole : aliased → SoleOwner roots memory root) {roots' : Nat → Prop}
    (others : ∀ other, roots' other → roots other ∧ other ≠ root) :
    Spaces aliased regions usable roots' kept (memory.freeUserPml4 root) ∧
      Shrunk roots' memory (memory.freeUserPml4 root) := by
  have alone : SoleOwner roots memory root := by
    by_cases shared : aliased
    · exact sole shared
    · exact fun path phys within length reached =>
        spaces.owned shared root path phys isRoot within length reached
  have shrunk := spaces.tidy.freeUserPml4_shrunk isRoot alone others
  exact ⟨⟨(spaces.tidy.freeUserPml4 isRoot alone others).1, fun strict =>
    ((spaces.owned strict).mono fun other isOther => (others other isOther).1).shrunk shrunk⟩,
    shrunk⟩

end

def Unshared (roots : Nat → Prop) (memory : Memory) (root : Nat) (pages : List Nat) : Prop :=
  ∀ page ∈ pages, ∀ phys, memory.reach root (indices page) = some phys →
    Exclusive roots memory root (indices page) phys

lemma Unshared.shrunk {pages : List Nat} (unshared : Unshared roots memory root pages)
    (isRoot : roots root) (lower : ∀ page ∈ pages, lowerHalf page)
    (shrunk : Shrunk roots memory after) : Unshared roots after root pages := by
  intro page member phys reached
  have within := indices_within (lower page member)
  exact (unshared page member phys (shrunk.leaf root _ phys isRoot within rfl reached)).shrunk
    shrunk ⟨root, _, isRoot, within, rfl, reached⟩

section

variable (spaces : Spaces aliased regions usable roots kept memory)
include spaces

lemma Spaces.unmapUserRange
    (isRoot : roots root) {va size : Nat} (lower : ∀ page ∈ pageRange va size, lowerHalf page)
    (unshared : aliased → Unshared roots memory root (pageRange va size)) :
    ∃ after, memory.unmapUserRange root va size = some after ∧
      Spaces aliased regions usable roots kept after ∧ Shrunk roots memory after := by
  have alone : Unshared roots memory root (pageRange va size) := by
    by_cases shared : aliased
    · exact unshared shared
    · exact fun page member phys reached => spaces.owned shared root (indices page) phys isRoot
        (indices_within (lower page member)) rfl reached
  simp only [Memory.unmapUserRange]
  split
  · obtain ⟨after, done, tidy, shrunk⟩ := spaces.tidy.unmapPages isRoot lower alone
    exact ⟨after, done, ⟨tidy, fun strict => (spaces.owned strict).shrunk shrunk⟩, shrunk⟩
  · exact ⟨memory, rfl, spaces, Shrunk.refl roots memory⟩

lemma Spaces.demandAnon (isRoot : roots root) :
    ∃ after done, memory.demandAnon root virt = some (after, done) ∧
      Spaces aliased regions usable roots kept after := by
  simp only [Memory.demandAnon]
  split
  · have lower : lowerHalf virt := by
      simp only [lowerHalf]
      omega
    rcases spaces.allocFrame with ⟨failed, _⟩ | ⟨_, phys, done, taken, _, fresh, _⟩
    · rw [failed]
      exact ⟨memory, false, rfl, spaces⟩
    rw [done]
    obtain ⟨after, _, ran, outcome⟩ :=
      taken.tidy.mapUserPageWithFlags isRoot lower phys true true
    simp only [ran]
    rcases outcome with ⟨_, rfl, _, afterTidy, grown⟩ | ⟨rfl, mapped⟩
    · have stillFresh := grown.fresh _ fresh
      refine ⟨_, false, rfl, afterTidy.freeFrame stillFresh, fun strict => ?_⟩
      refine ((taken.owned strict).grown grown).shrunk ⟨fun _ _ _ _ _ _ reached => reached, ?_⟩
      intro other isLeaf held
      refine held.freeFrame ?_ fresh.held.1
      rintro rfl
      exact stillFresh.notLeaf isLeaf
    · exact ⟨after, true, rfl, taken.mapped mapped (taken.tidy.fresh_pageable fresh)
        fun _ => fresh.exclusive root (indices virt)⟩
  · exact ⟨memory, false, rfl, spaces⟩

lemma Spaces.demandPage
    (isRoot : roots root) (isPresent : Bool) (unmirrored : ¬ aliased → 0x300000000 ≤ virt) :
    ∃ after done, memory.demandPage root virt isPresent = some (after, done) ∧
      Spaces aliased regions usable roots kept after := by
  simp only [Memory.demandPage]
  split
  · exact ⟨memory, false, rfl, spaces⟩
  split
  · exact ⟨memory, true, rfl, spaces⟩
  split
  · have lower : lowerHalf (virt / 4096 * 4096) := by
      simp only [lowerHalf]
      omega
    have below : lowerHalf (virt / 4096 * 4096 - 0x100000000) := by
      simp only [lowerHalf]
      omega
    have shared : aliased := by
      by_contra strict
      have := unmirrored strict
      omega
    split
    · rename_i phys writable exec found
      -- The page below is mapped, so its frame is fit for this page too.
      have reached : memory.reach root (indices (virt / 4096 * 4096 - 0x100000000)) = some phys := by
        obtain ⟨_, walked, same⟩ := map_eq_some_iff.mp found
        rw [← spaces.tidy.translateUserPage isRoot below, Memory.translateUserPage, walked]
        exact congrArg (fun flags => some flags.1) same
      have fit := spaces.tidy.leaves phys ⟨root, _, isRoot, indices_within below, rfl, reached⟩
      obtain ⟨after, result, ran, afterSpaces⟩ := spaces.mapAny isRoot lower fit
        (fun strict => absurd shared strict) writable exec
      rw [ran]
      cases result with
      | ok => exact ⟨after, true, rfl, afterSpaces⟩
      | error => exact ⟨after, false, rfl, afterSpaces⟩
    · exact spaces.demandAnon isRoot
  · exact spaces.demandAnon isRoot

end

lemma Tidy.pageable_outside (tidy : Tidy regions usable roots kept memory)
    (masked : physMask phys = phys) (outside : phys / frameSize ∉ usable) :
    Pageable roots kept memory phys := by
  have unheld : ¬ Held memory phys := by
    rintro ⟨_, _, _, split, _⟩
    refine outside (tidy.sound.handedUsable _ ?_)
    rw [split]
    simp
  exact ⟨masked, fun isFree => outside (tidy.sound.freeUsable isFree),
    fun isTable => unheld (tidy.tables phys isTable), fun isKept => unheld (tidy.keeps phys isKept).1⟩

lemma Tidy.pageable_translate (tidy : Tidy regions usable roots kept memory) (isRoot : roots root)
    (lower : lowerHalf virt) (found : memory.translateUserPage root virt = some phys) :
    Pageable roots kept memory phys := by
  rw [tidy.translateUserPage isRoot lower] at found
  exact tidy.leaves phys ⟨root, _, isRoot, indices_within lower, rfl, found⟩

lemma Spaces.updateUserPage (spaces : Spaces aliased regions usable roots kept memory)
    (isRoot : roots root) (lower : lowerHalf virt) (writable exec : Bool) :
    Ends (memory.updateUserPage root virt writable exec) fun after _ =>
      Spaces aliased regions usable roots kept after ∧
      ∀ phys, Pageable roots kept memory phys → Pageable roots kept after phys := by
  obtain ⟨after, result, done, _, tidy, frames, same⟩ :=
    spaces.tidy.updateUserPage isRoot lower writable exec
  have shrunk : Shrunk roots memory after := by
    constructor
    · exact fun root' path' _ isRoot' within' _ reached =>
        (same root' path' isRoot' within').symm.trans reached
    · intro phys _ held
      rwa [Held, frames]
  refine ⟨after, result, done, ⟨tidy, fun strict => (spaces.owned strict).shrunk shrunk⟩, ?_⟩
  rintro phys ⟨masked, _, notTable, notKept⟩
  refine ⟨masked, by rwa [frames], ?_, notKept⟩
  rintro ⟨root', path', isRoot', within', reached⟩
  exact notTable ⟨root', path', isRoot', within',
    (same root' path' isRoot' (Within.table within')).symm.trans reached⟩

lemma Spaces.mapShared (spaces : Spaces True regions usable roots kept memory)
    (isRoot : roots root) (lower : lowerHalf virt) (fit : Pageable roots kept memory phys)
    (writable exec : Bool) :
    Ends (memory.mapUserPageWithFlags root virt phys writable exec) fun after _ =>
      Spaces True regions usable roots kept after ∧
      ∀ other, Pageable roots kept memory other → Pageable roots kept after other := by
  obtain ⟨after, result, ran, outcome⟩ :=
    spaces.tidy.mapUserPageWithFlags isRoot lower phys writable exec
  refine ⟨after, result, ran, ?_⟩
  rcases outcome with ⟨_, rfl, _, afterTidy, grown⟩ | ⟨rfl, mapped⟩
  · exact ⟨⟨afterTidy, fun strict => absurd trivial strict⟩, grown.pageable⟩
  · exact ⟨spaces.mapped mapped fit fun strict => absurd trivial strict,
      fun _ pageable => mapped.pageable pageable⟩

end OsCortex.Paging
