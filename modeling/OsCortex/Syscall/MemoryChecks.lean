import OsCortex.Process.GroupChecks
import OsCortex.Syscall.MemoryCore

/-!
User pages may share frames: `mprotect` and the page-fault handler mirror low memory, and `fb_map`
maps a device.
-/

namespace OsCortex.UserMemory

open FrameAllocator Paging Outcome Lifecycle List Option

variable {regions : List MemRegion} {usable : Finset Nat} {roots kept : Nat → Prop}
  {memory : Memory} {root virt phys : Nat}

section

variable (spaces : Spaces True regions usable roots kept memory)
include spaces

lemma protectOrMap_ends
    (isRoot : roots root) (lower : lowerHalf virt) (fit : Pageable roots kept memory phys)
    (writable exec : Bool) :
    Ends (protectOrMap root writable exec phys memory virt) fun after _ =>
      Spaces True regions usable roots kept after ∧ Pageable roots kept after phys := by
  refine (spaces.updateUserPage isRoot lower writable exec).orElse ?_ ?_
  · exact fun _ _ updated => ⟨updated.1, updated.2 phys fit⟩
  rintro _ _ ⟨middleSpaces, stays⟩
  refine (middleSpaces.mapShared isRoot lower (stays phys fit) writable exec).orElse ?_ ?_
  · exact fun _ _ mapped => ⟨mapped.1, mapped.2 phys (stays phys fit)⟩
  · exact fun _ _ failed => ends_fail ⟨failed.1, failed.2 phys (stays phys fit)⟩

lemma protectAlias_ends (isRoot : roots root) (lower : lowerHalf virt) (writable exec : Bool) :
    Ends (protectAlias root writable exec memory virt) fun after _ =>
      Spaces True regions usable roots kept after := by
  simp only [protectAlias]
  split
  · exact (spaces.updateUserPage isRoot lower writable exec).discard fun _ _ updated => updated.1
  · exact ends_ok spaces

lemma mirroredFrame_ends {base : Nat} (isRoot : roots root) (low : base < 0x100000000) :
    Ends (mirroredFrame root base memory) fun after result =>
      Spaces True regions usable roots kept after ∧
        ∀ phys, result = .ok phys → Pageable roots kept after phys := by
  have mirror : ∀ offset, offset ≤ 0x200000000 → lowerHalf (base + offset) := by
    simp only [lowerHalf]
    omega
  simp only [mirroredFrame]
  split
  · rename_i phys found
    refine ends_ok ⟨spaces, ?_⟩
    rintro _ ⟨⟩
    rcases or_eq_some_iff.mp found with here | ⟨_, found⟩
    · exact spaces.tidy.pageable_translate isRoot (mirror 0 (by omega)) here
    rcases or_eq_some_iff.mp found with first | ⟨_, second⟩
    · exact spaces.tidy.pageable_translate isRoot (mirror _ (by omega)) first
    · exact spaces.tidy.pageable_translate isRoot (mirror _ (by omega)) second
  have costs : Costs _ _ False _ _ _ _ := spaces.allocFrameOr (-12 : Int)
  refine Ends.mono costs fun after result holds => ⟨holds.1, ?_⟩
  rintro phys rfl
  exact holds.1.tidy.fresh_pageable holds.2.2.2.1

lemma protectPage_ends
    (isRoot : roots root) (lower : lowerHalf virt) (writable exec : Bool) (value : Unit) :
    Ends (protectPage root writable exec memory virt value) fun after _ =>
      Spaces True regions usable roots kept after := by
  simp only [protectPage]
  split
  · have low : virt % 0x100000000 < 0x100000000 := Nat.mod_lt _ (by decide)
    have mirror : ∀ offset, offset ≤ 0x200000000 → lowerHalf (virt % 0x100000000 + offset) := by
      simp only [lowerHalf]
      omega
    refine (mirroredFrame_ends spaces isRoot low).andThen ?_ fun _ _ failed => failed.1
    rintro _ phys ⟨spaces₁, fit₁⟩
    refine (protectOrMap_ends spaces₁ isRoot lower (fit₁ phys rfl) writable exec).andThen ?_
      fun _ _ failed => failed.1
    rintro _ _ ⟨spaces₂, fit₂⟩
    refine (protectOrMap_ends spaces₂ isRoot (mirror 0 (by omega)) fit₂ writable exec).andThen ?_
      fun _ _ failed => failed.1
    rintro _ _ ⟨spaces₃, _⟩
    refine (protectAlias_ends spaces₃ isRoot (mirror _ (by omega)) writable exec).andThen ?_
      fun _ _ failed => failed
    intro memory₄ _ spaces₄
    exact protectAlias_ends spaces₄ isRoot (mirror _ (by omega)) writable exec
  · exact (spaces.updateUserPage isRoot lower writable exec).discard fun _ _ updated => updated.1

end

structure Device (regions : List MemRegion) (framebuffer : Framebuffer) : Prop where
  small : framebuffer.pageCount ≤ 2 ^ 34
  frames : ∀ i < framebuffer.pageCount,
    physMask (framebuffer.phys + i * 0x1000) = framebuffer.phys + i * 0x1000 ∧
      (framebuffer.phys + i * 0x1000) / frameSize ∉ freeFrames (boot regions).bitmap

def Parting (kernel : Kernel) : Lifecycle.Call → Prop
  | .spawn _ image _ => ∀ page ∈ image.pages, lowerHalf page
  | .spawnThread parent _ | .cloneThread parent => kernel.table.holds parent = true →
      (kernel.table.slotOf parent).live = true
  | .exit pid _ | .kill pid => LeavesLast kernel.table pid ∧ LoneExit kernel pid
  | .killGroup leader => VictimsLast kernel.table (victims kernel.table leader) ∧
      ∀ idx ∈ victims kernel.table leader, LoneExit kernel (kernel.table idx).pid
  | _ => True

/-- So is what `munmap` takes away. -/
def Unsharing (kernel : Kernel) : Call → Prop
  | .process call => Parting kernel call
  | .munmap pid va size => size ≠ 0 → ∀ root, kernel.table.getUserContext pid = some root →
      (∀ page ∈ pageRange va.toNat size.toNat, lowerHalf page) ∧
      Unshared (Lifecycle.roots kernel.table) kernel.memory root (pageRange va.toNat size.toNat)
  | .mprotect pid va size _ => size ≠ 0 → ∀ root, kernel.table.getUserContext pid = some root →
      ∀ page ∈ pageRange va.toNat size.toNat, lowerHalf page
  | _ => True

lemma Parting.shelters {kernel : Kernel} {call : Lifecycle.Call} (parting : Parting kernel call) :
    Shelters True kernel call := by
  cases call with
  | spawnThread parent stackSize =>
    exact fun holds => ⟨parting holds, fun strict => absurd trivial strict⟩
  | exit pid code | kill pid | killGroup leader => exact ⟨parting.1, fun _ => parting.2⟩
  | _ => exact parting

variable {kernel next : Kernel} {pid : Nat} {fbInfo : Option Framebuffer}

section

variable (sheltered : Sheltered True regions usable kernel)
include sheltered

lemma sheltered_change (libs : Dl.LibTable)
    (spaces : Spaces True regions usable (Lifecycle.roots kernel.table)
      (Lifecycle.kept kernel.hhdm kernel.table) memory) :
    Sheltered True regions usable { kernel with memory, libs } :=
  ⟨⟨spaces, sheltered.accounted.ledger, fun strict => absurd trivial strict⟩, sheltered.housed⟩

lemma sheltered_context
    (context : kernel.table.getUserContext pid = some root) : Lifecycle.roots kernel.table root := by
  obtain ⟨running, rfl⟩ := of_guard context
  refine sheltered.housed (idxOf pid) ?_
  rw [Process.live, show (kernel.table (idxOf pid)).state = .running from running.2]
  rfl

lemma sysMmap_ends (hintVa size : UInt64) :
    Ends (sysMmap kernel pid hintVa size) fun after _ => Sheltered True regions usable after := by
  have same : ∀ libs, Sheltered True regions usable { kernel with libs } :=
    fun libs => sheltered_change sheltered libs sheltered.accounted.spaces
  simp only [sysMmap]
  split
  · exact ends_ok sheltered
  iterate 3
    split
    · exact ends_fail sheltered
  split
  · exact ends_ok (same _)
  · exact ends_fail (same _)

lemma sysMunmap_ends {va size : UInt64} (unsharing : Unsharing kernel (.munmap pid va size)) :
    Ends (sysMunmap kernel pid va size) fun after _ => Sheltered True regions usable after := by
  simp only [sysMunmap]
  split
  · exact ends_ok sheltered
  rename_i nonempty
  split
  · exact ends_fail sheltered
  split
  · exact ends_fail sheltered
  rename_i root context
  obtain ⟨lower, unshared⟩ := unsharing nonempty root context
  obtain ⟨_, done, spaces, _⟩ := sheltered.accounted.spaces.unmapUserRange
    (sheltered_context sheltered context) lower fun _ => unshared
  rw [done]
  exact ends_ok (sheltered_change sheltered _ spaces)

lemma sysMprotect_ends {va size : UInt64}
    (prot : UInt64) (unsharing : Unsharing kernel (.mprotect pid va size prot)) :
    Ends (sysMprotect kernel pid va size prot) fun after _ =>
      Sheltered True regions usable after := by
  simp only [sysMprotect]
  split
  · exact ends_ok sheltered
  rename_i nonempty
  split
  · exact ends_fail sheltered
  split
  · exact ends_fail sheltered
  rename_i root context
  have isRoot := sheltered_context sheltered context
  have loop : Ends (Outcome.forEach (protectPage root (prot.toNat.testBit 1)
      (prot.toNat.testBit 2)) (pageRange va.toNat size.toNat) kernel.memory ()) fun after _ =>
      Spaces True regions usable (Lifecycle.roots kernel.table)
        (Lifecycle.kept kernel.hhdm kernel.table) after := by
    refine Ends.forEach ?_ sheltered.accounted.spaces
    intro page member memory value spaces
    exact protectPage_ends spaces isRoot (unsharing nonempty root context page member) _ _ value
  exact loop.focused fun memory _ spaces => sheltered_change sheltered kernel.libs spaces

end

lemma sysFbMap_ends (sheltered : Sheltered True regions (freeFrames (boot regions).bitmap) kernel)
    (device : ∀ framebuffer, fbInfo = some framebuffer → Device regions framebuffer) :
    Ends (sysFbMap kernel fbInfo pid) fun after _ =>
      Sheltered True regions (freeFrames (boot regions).bitmap) after := by
  simp only [sysFbMap]
  split
  · exact ends_fail sheltered
  rename_i framebuffer
  obtain ⟨_, frames⟩ := device framebuffer rfl
  split
  · exact ends_fail sheltered
  rename_i root context
  have isRoot := sheltered_context sheltered context
  have loop : Ends (Outcome.forEach (mapFramebufferPage root framebuffer.phys)
      (range framebuffer.pageCount) kernel.memory ()) fun after _ =>
      Spaces True regions (freeFrames (boot regions).bitmap) (Lifecycle.roots kernel.table)
        (Lifecycle.kept kernel.hhdm kernel.table) after := by
    refine Ends.forEach ?_ sheltered.accounted.spaces
    intro i member memory _ spaces
    have bound := mem_range.mp member
    have lower : lowerHalf (fbUserBase + i * 0x1000) := by
      simp only [lowerHalf, fbUserBase]
      omega
    obtain ⟨masked, outside⟩ := frames i bound
    refine (spaces.mapShared isRoot lower (spaces.tidy.pageable_outside masked outside)
      true false).orElse ?_ ?_
    · exact fun _ _ mapped => mapped.1
    · exact fun _ _ failed => ends_fail failed.1
  exact loop.focused fun memory _ spaces => sheltered_change sheltered kernel.libs spaces

lemma fault_sheltered (sheltered : Sheltered True regions usable kernel) {cr2 : UInt64}
    {isPresent : Bool} (taken : fault kernel pid cr2 isPresent = some next) :
    Sheltered True regions usable next := by
  simp only [fault] at taken
  split at taken
  · rename_i isLive
    obtain ⟨memory, done, ran, spaces⟩ := sheltered.accounted.spaces.demandPage
      (sheltered.housed (idxOf pid) isLive) isPresent fun strict => absurd trivial strict
    rw [show kernel.memory.demandPage (kernel.table.slotOf pid).pml4Phys cr2.toNat isPresent =
      some (memory, done) from ran] at taken
    cases taken
    exact sheltered_change sheltered kernel.libs spaces
  · cases taken

lemma step_unsharing {call : Call}
    (sheltered : Sheltered True regions (freeFrames (boot regions).bitmap) kernel)
    (device : ∀ framebuffer, fbInfo = some framebuffer → Device regions framebuffer)
    (unsharing : Unsharing kernel call) (taken : step fbInfo kernel call = some next) :
    Sheltered True regions (freeFrames (boot regions).bitmap) next := by
  cases call with
  | process call => exact step_sheltered sheltered unsharing.shelters taken
  | mmap pid hintVa size =>
    exact (sysMmap_ends sheltered hintVa size).meets.final (fun _ _ holds => holds) taken
  | munmap pid va size =>
    exact (sysMunmap_ends sheltered unsharing).meets.final (fun _ _ holds => holds) taken
  | mprotect pid va size prot =>
    exact (sysMprotect_ends sheltered prot unsharing).meets.final (fun _ _ holds => holds) taken
  | fbMap pid => exact (sysFbMap_ends sheltered device).meets.final (fun _ _ holds => holds) taken
  | fault pid cr2 isPresent => exact fault_sheltered sheltered taken

/-- Every frame is given back at most once per allocation, and no free frame is mapped in the
address space of a live process or thread. -/
theorem mapped_frames_taken (regions : List MemRegion) (aligned : PageAligned regions)
    (disjoint : PairwiseDisjoint regions) (fbInfo : Option Framebuffer)
    (device : ∀ framebuffer, fbInfo = some framebuffer → Device regions framebuffer)
    (kernel : Kernel) (reached : (system regions fbInfo).Reachable Unsharing kernel) :
    FreedOnce kernel.memory.frames.log ∧
      ∀ idx virt phys, (kernel.table idx).live = true → lowerHalf virt →
        kernel.memory.translateUserPage (kernel.table idx).pml4Phys virt = some phys →
        phys / frameSize ∉ freeFrames kernel.memory.frames.bitmap := by
  have sheltered : Sheltered True regions (freeFrames (boot regions).bitmap) kernel := by
    refine reached.invariant ?_ ?_
    · exact fun _ boots => boots_sheltered aligned disjoint boots
    · exact fun _ _ _ sheltered unsharing taken =>
        step_unsharing sheltered device unsharing taken
  have tidy := sheltered.accounted.spaces.tidy
  refine ⟨tidy.once, fun idx virt phys isLive lower found => ?_⟩
  exact (tidy.pageable_translate (sheltered.housed idx isLive) lower found).2.1

def sampleFramebuffer : Framebuffer := { phys := 0xE0000000, height := 1, pitch := 4096 }

lemma sampleFramebuffer_outside :
    sampleFramebuffer.phys / frameSize ∉ freeFrames (boot [sampleRegion]).bitmap := by
  rw [sample_free, List.mem_toFinset, List.mem_range'_1]
  decide

lemma sampleFramebuffer_device : Device [sampleRegion] sampleFramebuffer := by
  refine ⟨by decide, fun i bound => ?_⟩
  have first : i = 0 := Nat.lt_one_iff.mp bound
  subst first
  exact ⟨by decide, sampleFramebuffer_outside⟩

lemma reachable_call {guard : Kernel → Call → Prop} {call : Call}
    (reached : (system regions fbInfo).Reachable guard kernel) (allowed : guard kernel call)
    (taken : step fbInfo kernel call = some next) : (system regions fbInfo).Reachable guard next :=
  .step reached allowed taken

lemma sample_fbMap :
    ∃ kernel root, (system [sampleRegion] (some sampleFramebuffer)).Reachable Unsharing kernel ∧
      Sheltered True [sampleRegion] (freeFrames (boot [sampleRegion]).bitmap) kernel ∧
      kernel.table.getUserContext 1 = some root ∧
      kernel.memory.reach root (indices fbUserBase) = some sampleFramebuffer.phys := by
  obtain ⟨kernel, root, _, spawned, accounted, room, _, table⟩ := sample_spawn True
  have spawns : step (some sampleFramebuffer) sampleKernel (.process (.spawn 0 emptyProgram {})) =
      some kernel := spawned
  have sheltered : Sheltered True [sampleRegion] _ kernel := step_sheltered
    (boots_sheltered sampleRegion_aligned sampleRegion_disjoint sampleKernel_boots)
    (show Shelters True sampleKernel (.spawn 0 emptyProgram {}) from emptyProgram_lower) spawned
  have context : kernel.table.getUserContext 1 = some root := by
    rw [table]
    rfl
  have isRoot := sheltered_context sheltered context
  have lower : lowerHalf fbUserBase := by decide
  have fit := accounted.spaces.tidy.pageable_outside (by decide) sampleFramebuffer_outside
  obtain ⟨after, _, ran, outcome⟩ := accounted.spaces.tidy.mapUserPageWithFlags isRoot lower
    sampleFramebuffer.phys true false
  rcases outcome with ⟨_, _, _, _⟩ | ⟨rfl, mapped⟩
  · have plenty : sampleFrames = 131072 := rfl
    simp only [Memory.room] at room
    omega
  have taken : step (some sampleFramebuffer) kernel (.fbMap 1) =
      some { kernel with memory := after } := by
    simp only [step, sysFbMap, context]
    rw [show range sampleFramebuffer.pageCount = [0] from rfl]
    simp only [Outcome.forEach, mapFramebufferPage, Memory.mapUserPage]
    rw [show fbUserBase + 0 * 0x1000 = fbUserBase from rfl,
      show sampleFramebuffer.phys + 0 * 0x1000 = sampleFramebuffer.phys from rfl, ran]
    rfl
  have atSpawn : (system [sampleRegion] (some sampleFramebuffer)).Reachable Unsharing kernel :=
    reachable_call (.start sampleKernel_boots)
      (show Unsharing sampleKernel (.process (.spawn 0 emptyProgram {})) from emptyProgram_lower)
      spawns
  refine ⟨_, root, reachable_call atSpawn (show Unsharing kernel (.fbMap 1) from trivial) taken,
    step_unsharing sheltered ?_ (show Unsharing kernel (.fbMap 1) from trivial) taken, context, ?_⟩
  · rintro _ ⟨⟩
    exact sampleFramebuffer_device
  rw [mapped.reach isRoot (indices_within lower) rfl, if_pos ⟨rfl, rfl⟩]
  exact leafEntry_next true false fit.1

theorem mapped_frames_taken_fbMap :
    ∃ kernel, (system [sampleRegion] (some sampleFramebuffer)).Reachable Unsharing kernel ∧
      FreedOnce kernel.memory.frames.log ∧ ∃ root, kernel.table.getUserContext 1 = some root ∧
        kernel.memory.reach root (indices fbUserBase) = some sampleFramebuffer.phys := by
  obtain ⟨kernel, root, reached, _, context, found⟩ := sample_fbMap
  refine ⟨kernel, reached, ?_, root, context, found⟩
  refine (mapped_frames_taken [sampleRegion] sampleRegion_aligned sampleRegion_disjoint
    (some sampleFramebuffer) ?_ kernel reached).1
  rintro _ ⟨⟩
  exact sampleFramebuffer_device

/-- Every page table has one place in one address space, and no user page is in the frame of a page
table or of a syscall stack. -/
theorem tables_out_of_reach (aligned : PageAligned regions) (disjoint : PairwiseDisjoint regions)
    (device : ∀ framebuffer, fbInfo = some framebuffer → Device regions framebuffer)
    (reached : (system regions fbInfo).Reachable Unsharing kernel) :
    Radix.Separate Entry.next kernel.memory.tables (Lifecycle.roots kernel.table) tableWidths ∧
      ∀ idx virt phys, (kernel.table idx).live = true → lowerHalf virt →
        kernel.memory.translateUserPage (kernel.table idx).pml4Phys virt = some phys →
        ¬ IsTable (Lifecycle.roots kernel.table) kernel.memory phys ∧
          ¬ Lifecycle.kept kernel.hhdm kernel.table phys := by
  have sheltered : Sheltered True regions (freeFrames (boot regions).bitmap) kernel := by
    refine reached.invariant ?_ ?_
    · exact fun _ boots => boots_sheltered aligned disjoint boots
    · exact fun _ _ _ sheltered unsharing taken =>
        step_unsharing sheltered device unsharing taken
  have tidy := sheltered.accounted.spaces.tidy
  refine ⟨tidy.separate, fun idx virt phys isLive lower found => ?_⟩
  exact (tidy.pageable_translate (sheltered.housed idx isLive) lower found).2.2

theorem tables_separate_fbMap :
    ∃ kernel, (system [sampleRegion] (some sampleFramebuffer)).Reachable Unsharing kernel ∧
      (∃ root, kernel.table.getUserContext 1 = some root) ∧
      Radix.Separate Entry.next kernel.memory.tables (Lifecycle.roots kernel.table) tableWidths := by
  obtain ⟨kernel, root, reached, _, context, _⟩ := sample_fbMap
  refine ⟨kernel, reached, ⟨root, context⟩, ?_⟩
  refine (tables_out_of_reach sampleRegion_aligned sampleRegion_disjoint ?_ reached).1
  rintro _ ⟨⟩
  exact sampleFramebuffer_device

theorem framebuffer_freed :
    ∃ kernel, (system [sampleRegion] (some sampleFramebuffer)).Reachable Runs.anyStep kernel ∧
      Event.freed (sampleFramebuffer.phys / frameSize) ∈ kernel.memory.frames.log ∧
      Event.handedOut (sampleFramebuffer.phys / frameSize) ∉ kernel.memory.frames.log := by
  obtain ⟨kernel, root, reached, sheltered, context, found⟩ := sample_fbMap
  have isRoot := sheltered_context sheltered context
  have tidy := sheltered.accounted.spaces.tidy
  have isWalkable : walkable root = true :=
    tidy.held_walkable (tidy.tables root ⟨root, [], isRoot, trivial, rfl⟩)
  rcases tidy.unmapUserPage isRoot (show lowerHalf fbUserBase by decide) with ⟨missing, _⟩ |
    ⟨phys, after, reachedPhys, done, _, frames, _⟩
  · rw [missing] at found
    cases found
  obtain rfl := some.inj (found.symm.trans reachedPhys)
  let libs := kernel.libs.recycleAnonVa root 0x40000000 0x1000
  have taken : step (some sampleFramebuffer) kernel (.munmap 1 0x40000000 0x1000) =
      some { kernel with memory := after.freeFrame sampleFramebuffer.phys, libs } := by
    have unmaps : kernel.memory.unmapUserRange root 0x40000000 0x1000 =
        some (after.freeFrame sampleFramebuffer.phys) := by
      rw [Memory.unmapUserRange, if_pos ⟨isWalkable, by decide⟩,
        show pageRange 0x40000000 0x1000 = [fbUserBase] by decide, Memory.unmapPages, done]
      rfl
    simp only [step, sysMunmap, context]
    rw [if_neg (by decide), if_neg (by decide),
      show (0x40000000 : UInt64).toNat = 0x40000000 from rfl,
      show (0x1000 : UInt64).toNat = 0x1000 from rfl, unmaps]
    rfl
  have log : (after.freeFrame sampleFramebuffer.phys).frames.log =
      .freed (sampleFramebuffer.phys / frameSize) :: kernel.memory.frames.log := by
    rw [← frames]
    rfl
  have anywhere : (system [sampleRegion] (some sampleFramebuffer)).Reachable Runs.anyStep kernel :=
    Runs.Machine.Reachable.mono (fun _ _ _ => trivial) reached
  refine ⟨_, reachable_call anywhere trivial taken, ?_, ?_⟩
  · show _ ∈ (after.freeFrame sampleFramebuffer.phys).frames.log
    exact mem_cons_self
  rw [log, mem_cons, not_or]
  refine ⟨by simp, fun handed => ?_⟩
  exact sampleFramebuffer_outside (tidy.sound.handedUsable _ handed)

end OsCortex.UserMemory
