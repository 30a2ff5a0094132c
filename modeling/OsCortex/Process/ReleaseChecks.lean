import OsCortex.Process.LifecycleChecks

/-! Runs from boot: which of them hand a frame back twice, or take a live thread's address space. -/

namespace OsCortex.Lifecycle

open FrameAllocator Paging Outcome List Option Table Kernel Process

variable {aliased : Prop} {regions : List MemRegion} {usable : Finset Nat}
  {kernel next : Kernel} {memory : Memory} {pid : Nat} {session : Session}

lemma takes_sound (aligned : PageAligned regions) (disjoint : PairwiseDisjoint regions)
    (reached : (allocator regions).Reachable Takes session) :
    Sound regions (freeFrames (boot regions).bitmap) session := by
  refine reached.invariant ?_ ?_
  · rintro _ rfl
    exact boot_sound regions aligned disjoint
  · exact fun _ _ _ sound _ called => call_sound sound called

lemma takes_freedOnce
    (reached : (allocator regions).Reachable Takes session) : FreedOnce session.log := by
  induction reached with
  | start begun =>
    cases begun
    exact freedOnce_nil
  | @step before call after _ takes called once =>
    have handOut : ∀ count result, FreedOnce (before.handOut count result).log := by
      rintro count ⟨_, _ | phys⟩
      · exact once
      · exact once.handOut _
    cases call with
    | reserveRange base len =>
      cases called
      exact once.cons fun _ impossible => by cases impossible
    | allocFrame | allocContiguousFrames count =>
      cases called
      exact handOut _ _
    | freeFrame phys => exact takes.elim

lemma boots_accounted (aligned : PageAligned regions) (disjoint : PairwiseDisjoint regions)
    (boots : Boots regions kernel) :
    Accounted aliased regions (freeFrames (boot regions).bitmap) kernel := by
  obtain ⟨_, _, _, _, hhdm⟩ := kernel
  obtain ⟨rfl, _, rfl, frames⟩ := boots
  have noRoot : ∀ root, ¬ roots empty root := by
    rintro root ⟨idx, ⟨isLive, _⟩, _⟩
    cases isLive
  have noStack : ∀ phys, ¬ kept hhdm empty phys := by
    rintro phys ⟨idx, based, _⟩
    exact based rfl
  refine ⟨⟨⟨takes_sound aligned disjoint frames, takes_freedOnce frames, ?_, ?_, ?_, ?_, ?_⟩, ?_⟩,
    ?_, fun _ => ⟨0, Dl.windowed_new⟩⟩
  · exact fun root _ _ _ _ isRoot => (noRoot root isRoot).elim
  · rintro phys ⟨root, _, isRoot, _⟩
    exact (noRoot root isRoot).elim
  · exact fun root _ _ _ isRoot => (noRoot root isRoot).elim
  · rintro phys ⟨root, _, isRoot, _⟩
    exact (noRoot root isRoot).elim
  · exact fun phys isKept => (noStack phys isKept).elim
  · exact fun _ root _ _ isRoot => (noRoot root isRoot).elim
  constructor
  · exact fun idx _ owns => (noRoot _ ⟨idx, owns, rfl⟩).elim
  · exact fun idx _ phys onStack => (noStack phys ⟨idx, onStack⟩).elim
  · exact fun idx based => absurd rfl based
  · exact fun idx named => absurd rfl named
  · intro idx thread
    cases thread

lemma reachable_accounted (aligned : PageAligned regions) (disjoint : PairwiseDisjoint regions)
    (reached : (system regions).Reachable Careful kernel) :
    Accounted False regions (freeFrames (boot regions).bitmap) kernel := by
  refine reached.invariant ?_ ?_
  · exact fun _ boots => boots_accounted aligned disjoint boots
  · exact fun _ _ _ accounted careful taken => step_accounted accounted taken careful

lemma reachable_step {guard : Kernel → Call → Prop} {call : Call}
    (reached : (system regions).Reachable guard kernel) (allowed : guard kernel call)
    (taken : kernel.step call = some next) : (system regions).Reachable guard next :=
  .step reached allowed taken

def sampleRegion : MemRegion := ⟨0x100000, 0x20000000⟩

def sampleKernel : Kernel :=
  { table := Table.empty
    nextPid := 1
    memory := { tables := fun _ _ => {}, frames := boot [sampleRegion] }
    libs := Dl.LibTable.new
    hhdm := 0xFFFF800000000000 }

def emptyProgram : Elf.Image :=
  { length := 64
    byte := fun i =>
      ([0x7F, 0x45, 0x4C, 0x46, 2, 1, 1, 0, 0, 0, 0, 0, 0, 0, 0, 0, 2, 0, 62].getD i 0) +
        if i = 54 then 56 else 0 }

lemma emptyProgram_wellFormed : emptyProgram.WellFormed :=
  ⟨_, rfl, by decide, fun i bound => by cases bound⟩

lemma emptyProgram_lower : ∀ page ∈ emptyProgram.pages, lowerHalf page := by
  have none : emptyProgram.pages = [] := by decide
  simp [none]

lemma sampleRegion_aligned : PageAligned [sampleRegion] := by
  simp [PageAligned, sampleRegion, frameSize]

lemma sampleRegion_disjoint : PairwiseDisjoint [sampleRegion] := pairwise_singleton _ _

lemma sampleKernel_boots : Boots [sampleRegion] sampleKernel := ⟨rfl, rfl, rfl, .start rfl⟩

def sampleFrames : Nat := 8192 * stackFrames

lemma sample_free :
    freeFrames (boot [sampleRegion]).bitmap = (range' minAllocFrame sampleFrames).toFinset := by
  rw [freeFrames_boot_single sampleRegion (by decide)]
  rfl

lemma Accounted.sample_run
    (accounted : Accounted aliased [sampleRegion] (freeFrames (boot [sampleRegion]).bitmap) kernel)
    (enough : sampleFrames < kernel.memory.room + 8192) :
    ∃ start, FreeRun kernel.memory.frames.bitmap start stackFrames := by
  refine exists_freeRun 8192 (Nat.le_refl minAllocFrame) ?_
  have inside := accounted.spaces.tidy.sound.freeUsable
  rw [sample_free] at inside
  show ((range' minAllocFrame sampleFrames).toFinset \ _).card < 8192
  rw [Finset.card_sdiff_of_subset inside, toFinset_card_of_nodup nodup_range', length_range']
  simp only [Memory.room] at enough
  omega

lemma sample_spawn (aliased : Prop) :
    ∃ kernel root base, sampleKernel.step (.spawn 0 emptyProgram {}) = some kernel ∧
      Accounted aliased [sampleRegion] (freeFrames (boot [sampleRegion]).bitmap) kernel ∧
      sampleFrames < kernel.memory.room + 8192 ∧ kernel.nextPid = 2 ∧
      kernel.table = empty.write 1 (empty.spawned 1 root base {}) := by
  have accounted : Accounted aliased _ _ _ :=
    boots_accounted sampleRegion_aligned sampleRegion_disjoint sampleKernel_boots
  have room : sampleKernel.memory.room = sampleFrames := by
    show (freeFrames (boot [sampleRegion]).bitmap).card = sampleFrames
    rw [sample_free, toFinset_card_of_nodup nodup_range', length_range']
  have cost : spawnCost emptyProgram = 4125 := by decide
  obtain ⟨start, run⟩ := accounted.sample_run (by omega)
  obtain ⟨kernel, result, ran, after, nextPid, outcome⟩ := accounted.spawn emptyProgram_lower 0 {}
  cases result with
  | error reason =>
    obtain ⟨_, full | malformed | short | noRun⟩ := outcome
    · cases full
    · exact absurd emptyProgram_wellFormed malformed
    · rw [room, cost] at short
      exact absurd short (by decide)
    · exact absurd run (noRun start)
  | ok pid =>
    obtain ⟨isPid, spent, root, base, table⟩ := outcome
    cases isPid
    exact ⟨kernel, root, base, by simp [step, ran], after, by omega,
      nextPid, table⟩

lemma Accounted.exit_zombie (accounted : Accounted aliased regions usable kernel) {code : Int}
    (zombie : (kernel.table.slotOf pid).state.isZombie) (safe : SafeExit kernel.table pid)
    (done : kernel.exit pid code = some next) : next.memory = kernel.memory := by
  have notLive : ¬ (kernel.table.slotOf pid).live := by
    intro isLive
    generalize (kernel.table.slotOf pid) = process at zombie isLive
    cases state : process.state <;> simp [state, live, ProcState.isZombie] at zombie isLive
  have unbased : (kernel.table.slotOf pid).syscallStackBase = 0 := by
    by_contra based
    exact notLive (accounted.ledger.based (idxOf pid) based).2
  simp only [Kernel.exit] at done
  split at done
  · rename_i holds
    obtain ⟨process, thread⟩ := safe holds
    have isThread : (kernel.table.slotOf pid).isThread := by
      by_contra notThread
      exact notLive (process (Bool.eq_false_iff.mpr notThread))
    have nothing : hasAnon (kernel.table.slotOf pid) = false :=
      Bool.eq_false_iff.mpr fun present => notLive (thread isThread present).1
    simp only [hasAnon, Bool.or_eq_false_iff] at nothing
    simp only [releaseSpace, isThread, nothing.1, nothing.2, if_true, Bool.false_eq_true,
      if_false, bind_some, map_some, unbased, freeSyscallStack, true_or] at done
    rw [← some.inj done]
  · rw [← some.inj done]

theorem freed_once (regions : List MemRegion) (aligned : PageAligned regions)
    (disjoint : PairwiseDisjoint regions) (kernel : Kernel)
    (reached : (system regions).Reachable Careful kernel) :
    FreedOnce kernel.memory.frames.log ∧
      ∀ pid call next, (call = .kill pid ∨ ∃ code, call = .exit pid code) →
        (kernel.table.slotOf pid).state.isZombie = true → Careful kernel call →
        kernel.step call = some next → next.memory = kernel.memory := by
  have accounted := reachable_accounted aligned disjoint reached
  refine ⟨accounted.spaces.tidy.once, ?_⟩
  rintro _ _ _ (rfl | ⟨_, rfl⟩) zombie careful taken
  · simp only [step] at taken
    split at taken
    · exact accounted.exit_zombie zombie careful taken
    · rw [← some.inj taken]
  · exact accounted.exit_zombie zombie careful taken

lemma sample_safe {root base : Nat} {table : Table}
    (isTable : table = empty.write 1 (empty.spawned 1 root base {})) :
    table.holds 1 ∧ (table.slotOf 1).OwnsSpace ∧ (table.slotOf 1).pml4Phys = root := by
  subst isTable
  exact ⟨rfl, ⟨rfl, rfl⟩, rfl⟩

theorem freed_once_killed :
    ∃ kernel, (system [sampleRegion]).Reachable Careful kernel ∧
      (kernel.table.slotOf 1).state = .zombie (-9) ∧ FreedOnce kernel.memory.frames.log := by
  obtain ⟨kernel, _, _, spawned, accounted, _, _, table⟩ := sample_spawn False
  obtain ⟨holds, owns, _⟩ := sample_safe table
  have safe : SafeExit kernel.table 1 := by
    refine fun _ => ⟨fun _ => owns.1, fun isThread => ?_⟩
    rw [owns.2] at isThread
    cases isThread
  obtain ⟨memory, libs, killed, _⟩ := accounted.exit safe False.elim (-9)
  have atSpawn : (system [sampleRegion]).Reachable Careful kernel :=
    reachable_step (.start sampleKernel_boots)
      (show Careful sampleKernel (.spawn 0 emptyProgram {}) from emptyProgram_lower) spawned
  have taken : kernel.step (.kill 1) =
      some { kernel with memory, libs, table := kernel.table.markExited 1 (-9) } := by
    simp [step, holds, killed]
  have reached := reachable_step atSpawn (show Careful kernel (.kill 1) from safe) taken
  refine ⟨_, reached, ?_, (freed_once [sampleRegion] sampleRegion_aligned sampleRegion_disjoint _
    reached).1⟩
  show (kernel.table.markExited 1 (-9) (idxOf 1)).state = _
  rw [markExited_apply, if_pos ⟨rfl, holds⟩]
  rfl

def OnlyFrees (before after : List Event) : Prop :=
  ∃ frees, after = frees ++ before ∧ ∀ frame, Event.handedOut frame ∉ frees

lemma OnlyFrees.freeAll (memory : Memory) (frames : List Nat) :
    OnlyFrees memory.frames.log (memory.freeAll frames).frames.log := by
  induction frames generalizing memory with
  | nil => exact ⟨[], rfl, by simp⟩
  | cons first rest ih =>
    obtain ⟨frees, log, none⟩ := ih (memory.freeFrame first)
    refine ⟨frees ++ [.freed (first / frameSize)], ?_, by simpa using none⟩
    rw [append_assoc]
    exact log

lemma freeUserPml4_log (memory : Memory) {root : Nat} (isWalkable : walkable root) :
    ∃ frees, (memory.freeUserPml4 root).frames.log =
        .freed (root / frameSize) :: frees ++ memory.frames.log ∧
      ∀ frame, Event.handedOut frame ∉ frees := by
  have order : ∀ frames, memory.freeAll (frames ++ [root]) = (memory.freeAll frames).freeFrame root :=
    fun frames => foldl_append
  simp only [Memory.freeUserPml4, isWalkable, if_true, userFrames, order]
  obtain ⟨frees, log, none⟩ := OnlyFrees.freeAll memory
    ((range 256).flatMap fun index => pml4eFrames memory.tables (memory.tables root index))
  refine ⟨frees, ?_, none⟩
  rw [cons_append, ← log]
  rfl

lemma OnlyFrees.freeSyscallStack (hhdm base : Nat) (memory : Memory) :
    OnlyFrees memory.frames.log (freeSyscallStack hhdm base memory).frames.log := by
  simp only [Lifecycle.freeSyscallStack]
  split
  · exact ⟨[], rfl, by simp⟩
  · exact OnlyFrees.freeAll _ _

lemma exit_process_log (code : Int) (holds : kernel.table.holds pid)
    (process : (kernel.table.slotOf pid).isThread = false)
    (isWalkable : walkable (kernel.table.slotOf pid).pml4Phys) :
    ∃ next later frees, kernel.exit pid code = some next ∧
      next.table = kernel.table.markExited pid code ∧
      next.memory.frames.log = later ++ .freed ((kernel.table.slotOf pid).pml4Phys / frameSize) ::
        frees ++ kernel.memory.frames.log ∧
      ∀ frame, Event.handedOut frame ∉ later ∧ Event.handedOut frame ∉ frees := by
  simp only [Kernel.exit, holds, if_true, releaseSpace, process, Bool.false_eq_true, if_false,
    map_some]
  obtain ⟨frees, log, none⟩ := freeUserPml4_log kernel.memory isWalkable
  obtain ⟨later, stackLog, stackNone⟩ := OnlyFrees.freeSyscallStack kernel.hhdm
    (kernel.table.slotOf pid).syscallStackBase
    (kernel.memory.freeUserPml4 (kernel.table.slotOf pid).pml4Phys)
  refine ⟨_, later, frees, rfl, rfl, ?_, fun frame => ⟨stackNone frame, none frame⟩⟩
  rw [append_assoc, ← log]
  exact stackLog

theorem freed_twice :
    ∃ kernel, (system [sampleRegion]).Reachable Runs.anyStep kernel ∧
      ¬ FreedOnce kernel.memory.frames.log := by
  obtain ⟨kernel, _, _, spawned, accounted, _, _, table⟩ := sample_spawn False
  obtain ⟨holds, owns, _⟩ := sample_safe table
  have isWalkable : walkable (kernel.table.slotOf 1).pml4Phys = true :=
    accounted.spaces.tidy.held_walkable (accounted.spaces.tidy.tables _
      ⟨_, [], ⟨idxOf 1, owns, rfl⟩, trivial, rfl⟩)
  obtain ⟨zombie, later, frees, first, zombieTable, log, none⟩ :=
    exit_process_log (-9) holds owns.2 isWalkable
  -- the zombie is found again, with the same root
  have slot : zombie.table.slotOf 1 = (kernel.table.slotOf 1).exited (-9) := by
    rw [zombieTable, slotOf, markExited_apply, if_pos ⟨rfl, holds⟩]
    rfl
  have stillHolds : zombie.table.holds 1 = true :=
    holds_iff.mpr (by rw [slot]; exact ⟨(holds_iff.mp holds).1, by simp [exited]⟩)
  obtain ⟨twice, later', frees', second, _, log', none'⟩ :=
    exit_process_log (-9) stillHolds (by rw [slot]; exact owns.2) (by rw [slot]; exact isWalkable)
  have kills : ∀ {before after : Kernel}, before.table.holds 1 = true →
      before.exit 1 (-9) = some after → before.step (.kill 1) = some after := by
    intro before after holds exits
    simp [step, holds, exits]
  have reached : (system [sampleRegion]).Reachable Runs.anyStep twice :=
    reachable_step (reachable_step (reachable_step (.start sampleKernel_boots) trivial spawned)
      trivial (kills holds first)) trivial (kills stillHolds second)
  refine ⟨twice, reached, fun once => ?_⟩
  rw [log] at log'
  have outstanding := once ((kernel.table.slotOf 1).pml4Phys / frameSize) later' (frees' ++ (later ++
    .freed ((kernel.table.slotOf 1).pml4Phys / frameSize) :: (frees ++ kernel.memory.frames.log)))
    (by rw [log', slot]; simp [exited])
  rw [← append_assoc] at outstanding
  refine not_outstanding_freed (fun member => ?_) outstanding
  rcases mem_append.mp member with inSecond | inFirst
  · exact (none' _).2 inSecond
  · exact (none _).1 inFirst

/-- A page of one process is nobody else's: no other page, page table or syscall stack is in its
frame, and the frame is not free. -/
def Isolated (kernel : Kernel) : Prop :=
  ∀ idx virt phys, (kernel.table idx).OwnsSpace → virt < 2 ^ 47 →
    kernel.memory.translateUserPage (kernel.table idx).pml4Phys virt = some phys →
    phys / frameSize ∉ freeFrames kernel.memory.frames.bitmap ∧
    ¬ IsTable (roots kernel.table) kernel.memory phys ∧ ¬ kept kernel.hhdm kernel.table phys ∧
    ∀ idx' virt', (kernel.table idx').OwnsSpace → virt' < 2 ^ 47 →
      kernel.memory.translateUserPage (kernel.table idx').pml4Phys virt' = some phys →
      idx' = idx ∧ virt' / 4096 = virt / 4096

theorem processes_isolated (aligned : PageAligned regions) (disjoint : PairwiseDisjoint regions)
    (reached : (system regions).Reachable Careful kernel) : Isolated kernel := by
  obtain ⟨⟨tidy, owned⟩, ledger, _⟩ := reachable_accounted aligned disjoint reached
  intro idx virt phys owns user mapped
  have isRoot : roots kernel.table (kernel.table idx).pml4Phys := ⟨idx, owns, rfl⟩
  have lower : ∀ virt, virt < 2 ^ 47 → lowerHalf virt := by
    intro virt user
    simp only [lowerHalf]
    omega
  obtain ⟨_, taken, notTable, notKept⟩ := tidy.pageable_translate isRoot (lower virt user) mapped
  refine ⟨taken, notTable, notKept, fun idx' virt' owns' user' mapped' => ?_⟩
  have isRoot' : roots kernel.table (kernel.table idx').pml4Phys := ⟨idx', owns', rfl⟩
  rw [tidy.translateUserPage isRoot (lower virt user)] at mapped
  rw [tidy.translateUserPage isRoot' (lower virt' user')] at mapped'
  obtain ⟨sameRoot, samePath⟩ := (owned id _ _ phys isRoot (indices_within (lower virt user)) rfl
    mapped).2 _ _ isRoot' (indices_within (lower virt' user')) rfl mapped'
  refine ⟨ledger.apart idx' idx owns' owns sameRoot, ?_⟩
  simp only [indices, List.cons.injEq, and_true] at samePath
  omega

theorem spawned_isolated : ∃ kernel, (system [sampleRegion]).Reachable Careful kernel ∧
    (kernel.table.slotOf 1).OwnsSpace ∧ Isolated kernel := by
  obtain ⟨kernel, _, _, spawned, _, _, _, table⟩ := sample_spawn False
  have reached : (system [sampleRegion]).Reachable Careful kernel :=
    reachable_step (.start sampleKernel_boots) (by exact emptyProgram_lower) spawned
  exact ⟨kernel, reached, (sample_safe table).2.1,
    processes_isolated sampleRegion_aligned sampleRegion_disjoint reached⟩

end OsCortex.Lifecycle
