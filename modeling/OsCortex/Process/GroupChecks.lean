import OsCortex.Process.ReleaseChecks

/-! Thread groups share the address space of their process without counting its users. -/

namespace OsCortex.Lifecycle

open FrameAllocator Paging Outcome Radix List Option Table Kernel Process

variable {aliased : Prop} {regions : List MemRegion} {usable : Finset Nat}
  {kernel next : Kernel} {table : Table} {pid : Nat}

def Housed (table : Table) : Prop :=
  ∀ idx, (table idx).live = true → roots table (table idx).pml4Phys

structure Sheltered (aliased : Prop) (regions : List MemRegion) (usable : Finset Nat)
    (kernel : Kernel) : Prop where
  accounted : Accounted aliased regions usable kernel
  housed : Housed kernel.table

def LeavesLast (table : Table) (pid : Nat) : Prop :=
  table.holds pid = true → (table.slotOf pid).live = true ∧
    ((table.slotOf pid).isThread = false → ∀ idx, idx ≠ idxOf pid → (table idx).live = true →
      (table idx).pml4Phys ≠ (table.slotOf pid).pml4Phys)

lemma LeavesLast.safe (last : LeavesLast table pid) (housed : Housed table) :
    SafeExit table pid := by
  intro holds
  have isLive := (last holds).1
  exact ⟨fun _ => isLive, fun _ _ => ⟨isLive, housed (idxOf pid) isLive⟩⟩

lemma Housed.markExited (housed : Housed table) (last : LeavesLast table pid) (code : Int) :
    Housed (table.markExited pid code) := by
  by_cases holds : table.holds pid
  · obtain ⟨_, alone⟩ := last holds
    intro idx isLive
    have elsewhere : idx ≠ idxOf pid := by
      rintro rfl
      rw [markExited_apply, if_pos ⟨rfl, holds⟩] at isLive
      simp [exited, live] at isLive
    rw [markExited_other elsewhere] at isLive ⊢
    obtain ⟨owner, owns, shared⟩ := housed idx isLive
    -- the owner stays: it is not the slot that exits
    have stays : owner ≠ idxOf pid := by
      rintro rfl
      exact alone owns.2 idx elsewhere isLive shared.symm
    exact ⟨owner, by rw [markExited_other stays]; exact owns,
      by rw [markExited_other stays]; exact shared⟩
  · rw [Table.markExited, if_neg holds]
    exact housed

lemma Sheltered.exit (sheltered : Sheltered aliased regions usable kernel)
    (last : LeavesLast kernel.table pid) (lone : aliased → LoneExit kernel pid) (code : Int) :
    ∃ next, kernel.exit pid code = some next ∧ Sheltered aliased regions usable next ∧
      next.table = kernel.table.markExited pid code ∧
      Shrunk (roots next.table) kernel.memory next.memory := by
  obtain ⟨_, _, done, after, shrunk⟩ :=
    sheltered.accounted.exit (last.safe sheltered.housed) lone code
  exact ⟨_, done, ⟨after, sheltered.housed.markExited last code⟩, rfl, shrunk⟩

def VictimsLast (table : Table) (slots : List Nat) : Prop :=
  ∀ idx ∈ slots, (table idx).isThread = false → ∀ other, other ≠ idx →
    (table other).live = true → (table other).pml4Phys = (table idx).pml4Phys →
      other ∈ slots ∧ other < idx

variable {idx : Nat}

lemma VictimsLast.first {rest : List Nat} (last : VictimsLast table (idx :: rest))
    (above : ∀ other ∈ rest, idx < other) (here : idxOf pid = idx)
    (isLive : (table idx).live) : LeavesLast table pid := by
  intro _
  rw [slotOf, here]
  refine ⟨isLive, fun process other different otherLive shared => ?_⟩
  obtain ⟨member, before⟩ := last idx mem_cons_self process other different otherLive shared
  rcases mem_cons.mp member with rfl | later
  · exact different rfl
  · exact Nat.lt_asymm before (above other later)

lemma VictimsLast.rest {rest : List Nat} (last : VictimsLast table (idx :: rest))
    (above : ∀ other ∈ rest, idx < other) (here : idxOf pid = idx)
    (holds : table.holds pid) (code : Int) :
    VictimsLast (table.markExited pid code) rest := by
  intro victim member process other different otherLive shared
  have gone : other ≠ idxOf pid := by
    rintro rfl
    rw [markExited_apply, if_pos ⟨rfl, holds⟩] at otherLive
    simp [exited, live] at otherLive
  have stays : victim ≠ idxOf pid := by
    have := above victim member
    omega
  rw [markExited_other stays] at process shared
  rw [markExited_other gone] at otherLive shared
  obtain ⟨isVictim, before⟩ :=
    last victim (mem_cons_of_mem _ member) process other different otherLive shared
  refine ⟨(mem_cons.mp isVictim).resolve_left ?_, before⟩
  rintro rfl
  exact gone here.symm

lemma Sheltered.killGroup (sheltered : Sheltered aliased regions usable kernel) {leader : Nat}
    (last : VictimsLast kernel.table (victims kernel.table leader))
    (lone : aliased → ∀ idx ∈ victims kernel.table leader, LoneExit kernel (kernel.table idx).pid) :
    ∃ next, kernel.step (.killGroup leader) = some next ∧
      Sheltered aliased regions usable next := by
  rw [step, groupMembers_eq]
  refine exitAll_run (fun kernel slots => VictimsLast kernel.table slots ∧
      (aliased → ∀ idx ∈ slots, LoneExit kernel (kernel.table idx).pid))
    (fun _ sheltered => sheltered.accounted.ledger) ?_ (victims_sorted _ leader)
    (fun idx member => victims_live member) sheltered ⟨last, lone⟩
  rintro kernel idx rest sheltered live above ⟨last, lone⟩
  have isLive := live idx mem_cons_self
  have ledger := sheltered.accounted.ledger
  obtain ⟨here, _, holds⟩ := ledger.slotOf_pid isLive
  obtain ⟨next, done, after, nextTable, shrunk⟩ := sheltered.exit (last.first above here isLive)
    (fun shared => lone shared idx mem_cons_self) (-9)
  refine ⟨next, done, after, nextTable, nextTable ▸ last.rest above here holds (-9),
    fun shared other member => ?_⟩
  -- the slots still to go are as they were
  have later := above other member
  have unchanged : next.table other = kernel.table other := by
    rw [nextTable, markExited_other]
    omega
  obtain ⟨there, _, _⟩ := ledger.slotOf_pid (live other (mem_cons_of_mem _ member))
  rw [unchanged]
  refine (lone shared other (mem_cons_of_mem _ member)).shrunk (ledger.modest _) ?_ ?_ shrunk
  · simp [slotOf, there, unchanged]
  · rw [nextTable]
    exact fun _ isRoot => roots_lessen (ledger.markExited_lessens _ _) isRoot

lemma roots_write_free {process : Process} {root : Nat} (isRoot : roots table root)
    (free : (table.slotOf pid).state = .dead) : roots (table.write pid process) root := by
  obtain ⟨idx, owns, shared⟩ := isRoot
  have elsewhere : idx ≠ idxOf pid := by
    rintro rfl
    have isLive := owns.1
    rw [live, show (table (idxOf pid)).state = .dead from free] at isLive
    cases isLive
  have same : table.write pid process idx = table idx := by
    rw [write_apply, if_neg elsewhere]
  exact ⟨idx, by rw [same]; exact owns, by rw [same]; exact shared⟩

lemma Housed.write (housed : Housed table) {process : Process}
    (free : (table.slotOf pid).state = .dead)
    (home : roots (table.write pid process) process.pml4Phys) :
    Housed (table.write pid process) := by
  intro idx isLive
  rw [write_apply] at isLive ⊢
  split at isLive
  · rename_i here
    rw [if_pos here]
    exact home
  rename_i elsewhere
  rw [if_neg elsewhere]
  exact roots_write_free (housed idx isLive) free

lemma allocPid_free {nextPid : Nat} (allocated : (table.allocPid nextPid).2 = some pid) :
    (table.slotOf pid).state = .dead :=
  allocPidFrom_free allocated

variable {after : Table}

lemma Housed.threadAdded (housed : Housed kernel.table) {parent : Nat}
    (live : kernel.table.holds parent → (kernel.table.slotOf parent).live)
    (added : ThreadAdded kernel parent after) : Housed after := by
  rcases added with rfl | ⟨_, _, rfl, holds, allocated, shared⟩
  · exact housed
  have free := allocPid_free allocated
  have home := housed (idxOf parent) (live holds)
  exact housed.write free (roots_write_free (shared ▸ home) free)

lemma Housed.keeps (housed : Housed table) (same : ∀ idx, (after idx).live → (table idx).live)
    (kept : ∀ idx, (table idx).live → (after idx).live ∧
      (after idx).isThread = (table idx).isThread ∧ (after idx).pml4Phys = (table idx).pml4Phys) :
    Housed after := by
  intro idx isLive
  have before := same idx isLive
  rw [(kept idx before).2.2]
  obtain ⟨owner, ⟨ownerLive, process⟩, shared⟩ := housed idx before
  obtain ⟨stillLive, stillProcess, sameRoot⟩ := kept owner ownerLive
  exact ⟨owner, ⟨stillLive, stillProcess.trans process⟩, sameRoot.trans shared⟩

lemma Housed.reaps (housed : Housed table) (reaps : table.Reaps after) : Housed after := by
  have spared : ∀ idx, (table idx).live → after idx = table idx := by
    intro idx isLive
    refine (reaps idx).resolve_right fun reaped => ?_
    cases state : (table idx).state <;> simp [state, live, ProcState.isZombie] at isLive reaped
  refine housed.keeps (fun idx isLive => ?_) fun idx isLive => ?_
  · rcases reaps idx with same | ⟨_, emptied⟩
    · rwa [same] at isLive
    · rw [emptied] at isLive
      cases isLive
  · rw [spared idx isLive]
    exact ⟨isLive, rfl, rfl⟩

lemma Housed.setState (housed : Housed table) {state : ProcState}
    (wasLive : (table.slotOf pid).live) (isLive : state = .running ∨ state = .blocked) :
    Housed (table.setState pid state) := by
  have liveAfter : ∀ process : Process, { process with state }.live := by
    rcases isLive with rfl | rfl <;> intro process <;> rfl
  refine housed.keeps (fun idx => ?_) fun idx liveBefore => ?_
  · rw [setState_apply]
    split
    · rename_i here
      obtain ⟨rfl, _⟩ := here
      exact fun _ => wasLive
    · exact fun before => before
  rw [setState_apply]
  split
  · exact ⟨liveAfter _, rfl, rfl⟩
  · exact ⟨liveBefore, rfl, rfl⟩

def Sheltering (kernel : Kernel) : Call → Prop
  | .spawn _ image _ => ∀ page ∈ image.pages, lowerHalf page
  | .spawnThread parent _ => kernel.table.holds parent = true →
      (kernel.table.slotOf parent).live = true ∧ RoomyCursors kernel.libs
  | .cloneThread parent => kernel.table.holds parent = true →
      (kernel.table.slotOf parent).live = true
  | .exit pid _ | .kill pid => LeavesLast kernel.table pid
  | .killGroup leader => VictimsLast kernel.table (victims kernel.table leader)
  | _ => True

def Shelters (aliased : Prop) (kernel : Kernel) : Call → Prop
  | .spawn _ image _ => ∀ page ∈ image.pages, lowerHalf page
  | .spawnThread parent _ => kernel.table.holds parent = true →
      (kernel.table.slotOf parent).live = true ∧ (¬ aliased → RoomyCursors kernel.libs)
  | .cloneThread parent => kernel.table.holds parent = true →
      (kernel.table.slotOf parent).live = true
  | .exit pid _ | .kill pid => LeavesLast kernel.table pid ∧ (aliased → LoneExit kernel pid)
  | .killGroup leader => VictimsLast kernel.table (victims kernel.table leader) ∧
      (aliased → ∀ idx ∈ victims kernel.table leader, LoneExit kernel (kernel.table idx).pid)
  | _ => True

lemma Sheltering.shelters {call : Call} (sheltering : Sheltering kernel call) :
    Shelters False kernel call := by
  cases call with
  | spawnThread parent stackSize =>
    exact fun holds => ⟨(sheltering holds).1, fun _ => (sheltering holds).2⟩
  | exit pid code | kill pid | killGroup leader => exact ⟨sheltering, False.elim⟩
  | _ => exact sheltering

lemma step_sheltered {call : Call} (sheltered : Sheltered aliased regions usable kernel)
    (shelters : Shelters aliased kernel call) (taken : kernel.step call = some next) :
    Sheltered aliased regions usable next := by
  obtain ⟨accounted, housed⟩ := sheltered
  have exits : ∀ {pid code next}, LeavesLast kernel.table pid ∧ (aliased → LoneExit kernel pid) →
      kernel.exit pid code = some next → Sheltered aliased regions usable next := by
    intro pid code next leaves done
    obtain ⟨after, ran, isSheltered, _⟩ := Sheltered.exit ⟨accounted, housed⟩ leaves.1 leaves.2 code
    obtain rfl := some.inj (ran.symm.trans done)
    exact isSheltered
  cases call with
  | spawn cr3 image bootstrap =>
    refine Meets.final (accounted.spawn shelters cr3 bootstrap).meets ?_ taken
    rintro after (_ | pid) ⟨isAccounted, _, outcome⟩
    · exact ⟨isAccounted, outcome.1 ▸ housed⟩
    obtain ⟨allocated, _, _, _, table⟩ := outcome
    refine ⟨isAccounted, table ▸ housed.write (allocPid_free allocated) ⟨idxOf pid, ?_⟩⟩
    rw [write_apply, if_pos rfl]
    exact ⟨⟨rfl, rfl⟩, rfl⟩
  | spawnThread parent stackSize =>
    have meets := accounted.spawnThread (Nat.mod_lt stackSize (by decide)) fun holds =>
      ⟨housed (idxOf parent) (shelters holds).1, (shelters holds).2⟩
    exact meets.final (fun _ _ created =>
      ⟨created.1, housed.threadAdded (fun holds => (shelters holds).1) created.2⟩) taken
  | cloneThread parent =>
    exact (accounted.cloneThread parent).final (fun _ _ created =>
      ⟨created.1, housed.threadAdded shelters created.2⟩) taken
  | exit pid code => exact exits shelters taken
  | kill pid =>
    simp only [step] at taken
    split at taken
    · exact exits shelters taken
    · exact some.inj taken ▸ ⟨accounted, housed⟩
  | killGroup leader =>
    obtain ⟨after, ran, isSheltered⟩ :=
      Sheltered.killGroup ⟨accounted, housed⟩ shelters.1 shelters.2
    obtain rfl := some.inj (ran.symm.trans taken)
    exact isSheltered
  | _ =>
    refine ⟨accounted.quiet (by trivial) taken, ?_⟩
    obtain ⟨after, rfl, reaps | ⟨pid, _, wasLive, isLive, rfl⟩⟩ := step_quiet (by trivial) taken
    · exact housed.reaps reaps
    · exact housed.setState wasLive isLive

lemma boots_sheltered (aligned : PageAligned regions) (disjoint : PairwiseDisjoint regions)
    (boots : Boots regions kernel) :
    Sheltered aliased regions (freeFrames (boot regions).bitmap) kernel := by
  refine ⟨boots_accounted aligned disjoint boots, fun idx isLive => ?_⟩
  rw [boots.table] at isLive
  cases isLive

lemma Sheltered.reach_outstanding (sheltered : Sheltered False regions usable kernel) {phys : Nat}
    {path : List Nat} (isLive : (kernel.table idx).live) (within : Within leafWidths path)
    (reached : kernel.memory.reach (kernel.table idx).pml4Phys path = some phys) :
    Outstanding kernel.memory.frames.log (phys / frameSize) := by
  have isRoot := sheltered.housed idx isLive
  obtain ⟨tidy, owned⟩ := sheltered.accounted.spaces
  rcases within_table_or_leaf within with table | length
  · exact (tidy.tables phys ⟨_, path, isRoot, table, reached⟩).2
  · exact (owned not_false _ path phys isRoot within length reached).1.2

/-- Nothing below the page-table root of a Running or Blocked slot, the root included, has been
given back. -/
theorem space_outlives_threads (regions : List MemRegion) (aligned : PageAligned regions)
    (disjoint : PairwiseDisjoint regions) (kernel : Kernel)
    (reached : (system regions).Reachable Sheltering kernel) (idx : Nat)
    (isLive : (kernel.table idx).live = true) (path : List Nat) (phys : Nat)
    (within : Within leafWidths path)
    (found : kernel.memory.reach (kernel.table idx).pml4Phys path = some phys) :
    Outstanding kernel.memory.frames.log (phys / frameSize) := by
  have sheltered : Sheltered False regions (freeFrames (boot regions).bitmap) kernel := by
    refine reached.invariant ?_ ?_
    · exact fun _ boots => boots_sheltered aligned disjoint boots
    · exact fun _ _ _ sheltered sheltering taken =>
        step_sheltered sheltered sheltering.shelters taken
  exact sheltered.reach_outstanding isLive within found

lemma sample_clone :
    ∃ spawned cloned process, sampleKernel.step (.spawn 0 emptyProgram {}) = some spawned ∧
      Accounted False [sampleRegion] (freeFrames (boot [sampleRegion]).bitmap) spawned ∧
      spawned.table.holds 1 ∧ (spawned.table.slotOf 1).OwnsSpace ∧
      spawned.step (.cloneThread 1) = some cloned ∧
      cloned.table = spawned.table.write 2 process ∧ process.live ∧
      process.pml4Phys = (spawned.table.slotOf 1).pml4Phys := by
  obtain ⟨kernel, _, _, spawned, accounted, room, nextPid, table⟩ := sample_spawn False
  obtain ⟨holds, owns, _⟩ := sample_safe table
  obtain ⟨start, run⟩ := accounted.sample_run room
  have allocated : kernel.table.allocPid kernel.nextPid = (3, some 2) := by
    rw [nextPid, table]
    rfl
  obtain ⟨memory, result, ran, outcome⟩ := allocSyscallStack_ends accounted.spaces kernel.hhdm
  cases result with
  | error oom => exact absurd run (outcome.2 start)
  | ok stack =>
    let process := (kernel.table.slotOf 2).threadOf 2 (kernel.table.slotOf 1).pml4Phys stack
      (kernel.table.getGroupLeader 1) (kernel.table.slotOf (kernel.table.getGroupLeader 1)).caps
      0 0 0
    refine ⟨kernel, { kernel with nextPid := 3, memory, table := kernel.table.write 2 process },
      process, spawned, accounted, holds, owns, ?_, rfl, rfl, rfl⟩
    simp only [step, cloneThread, createThread, holds, if_true, allocated,
      ran, Outcome.focus, Outcome.andThen, Outcome.ok, map_some]
    rfl

theorem space_outlives_threads_clone :
    ∃ kernel, (system [sampleRegion]).Reachable Sheltering kernel ∧ (kernel.table 2).live = true ∧
      Outstanding kernel.memory.frames.log ((kernel.table 2).pml4Phys / frameSize) := by
  obtain ⟨spawned, cloned, _, isSpawned, _, _, owns, isCloned, table, isLive, _⟩ := sample_clone
  have reached : (system [sampleRegion]).Reachable Sheltering cloned :=
    reachable_step (reachable_step (.start sampleKernel_boots)
      (show Sheltering sampleKernel (.spawn 0 emptyProgram {}) from emptyProgram_lower) isSpawned)
      (show Sheltering spawned (.cloneThread 1) from fun _ => owns.1) isCloned
  have live : (cloned.table 2).live = true := by
    rw [table, write_apply, if_pos (by decide)]
    exact isLive
  exact ⟨cloned, reached, live, space_outlives_threads [sampleRegion] sampleRegion_aligned
    sampleRegion_disjoint cloned reached 2 live [] _ trivial rfl⟩

theorem space_freed_under_thread :
    ∃ kernel, (system [sampleRegion]).Reachable Runs.anyStep kernel ∧ (kernel.table 2).live = true ∧
      kernel.memory.reach (kernel.table 2).pml4Phys [] = some (kernel.table 2).pml4Phys ∧
      ¬ Outstanding kernel.memory.frames.log ((kernel.table 2).pml4Phys / frameSize) := by
  obtain ⟨spawned, cloned, process, isSpawned, accounted, holds, owns, isCloned, table, isLive,
    shared⟩ := sample_clone
  have isWalkable : walkable (spawned.table.slotOf 1).pml4Phys = true :=
    accounted.spaces.tidy.held_walkable (accounted.spaces.tidy.tables _
      ⟨_, [], ⟨idxOf 1, owns, rfl⟩, trivial, rfl⟩)
  -- the leader's slot is untouched by the clone
  have leader : cloned.table.slotOf 1 = spawned.table.slotOf 1 := by
    rw [table, slotOf, write_apply, if_neg (by decide)]
    rfl
  have stillHolds : cloned.table.holds 1 = true := by
    rw [Table.holds, leader]
    exact holds
  obtain ⟨left, _, _, exits, leftTable, log, none⟩ := exit_process_log 0 stillHolds
    (by rw [leader]; exact owns.2) (by rw [leader]; exact isWalkable)
  have thread : left.table 2 = process := by
    rw [leftTable, markExited_other (by decide), table, write_apply,
      if_pos (by decide)]
  have reached : (system [sampleRegion]).Reachable Runs.anyStep left :=
    reachable_step (reachable_step (reachable_step (.start sampleKernel_boots) trivial isSpawned)
      trivial isCloned) trivial (show cloned.step (.exit 1 0) = some left from exits)
  refine ⟨left, reached, by rw [thread]; exact isLive, rfl, ?_⟩
  rw [thread, shared, log, leader, append_assoc]
  exact not_outstanding_freed (none _).1

end OsCortex.Lifecycle
