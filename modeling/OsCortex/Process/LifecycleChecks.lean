import OsCortex.Process.DlWindow
import OsCortex.Process.ElfChecks
import OsCortex.Process.LifecycleCore
import OsCortex.Process.TableChecks

/-!
Which slot of the process table answers for which frames: a live process owns its address space, a
live process or thread its syscall stack.
-/

namespace OsCortex

open List Option Dl Nat

def Process.OwnsSpace (process : Process) : Prop := process.live = true ∧ process.isThread = false

variable {idx phys va stackSize : Nat} {process : Process} {code : Int} {next : Kernel}
    {image : Elf.Image} {call : Call}

namespace Lifecycle

open FrameAllocator Paging Outcome

def roots (table : Table) (root : Nat) : Prop :=
  ∃ idx, (table idx).OwnsSpace ∧ (table idx).pml4Phys = root

def OnStack (hhdm base phys : Nat) : Prop :=
  base ≠ 0 ∧ ∃ i < stackFrames, phys + hhdm = base + i * 4096

def kept (hhdm : Nat) (table : Table) (phys : Nat) : Prop :=
  ∃ idx, OnStack hhdm (table idx).syscallStackBase phys

structure Modest (aliased : Prop) (process : Process) : Prop where
  stackSize : process.userStackSize ≤ 2 ^ 28
  stackBase : ¬ aliased → process.userStackBase ≠ 0 → Dl.anonVaBase ≤ process.userStackBase
  tls : ¬ aliased → process.fsBase ≠ 0 → Dl.anonVaBase ≤ process.fsBase

structure Ledger (aliased : Prop) (hhdm : Nat) (table : Table) : Prop where
  apart : ∀ idx idx', (table idx).OwnsSpace → (table idx').OwnsSpace →
    (table idx).pml4Phys = (table idx').pml4Phys → idx = idx'
  stacksApart : ∀ idx idx' phys, OnStack hhdm (table idx).syscallStackBase phys →
    OnStack hhdm (table idx').syscallStackBase phys → idx = idx'
  based : ∀ idx, (table idx).syscallStackBase ≠ 0 →
    hhdm ≤ (table idx).syscallStackBase ∧ (table idx).live = true
  indexed : ∀ idx, (table idx).state ≠ .dead → idxOf (table idx).pid = idx
  modest : ∀ idx, (table idx).isThread = true → Modest aliased (table idx)

structure Lessens (before after : Process) : Prop where
  owns : after.OwnsSpace → before.OwnsSpace ∧ after.pml4Phys = before.pml4Phys
  stack : after.syscallStackBase ≠ 0 →
    after.syscallStackBase = before.syscallStackBase ∧ after.live = true
  named : after.state ≠ .dead → before.state ≠ .dead ∧ after.pid = before.pid
  thread : after.isThread = true → before.isThread = true ∧
    after.userStackSize = before.userStackSize ∧ after.userStackBase = before.userStackBase ∧
    after.fsBase = before.fsBase

lemma Lessens.refl {aliased : Prop} {hhdm : Nat} {table : Table}
    (ledger : Ledger aliased hhdm table) :
    Lessens (table idx) (table idx) :=
  ⟨fun owns => ⟨owns, rfl⟩, fun based => ⟨rfl, (ledger.based idx based).2⟩, fun named => ⟨named, rfl⟩,
    fun thread => ⟨thread, rfl, rfl, rfl⟩⟩

lemma lessens_empty (before : Process) : Lessens before Process.empty := by
  constructor <;> simp [Process.empty, Process.OwnsSpace, Process.live]

variable {aliased : Prop} {hhdm pid : Nat} {table after : Table}

lemma Lessens.onStack {before after : Process} (lessens : Lessens before after)
    (onStack : OnStack hhdm after.syscallStackBase phys) :
    OnStack hhdm before.syscallStackBase phys := by
  rw [← (lessens.stack onStack.1).1]
  exact onStack

lemma roots_lessen (lessens : ∀ idx, Lessens (table idx) (after idx)) {root : Nat}
    (isRoot : roots after root) : roots table root := by
  obtain ⟨idx, owns, rfl⟩ := isRoot
  obtain ⟨before, same⟩ := (lessens idx).owns owns
  exact ⟨idx, before, same.symm⟩

lemma kept_lessen (lessens : ∀ idx, Lessens (table idx) (after idx))
    (isKept : kept hhdm after phys) : kept hhdm table phys := by
  obtain ⟨idx, onStack⟩ := isKept
  exact ⟨idx, (lessens idx).onStack onStack⟩

section

variable (ledger : Ledger aliased hhdm table)
include ledger

lemma Ledger.lessen
    (lessens : ∀ idx, Lessens (table idx) (after idx)) : Ledger aliased hhdm after := by
  constructor
  · intro idx idx' owns owns' same
    obtain ⟨before, root⟩ := (lessens idx).owns owns
    obtain ⟨before', root'⟩ := (lessens idx').owns owns'
    exact ledger.apart idx idx' before before' (root.symm.trans (same.trans root'))
  · intro idx idx' phys onStack onStack'
    exact ledger.stacksApart idx idx' phys ((lessens idx).onStack onStack)
      ((lessens idx').onStack onStack')
  · intro idx based
    obtain ⟨same, live⟩ := (lessens idx).stack based
    rw [same] at based ⊢
    exact ⟨(ledger.based idx based).1, live⟩
  · intro idx named
    obtain ⟨before, same⟩ := (lessens idx).named named
    rw [same]
    exact ledger.indexed idx before
  intro idx thread
  obtain ⟨before, size, base, tls⟩ := (lessens idx).thread thread
  obtain ⟨sizeBound, baseBound, tlsBound⟩ := ledger.modest idx before
  exact ⟨size ▸ sizeBound, base ▸ baseBound, tls ▸ tlsBound⟩

lemma Ledger.reaps_lessens (reaps : table.Reaps after)
    (idx : Nat) :
    Lessens (table idx) (after idx) := by
  rcases reaps idx with same | ⟨_, emptied⟩
  · rw [same]
    exact Lessens.refl ledger
  · rw [emptied]
    exact lessens_empty _

lemma Ledger.setState_lessens {state : ProcState}
    (wasLive : (table.slotOf pid).live) (isLive : state = .running ∨ state = .blocked)
    (idx : Nat) : Lessens (table idx) (table.setState pid state idx) := by
  rw [Table.setState_apply]
  split
  · rename_i here
    obtain ⟨rfl, _⟩ := here
    have liveAfter : ∀ process : Process, { process with state }.live := by
      rcases isLive with rfl | rfl <;> intro process <;> rfl
    refine ⟨fun owns => ⟨⟨wasLive, owns.2⟩, rfl⟩, fun _ => ⟨rfl, liveAfter _⟩, fun _ => ⟨?_, rfl⟩,
      fun thread => ⟨thread, rfl, rfl, rfl⟩⟩
    intro dead
    simp [Process.live, Table.slotOf, dead] at wasLive
  · exact Lessens.refl ledger

lemma Ledger.markExited_lessens (pid : Nat) (code : Int)
    (idx : Nat) :
    Lessens (table idx) (table.markExited pid code idx) := by
  rw [Table.markExited_apply]
  split
  · rename_i here
    obtain ⟨rfl, holds⟩ := here
    have named := (Table.holds_iff.mp holds).2
    refine ⟨fun owns => ?_, fun based => absurd rfl based, fun _ => ⟨named, rfl⟩,
      fun thread => ⟨thread, rfl, rfl, rfl⟩⟩
    simp [Process.OwnsSpace, Process.exited, Process.live] at owns
  · exact Lessens.refl ledger

end

structure Accounted (aliased : Prop) (regions : List MemRegion) (usable : Finset Nat)
    (kernel : Kernel) : Prop where
  spaces : Spaces aliased regions usable (roots kernel.table) (kept kernel.hhdm kernel.table)
    kernel.memory
  ledger : Ledger aliased kernel.hhdm kernel.table
  window : ¬ aliased → ∃ bound, Dl.Windowed bound kernel.libs

variable {regions : List MemRegion} {usable : Finset Nat} {kernel : Kernel} {memory : Memory}

lemma freeSyscallStack_spaces {owners held held' : Nat → Prop} {base : Nat}
    (spaces : Spaces aliased regions usable owners held memory)
    (frames : ∀ phys, OnStack hhdm base phys → held phys)
    (others : ∀ phys, held' phys → held phys ∧ ¬ OnStack hhdm base phys) :
    Spaces aliased regions usable owners held' (freeSyscallStack hhdm base memory) ∧
      Shrunk owners memory (freeSyscallStack hhdm base memory) := by
  simp only [freeSyscallStack]
  split
  · exact ⟨spaces.mono (fun _ isRoot => isRoot) fun phys isKept => (others phys isKept).1,
      Shrunk.refl owners memory⟩
  have onStack : ∀ phys ∈ (range stackFrames).map (fun i => base - hhdm + i * 4096),
      OnStack hhdm base phys := by
    intro phys member
    obtain ⟨i, bound, rfl⟩ := mem_map.mp member
    exact ⟨by omega, i, mem_range.mp bound, by omega⟩
  refine spaces.freeKept ?_ (fun phys member => frames phys (onStack phys member))
    fun phys isKept => ⟨(others phys isKept).1, fun member => ?_⟩
  · refine Nodup.map (fun i j same => ?_) nodup_range
    omega
  · exact (others phys isKept).2 (onStack phys member)

def hasAnon (process : Process) : Bool := anonStack process || anonTls process

lemma pageRange_lower {size : Nat} (low : va < 2 ^ 40) (small : size ≤ 2 ^ 28) :
    ∀ page ∈ pageRange va size, lowerHalf page := by
  intro page member
  obtain ⟨_, inside, rfl⟩ := mem_map.mp member
  have bound := mem_range.mp inside
  simp only [lowerHalf]
  omega

lemma isAnon_small (isAnon : Dl.isAnon va) : va < 2 ^ 40 := by
  simp only [Dl.isAnon, Bool.and_eq_true, decide_eq_true_eq] at isAnon
  omega

lemma Modest.stack_lower (modest : Modest aliased process) (present : anonStack process) :
    ∀ page ∈ pageRange process.userStackBase process.userStackSize, lowerHalf page := by
  simp only [anonStack, Bool.and_eq_true] at present
  exact pageRange_lower (isAnon_small present.2) modest.stackSize

lemma Modest.stack_window (modest : Modest aliased process)
    (present : anonStack process) (strict : ¬ aliased) :
    Dl.anonVaBase ≤ process.userStackBase ∧
      process.userStackBase + process.userStackSize ≤ Dl.windowEnd := by
  simp only [anonStack, Bool.and_eq_true, bne_iff_ne] at present
  have low := isAnon_small present.2
  have small := modest.stackSize
  exact ⟨modest.stackBase strict present.1.1, by simp only [Dl.windowEnd]; omega⟩

lemma Modest.tls_window (modest : Modest aliased process)
    (present : anonTls process) (strict : ¬ aliased) :
    Dl.anonVaBase ≤ process.fsBase ∧ process.fsBase + 4096 ≤ Dl.windowEnd := by
  simp only [anonTls, Bool.and_eq_true, bne_iff_ne] at present
  have low := isAnon_small present.2
  exact ⟨modest.tls strict present.1, by simp only [Dl.windowEnd]; omega⟩

lemma anonTls_lower (present : anonTls process) :
    ∀ page ∈ pageRange process.fsBase 4096, lowerHalf page := by
  simp only [anonTls, Bool.and_eq_true] at present
  exact pageRange_lower (isAnon_small present.2) (by decide)

def SafeExit (table : Table) (pid : Nat) : Prop :=
  table.holds pid = true →
    ((table.slotOf pid).isThread = false → (table.slotOf pid).live = true) ∧
    ((table.slotOf pid).isThread = true → hasAnon (table.slotOf pid) = true →
      (table.slotOf pid).live = true ∧ roots table (table.slotOf pid).pml4Phys)

def LoneExit (kernel : Kernel) (pid : Nat) : Prop :=
  let process := kernel.table.slotOf pid
  let unshared := Unshared (roots kernel.table) kernel.memory process.pml4Phys
  roots kernel.table process.pml4Phys →
    (process.isThread = false → SoleOwner (roots kernel.table) kernel.memory process.pml4Phys) ∧
    (process.isThread = true →
      (anonStack process = true →
        unshared (pageRange process.userStackBase process.userStackSize)) ∧
      (anonTls process = true → unshared (pageRange process.fsBase 4096)))

lemma owns_markExited (holds : table.holds pid) (owns : (table.markExited pid code idx).OwnsSpace) :
    idx ≠ idxOf pid ∧ table.markExited pid code idx = table idx := by
  rw [Table.markExited_apply] at owns ⊢
  split at owns
  · simp [Process.OwnsSpace, Process.exited, Process.live] at owns
  rename_i elsewhere
  rw [if_neg elsewhere]
  exact ⟨fun here => elsewhere ⟨here, holds⟩, rfl⟩

section

variable (accounted : Accounted aliased regions usable kernel)
include accounted

lemma Accounted.lessen (lessens : ∀ idx, Lessens (kernel.table idx) (after idx)) :
    Accounted aliased regions usable { kernel with table := after } :=
  ⟨accounted.spaces.mono (fun _ isRoot => roots_lessen lessens isRoot)
    fun _ isKept => kept_lessen lessens isKept, accounted.ledger.lessen lessens, accounted.window⟩

lemma Accounted.reclaim (owned : roots kernel.table (kernel.table.slotOf pid).pml4Phys) {size : Nat}
    (above : ¬ aliased → Dl.anonVaBase ≤ va ∧ va + size ≤ Dl.windowEnd)
    (lower : ∀ page ∈ pageRange va size, lowerHalf page)
    (unshared : aliased → Unshared (roots kernel.table) kernel.memory
      (kernel.table.slotOf pid).pml4Phys (pageRange va size)) :
    ∃ memory libs, kernel.reclaim pid va size = some { kernel with memory, libs } ∧
      Accounted aliased regions usable { kernel with memory, libs } ∧
      Shrunk (roots kernel.table) kernel.memory memory := by
  obtain ⟨memory, done, spaces, shrunk⟩ := accounted.spaces.unmapUserRange owned lower unshared
  refine ⟨memory, _, by simp only [Kernel.reclaim, done]; rfl,
    ⟨spaces, accounted.ledger, fun strict => ?_⟩, shrunk⟩
  obtain ⟨bound, windowed⟩ := accounted.window strict
  refine ⟨bound, ?_⟩
  split
  · exact windowed.recycleAnonVa (above strict).1 (above strict).2
  · exact windowed

lemma Accounted.releaseThread (isThread : (kernel.table.slotOf pid).isThread)
    (owned : hasAnon (kernel.table.slotOf pid) →
      roots kernel.table (kernel.table.slotOf pid).pml4Phys)
    (lone : aliased → LoneExit kernel pid) :
    ∃ memory libs, kernel.releaseSpace pid = some { kernel with memory, libs } ∧
      Accounted aliased regions usable { kernel with memory, libs } ∧
      Shrunk (roots kernel.table) kernel.memory memory := by
  have modest : Modest aliased (kernel.table.slotOf pid) :=
    accounted.ledger.modest (idxOf pid) isThread
  have stackGone : ∃ memory libs,
      (if anonStack (kernel.table.slotOf pid) then
        kernel.reclaim pid (kernel.table.slotOf pid).userStackBase
          (kernel.table.slotOf pid).userStackSize
      else some kernel) = some { kernel with memory, libs } ∧
        Accounted aliased regions usable { kernel with memory, libs } ∧
        Shrunk (roots kernel.table) kernel.memory memory := by
    split
    · rename_i present
      have isRoot := owned (by simp [hasAnon, present])
      exact accounted.reclaim isRoot (modest.stack_window present) (modest.stack_lower present)
        fun shared => ((lone shared isRoot).2 isThread).1 present
    · exact ⟨kernel.memory, kernel.libs, rfl, accounted, Shrunk.refl _ _⟩
  obtain ⟨memory, libs, stackDone, middle, shrunk⟩ := stackGone
  simp only [Kernel.releaseSpace, isThread, if_true, stackDone, bind_some]
  split
  · rename_i present
    have isRoot := owned (by simp [hasAnon, present])
    obtain ⟨memory', libs', done, after, more⟩ := middle.reclaim isRoot
      (modest.tls_window present) (anonTls_lower present) fun shared =>
        (((lone shared isRoot).2 isThread).2 present).shrunk isRoot (anonTls_lower present) shrunk
    exact ⟨memory', libs', done, after, shrunk.trans more⟩
  · exact ⟨memory, libs, rfl, middle, shrunk⟩

lemma Accounted.exit
    (safe : SafeExit kernel.table pid) (lone : aliased → LoneExit kernel pid) (code : Int) :
    ∃ memory libs, kernel.exit pid code =
        some { kernel with memory, libs, table := kernel.table.markExited pid code } ∧
      Accounted aliased regions usable
        { kernel with memory, libs, table := kernel.table.markExited pid code } ∧
      Shrunk (roots (kernel.table.markExited pid code)) kernel.memory memory := by
  by_cases holds : kernel.table.holds pid
  · obtain ⟨process, thread⟩ := safe holds
    have lessens := accounted.ledger.markExited_lessens pid code
    have released : ∃ memory libs, kernel.releaseSpace pid = some { kernel with memory, libs } ∧
        Spaces aliased regions usable (roots (kernel.table.markExited pid code))
          (kept kernel.hhdm kernel.table) memory ∧ (¬ aliased → ∃ bound, Dl.Windowed bound libs) ∧
        Shrunk (roots (kernel.table.markExited pid code)) kernel.memory memory := by
      cases isThread : (kernel.table.slotOf pid).isThread with
      | true =>
        obtain ⟨memory, libs, done, after, shrunk⟩ := accounted.releaseThread isThread
          (fun present => (thread isThread present).2) lone
        exact ⟨memory, libs, done, after.spaces.mono
          (fun _ isRoot => roots_lessen lessens isRoot) fun _ isKept => isKept, after.window,
          shrunk.mono fun _ isRoot => roots_lessen lessens isRoot⟩
      | false =>
        have owns : (kernel.table (idxOf pid)).OwnsSpace := ⟨process isThread, isThread⟩
        have isRoot : roots kernel.table (kernel.table.slotOf pid).pml4Phys :=
          ⟨idxOf pid, owns, rfl⟩
        have others : ∀ other, roots (kernel.table.markExited pid code) other →
            roots kernel.table other ∧ other ≠ (kernel.table.slotOf pid).pml4Phys := by
          rintro other ⟨idx, ownsOther, rfl⟩
          obtain ⟨elsewhere, same⟩ := owns_markExited holds ownsOther
          rw [same] at ownsOther ⊢
          refine ⟨⟨idx, ownsOther, rfl⟩, fun shared => elsewhere ?_⟩
          exact accounted.ledger.apart idx (idxOf pid) ownsOther owns shared
        obtain ⟨spaces, shrunk⟩ := accounted.spaces.freeUserPml4 isRoot
          (fun shared => (lone shared isRoot).1 isThread) others
        exact ⟨_, kernel.libs, by simp only [Kernel.releaseSpace, isThread]; rfl, spaces,
          accounted.window, shrunk⟩
    obtain ⟨memory, libs, done, spaces, window, shrunk⟩ := released
    have others : ∀ phys, kept kernel.hhdm (kernel.table.markExited pid code) phys →
        kept kernel.hhdm kernel.table phys ∧
          ¬ OnStack kernel.hhdm (kernel.table (idxOf pid)).syscallStackBase phys := by
      rintro phys ⟨idx, onStack⟩
      refine ⟨⟨idx, (lessens idx).onStack onStack⟩, fun shared => ?_⟩
      obtain rfl := accounted.ledger.stacksApart idx (idxOf pid) phys
        ((lessens idx).onStack onStack) shared
      have based := onStack.1
      rw [Table.markExited_apply, if_pos ⟨rfl, holds⟩] at based
      exact based rfl
    obtain ⟨afterSpaces, more⟩ :=
      freeSyscallStack_spaces spaces (fun phys onStack => ⟨idxOf pid, onStack⟩) others
    exact ⟨freeSyscallStack kernel.hhdm (kernel.table.slotOf pid).syscallStackBase memory, libs,
      by simp [Kernel.exit, holds, done],
      ⟨afterSpaces, accounted.ledger.lessen lessens, window⟩, shrunk.trans more⟩
  have same : kernel.table.markExited pid code = kernel.table := by
    simp [Table.markExited, holds]
  refine ⟨kernel.memory, kernel.libs, ?_, ?_⟩
  · simp [Kernel.exit, holds, same]
  · rw [same]
    exact ⟨accounted, Shrunk.refl _ _⟩

end

lemma LoneExit.shrunk {before : Kernel} (lone : LoneExit before pid)
    (modest : (before.table.slotOf pid).isThread → Modest aliased (before.table.slotOf pid))
    (same : next.table.slotOf pid = before.table.slotOf pid)
    (fewer : ∀ root, roots next.table root → roots before.table root)
    (shrunk : Shrunk (roots next.table) before.memory next.memory) : LoneExit next pid := by
  simp only [LoneExit, same]
  intro isRoot
  obtain ⟨process, thread⟩ := lone (fewer _ isRoot)
  have stays : ∀ {pages}, (∀ page ∈ pages, lowerHalf page) →
      Unshared (roots before.table) before.memory (before.table.slotOf pid).pml4Phys pages →
      Unshared (roots next.table) next.memory (before.table.slotOf pid).pml4Phys pages :=
    fun lower unshared => Unshared.shrunk
      (fun page member phys reached => (unshared page member phys reached).mono fewer) isRoot lower
      shrunk
  refine ⟨fun isProcess path phys within length reached => ?_, fun isThread =>
    ⟨fun present => ?_, fun present => ?_⟩⟩
  · have sole := process isProcess path phys within length
      (shrunk.leaf _ path phys isRoot within length reached)
    exact (sole.mono fewer).shrunk shrunk ⟨_, path, isRoot, within, length, reached⟩
  · exact stays ((modest isThread).stack_lower present) ((thread isThread).1 present)
  · exact stays (anonTls_lower present) ((thread isThread).2 present)

def Member (table : Table) (leader idx : Nat) : Prop :=
  (table idx).pid ≠ 0 ∧ (table idx).live = true ∧ table.getGroupLeader (table idx).pid = leader

instance (table : Table) (leader idx : Nat) : Decidable (Member table leader idx) :=
  inferInstanceAs (Decidable (_ ∧ _ ∧ _))

def victims (table : Table) (leader : Nat) : List Nat :=
  (List.range maxProcs).filter fun idx => Member table leader idx

lemma groupMembers_eq (table : Table) (leader : Nat) :
    table.groupMembers leader = (victims table leader).map fun idx => (table idx).pid := by
  simp only [Table.groupMembers, victims]
  induction range maxProcs with
  | nil => rfl
  | cons idx rest ih =>
    rw [map_cons, filterMap_cons, filter_cons, ih]
    by_cases member : Member table leader idx
    · rw [if_pos (show _ ∧ _ ∧ _ from member), if_pos (decide_eq_true member), map_cons]
    · rw [if_neg (show ¬ (_ ∧ _ ∧ _) from member), if_neg (by simpa using member)]

lemma markExited_other (elsewhere : idx ≠ idxOf pid) :
    table.markExited pid code idx = table idx := by
  rw [Table.markExited_apply, if_neg fun here => elsewhere here.1]

lemma Ledger.slotOf_pid (ledger : Ledger aliased hhdm table) (isLive : (table idx).live) :
    idxOf (table idx).pid = idx ∧ table.slotOf (table idx).pid = table idx ∧
      table.holds (table idx).pid := by
  have named : (table idx).state ≠ .dead := by
    intro dead
    simp [Process.live, dead] at isLive
  have here := ledger.indexed idx named
  have same : table.slotOf (table idx).pid = table idx := by rw [Table.slotOf, here]
  exact ⟨here, same, Table.holds_iff.mpr (by rw [same]; exact ⟨rfl, named⟩)⟩

lemma exitAll_run {good : Kernel → Prop} (fit : Kernel → List Nat → Prop)
    (ledger : ∀ kernel, good kernel → Ledger aliased kernel.hhdm kernel.table)
    (step : ∀ kernel idx rest, good kernel → (∀ other ∈ idx :: rest, (kernel.table other).live) →
      (∀ other ∈ rest, idx < other) → fit kernel (idx :: rest) →
      ∃ next, kernel.exit (kernel.table idx).pid (-9) = some next ∧ good next ∧
        next.table = kernel.table.markExited (kernel.table idx).pid (-9) ∧ fit next rest)
    {slots : List Nat} (sorted : slots.Pairwise (· < ·)) {kernel : Kernel}
    (live : ∀ idx ∈ slots, (kernel.table idx).live) (isGood : good kernel)
    (isFit : fit kernel slots) :
    ∃ next, Kernel.exitAll (slots.map fun idx => (kernel.table idx).pid) kernel = some next ∧
      good next := by
  induction slots generalizing kernel with
  | nil => exact ⟨kernel, rfl, isGood⟩
  | cons idx rest ih =>
    obtain ⟨above, restSorted⟩ := pairwise_cons.mp sorted
    have isLive := live idx mem_cons_self
    obtain ⟨_, _, _⟩ := (ledger kernel isGood).slotOf_pid isLive
    obtain ⟨next, done, nextGood, table, nextFit⟩ := step kernel idx rest isGood live above isFit
    have unchanged : ∀ other ∈ rest, next.table other = kernel.table other := by
      intro other member
      rw [table, markExited_other]
      have := above other member
      omega
    have sameVictims : (rest.map fun other => (kernel.table other).pid) =
        rest.map fun other => (next.table other).pid :=
      map_congr_left fun other member => by rw [unchanged other member]
    rw [map_cons, Kernel.exitAll, done, bind_some, sameVictims]
    refine ih restSorted (fun other member => ?_) nextGood nextFit
    rw [unchanged other member]
    exact live other (mem_cons_of_mem _ member)

/-- Each thread among the victims that has memory to reclaim finds the owner of its address
space alive: not among the victims, or behind it. -/
def SafeVictims (table : Table) (slots : List Nat) : Prop :=
  ∀ idx ∈ slots, (table idx).isThread = true → hasAnon (table idx) = true →
    ∃ owner, (table owner).OwnsSpace ∧ (table owner).pml4Phys = (table idx).pml4Phys ∧
      (owner ∈ slots → idx < owner)

lemma SafeVictims.first {rest : List Nat} (safe : SafeVictims table (idx :: rest))
    (same : table.slotOf pid = table idx) (isLive : (table idx).live) :
    SafeExit table pid := by
  intro _
  rw [same]
  refine ⟨fun _ => isLive, fun isThread present => ⟨isLive, ?_⟩⟩
  obtain ⟨owner, owns, shared, _⟩ := safe idx mem_cons_self isThread present
  exact ⟨owner, owns, shared⟩

lemma SafeVictims.rest {rest : List Nat} (safe : SafeVictims table (idx :: rest))
    (above : ∀ other ∈ rest, idx < other) (here : idxOf pid = idx) :
    SafeVictims (table.markExited pid code) rest := by
  have unchanged : ∀ other, other ≠ idx → table.markExited pid code other = table other :=
    fun other different => markExited_other (by rw [here]; exact different)
  intro other member isThread present
  have later := above other member
  rw [unchanged other (by omega)] at isThread present ⊢
  obtain ⟨owner, owns, shared, behind⟩ := safe other (mem_cons_of_mem _ member) isThread present
  -- the owner is not the one that has just gone
  have stays : owner ≠ idx := by
    rintro rfl
    exact Nat.lt_asymm later (behind mem_cons_self)
  exact ⟨owner, by rw [unchanged owner stays]; exact owns,
    by rw [unchanged owner stays]; exact shared,
    fun isVictim => behind (mem_cons_of_mem _ isVictim)⟩

lemma victims_sorted (table : Table) (leader : Nat) : (victims table leader).Pairwise (· < ·) :=
  pairwise_lt_range.filter _

lemma victims_live {leader : Nat} (member : idx ∈ victims table leader) : (table idx).live := by
  have isMember : Member table leader idx := of_decide_eq_true (mem_filter.mp member).2
  exact isMember.2.1

section Build

variable {owners held : Nat → Prop} {excuse : Prop} {root : Nat}

def InRun (start phys : Nat) : Prop := ∃ i < stackFrames, phys = (start + i) * frameSize

lemma inRun_of_onStack {start base : Nat} (isBase : base = start * frameSize + hhdm)
    (onStack : OnStack hhdm base phys) : InRun start phys := by
  obtain ⟨_, i, bound, here⟩ := onStack
  refine ⟨i, bound, ?_⟩
  rw [isBase] at here
  simp only [frameSize] at here ⊢
  omega

def NewStack (aliased : Prop) (regions : List MemRegion) (usable : Finset Nat) (owners held : Nat → Prop)
    (hhdm base : Nat) (after : Memory) : Prop :=
  ∃ start, base = start * frameSize + hhdm ∧ (∀ phys, InRun start phys → ¬ held phys) ∧
    Spaces aliased regions usable owners (fun phys => held phys ∨ InRun start phys) after

lemma allocSyscallStack_ends (spaces : Spaces aliased regions usable owners held memory)
    (hhdm : Nat) :
    Ends (allocSyscallStack hhdm memory) fun after result =>
      match result with
      | .ok base => memory.room ≤ after.room + stackFrames ∧
          NewStack aliased regions usable owners held hhdm base after
      | .error _ => Spaces aliased regions usable owners held after ∧
          ∀ start, ¬ FreeRun memory.frames.bitmap start stackFrames := by
  simp only [allocSyscallStack, Memory.allocContiguousFrames]
  rcases allocContiguous_spec memory.frames.bitmap stackFrames with failed | ⟨start, run, done⟩
  · rw [failed]
    refine ends_fail ⟨spaces, fun start run => ?_⟩
    obtain ⟨_, _, done⟩ := allocContiguous_complete (by decide) run
    rw [failed] at done
    cases (Prod.mk.inj done).2
  rw [done, handOut_take]
  refine ends_ok ⟨?_, start, rfl, ?_, spaces.takeKept run⟩
  · exact (show Grown owners held stackFrames memory _ from Grown.take run).budget
  · rintro _ ⟨_, _, rfl⟩
    exact (spaces.tidy.take_fresh run (mem_range'_1.mpr ⟨by omega, by omega⟩)).notKept

lemma allocUserPml4_ends (spaces : Spaces aliased regions usable owners held memory) (cr3 : Nat) :
    Ends (allocUserPml4 cr3 memory) fun after result =>
      match result with
      | .ok root => memory.room ≤ after.room + 1 ∧ ¬ owners root ∧
          Spaces aliased regions usable (fun other => owners other ∨ other = root) held after
      | .error _ => Spaces aliased regions usable owners held after ∧ memory.room = 0 := by
  simp only [allocUserPml4]
  rcases spaces.tidy.allocUserPml4 cr3 with ⟨failed, empty⟩ |
    ⟨root, after, done, new, tidy, owned, spent⟩
  · rw [failed]
    exact ends_fail ⟨spaces, by rw [Memory.room, empty, Finset.card_empty]⟩
  · rw [done]
    exact ends_ok ⟨spent, new, tidy, fun strict => owned (spaces.owned strict)⟩

lemma mapTrampolinePages_spaces (isRoot : owners root)
    (spaces : Spaces aliased regions usable owners held memory) :
    Costs (Spaces aliased regions usable owners held) Memory.room excuse 8 memory
      (mapTrampolinePages root memory) fun _ _ => True := by
  refine (spaces.allocFrameOr "OOM: trampoline page 0").andThen ?_ (le_refl (1 + 7))
  rintro _ phys0 spaces₁ ⟨_, fresh0, _⟩
  refine (spaces₁.allocFrameOr "OOM: trampoline page 1").andThen ?_ (le_refl (1 + 6))
  rintro _ phys1 spaces₂ ⟨unheld, fresh1, grown⟩
  have different : phys1 ≠ phys0 := by
    rintro rfl
    exact unheld fresh0.held
  have still := grown.fresh phys0 fresh0
  refine (spaces₂.mapFresh isRoot (by decide) still false true).andThen ?_ (le_refl (3 + 3))
  rintro _ _ spaces₃ mapped
  have last := mapped.fresh spaces₂.tidy still.held fresh1 different
  exact (spaces₃.mapFresh isRoot (by decide) last false true).mono (le_refl _)
    fun _ _ _ _ => trivial

def fixedCost : Nat := 4 * 1024 + 8 + 4

lemma buildSpace_spaces (isRoot : owners root) (lower : ∀ page ∈ image.pages, lowerHalf page)
    (spaces : Spaces aliased regions usable owners held memory) :
    Costs (Spaces aliased regions usable owners held) Memory.room (¬ image.WellFormed)
      (4 * image.pages.length + fixedCost) memory (buildSpace image root memory)
      fun _ _ => True := by
  refine (Elf.load_spaces isRoot lower spaces).andThen ?_ (le_refl _)
  intro memory₁ _ spaces₁ _
  have stackLoop : Costs (Spaces aliased regions usable owners held) Memory.room (¬ image.WellFormed)
      ((range (userStackSize / 4096)).map fun _ => 4).sum memory₁
      (Outcome.forEach (mapStackPage root) (range (userStackSize / 4096)) memory₁ ())
      fun _ _ => True := by
    refine Costs.forEach (fun _ => 4) ?_ spaces₁ trivial
    intro i member memory _ spaces _
    have bound : i < 1024 := mem_range.mp member
    refine spaces.mapNew isRoot ?_ "OOM: stack" true false
    simp only [lowerHalf, userStackTop, userStackSize]
    omega
  rw [map_const', sum_replicate_nat, length_range] at stackLoop
  refine stackLoop.andThen ?_ (show userStackSize / 4096 * 4 + (8 + 4) ≤ fixedCost by decide)
  intro memory₂ _ spaces₂ _
  refine (mapTrampolinePages_spaces isRoot spaces₂).andThen ?_ (le_refl _)
  intro memory₃ _ spaces₃ _
  exact spaces₃.mapNew isRoot (by decide) "OOM: sysdata page" true false

def spawnCost (image : Elf.Image) : Nat := stackFrames + (1 + (4 * image.pages.length + fixedCost))

lemma setUp_ends (lower : ∀ page ∈ image.pages, lowerHalf page)
    (spaces : Spaces aliased regions usable owners held memory) (hhdm cr3 : Nat) :
    Ends (setUp hhdm cr3 image memory) fun after result =>
      match result with
      | .ok (base, root) => memory.room ≤ after.room + spawnCost image ∧ ¬ owners root ∧
          NewStack aliased regions usable
            (fun other => owners other ∨ other = root) held hhdm base after
      | .error _ => Spaces aliased regions usable owners held after ∧
          (¬ image.WellFormed ∨ memory.room < spawnCost image ∨
            ∀ start, ¬ FreeRun memory.frames.bitmap start stackFrames) := by
  refine (allocSyscallStack_ends spaces hhdm).andThen ?_ fun _ _ failed =>
    ⟨failed.1, .inr (.inr failed.2)⟩
  rintro _ _ ⟨_, start, isBase, new, spaces₁⟩
  refine (allocUserPml4_ends spaces₁ cr3).andThen ?_ ?_
  · rintro memory₂ _ ⟨_, notRoot, spaces₂⟩
    have built := buildSpace_spaces (.inr rfl) lower spaces₂
    refine Ends.andThen built ?_ ?_
    · rintro memory₃ _ ⟨spaces₃, _, _⟩
      refine ends_ok ⟨?_, notRoot, start, isBase, new, spaces₃⟩
      simp only [spawnCost]
      omega
    rintro memory₃ error ⟨spaces₃, short⟩
    refine ⟨spaces₃.mono (fun _ isRoot => .inl isRoot) fun _ isKept => .inl isKept, ?_⟩
    rcases short with short | malformed
    · refine .inr (.inl ?_)
      simp only [spawnCost]
      omega
    · exact .inl malformed
  rintro memory₂ error ⟨spaces₂, _⟩
  refine ⟨spaces₂.mono (fun _ isRoot => isRoot) fun _ isKept => .inl isKept, .inr (.inl ?_)⟩
  simp only [spawnCost]
  omega

end Build

lemma Ledger.write (ledger : Ledger aliased hhdm table)
    (named : process.pid = pid) (own : process.OwnsSpace → ¬ roots table process.pml4Phys)
    (stack : ∀ phys, OnStack hhdm process.syscallStackBase phys → ¬ kept hhdm table phys)
    (based : process.syscallStackBase ≠ 0 → hhdm ≤ process.syscallStackBase ∧ process.live)
    (modest : process.isThread → Modest aliased process) :
    Ledger aliased hhdm (table.write pid process) := by
  constructor
  · intro idx idx' owns owns' same
    rw [Table.write_apply] at owns owns' same
    rw [Table.write_apply] at same
    split at owns <;> split at owns'
    · rename_i here here'
      rw [here, here']
    · rename_i here elsewhere
      rw [if_pos here, if_neg elsewhere] at same
      exact absurd ⟨idx', owns', same.symm⟩ (own owns)
    · rename_i elsewhere here
      rw [if_neg elsewhere, if_pos here] at same
      exact absurd ⟨idx, owns, same⟩ (own owns')
    rename_i elsewhere elsewhere'
    rw [if_neg elsewhere, if_neg elsewhere'] at same
    exact ledger.apart idx idx' owns owns' same
  · intro idx idx' phys onStack onStack'
    rw [Table.write_apply] at onStack onStack'
    split at onStack <;> split at onStack'
    · rename_i here here'
      rw [here, here']
    · exact absurd ⟨idx', onStack'⟩ (stack phys onStack)
    · exact absurd ⟨idx, onStack⟩ (stack phys onStack')
    · exact ledger.stacksApart idx idx' phys onStack onStack'
  · intro idx
    rw [Table.write_apply]
    split
    · exact based
    · exact ledger.based idx
  · intro idx
    rw [Table.write_apply]
    split
    · rename_i here
      intro _
      rw [named, here]
    · exact ledger.indexed idx
  intro idx
  rw [Table.write_apply]
  split
  · exact modest
  · exact ledger.modest idx

lemma roots_write {root : Nat} (isRoot : roots (table.write pid process) root) :
    roots table root ∨ process.OwnsSpace ∧ root = process.pml4Phys := by
  obtain ⟨idx, owns, rfl⟩ := isRoot
  rw [Table.write_apply] at owns ⊢
  split at owns
  · rename_i here
    rw [if_pos here]
    exact .inr ⟨owns, rfl⟩
  rename_i elsewhere
  rw [if_neg elsewhere]
  exact .inl ⟨idx, owns, rfl⟩

lemma kept_write (isKept : kept hhdm (table.write pid process) phys) :
    kept hhdm table phys ∨ OnStack hhdm process.syscallStackBase phys := by
  obtain ⟨idx, onStack⟩ := isKept
  rw [Table.write_apply] at onStack
  split at onStack
  · exact .inr onStack
  · exact .inl ⟨idx, onStack⟩

lemma Accounted.publish (kernel : Kernel) (ledger : Ledger aliased kernel.hhdm kernel.table)
    (window : ¬ aliased → ∃ bound, Dl.Windowed bound kernel.libs) {owners : Nat → Prop}
    (stack : NewStack aliased regions usable owners (kept kernel.hhdm kernel.table) kernel.hhdm
      process.syscallStackBase kernel.memory)
    (named : process.pid = pid) (isLive : process.live)
    (old : ∀ root, roots kernel.table root → owners root)
    (own : process.OwnsSpace → owners process.pml4Phys ∧ ¬ roots kernel.table process.pml4Phys)
    (modest : process.isThread → Modest aliased process) :
    Accounted aliased regions usable { kernel with table := kernel.table.write pid process } := by
  obtain ⟨start, isBase, new, spaces⟩ := stack
  have inRun : ∀ phys, OnStack kernel.hhdm process.syscallStackBase phys → InRun start phys :=
    fun phys => inRun_of_onStack isBase
  refine ⟨spaces.mono ?_ ?_, ledger.write named (fun owns => (own owns).2)
    (fun phys onStack => new phys (inRun phys onStack))
    (fun _ => ⟨by rw [isBase]; exact Nat.le_add_left _ _, isLive⟩) modest, window⟩
  · intro root isRoot
    rcases roots_write isRoot with before | ⟨owns, rfl⟩
    · exact old root before
    · exact (own owns).1
  · intro phys isKept
    exact (kept_write isKept).imp_right (inRun phys)

lemma Accounted.spawn (accounted : Accounted aliased regions usable kernel)
    (lower : ∀ page ∈ image.pages, lowerHalf page) (cr3 : Nat) (bootstrap : SpawnBootstrap) :
    Ends (kernel.spawn cr3 image bootstrap) fun next result =>
      Accounted aliased regions usable next ∧ next.nextPid = (kernel.table.allocPid kernel.nextPid).1 ∧
      match result with
      | .ok pid => (kernel.table.allocPid kernel.nextPid).2 = some pid ∧
          kernel.memory.room ≤ next.memory.room + spawnCost image ∧
          ∃ root base, next.table =
            kernel.table.write pid ((kernel.table.slotOf pid).spawned pid root base bootstrap)
      | .error _ => next.table = kernel.table ∧ ((kernel.table.allocPid kernel.nextPid).2 = none ∨
          ¬ image.WellFormed ∨ kernel.memory.room < spawnCost image ∨
          ∀ start, ¬ FreeRun kernel.memory.frames.bitmap start stackFrames) := by
  obtain ⟨spaces, ledger, window⟩ := accounted
  simp only [Kernel.spawn]
  generalize kernel.table.allocPid kernel.nextPid = allocated
  obtain ⟨nextPid, _ | _⟩ := allocated
  · exact ends_fail ⟨⟨spaces, ledger, window⟩, rfl, rfl, .inl rfl⟩
  refine (setUp_ends lower spaces kernel.hhdm cr3).focus ?_ ?_
  · rintro memory ⟨base, root⟩ ⟨spent, notRoot, stack⟩
    refine ends_ok ⟨?_, rfl, rfl, spent, root, base, rfl⟩
    refine Accounted.publish { kernel with nextPid, memory } ledger window stack rfl rfl
      (fun _ isRoot => .inl isRoot) (fun _ => ⟨.inr rfl, notRoot⟩) ?_
    intro isThread
    cases isThread
  · rintro memory _ ⟨spaces, cause⟩
    exact ⟨⟨spaces, ledger, window⟩, rfl, rfl, .inr cause⟩

section Thread

variable {owners held : Nat → Prop} {root base bound pages : Nat}

lemma NewStack.freed (stack : NewStack aliased regions usable owners held hhdm base memory) :
    Spaces aliased regions usable owners held (freeSyscallStack hhdm base memory) := by
  obtain ⟨_, isBase, new, spaces⟩ := stack
  refine (freeSyscallStack_spaces spaces (fun phys onStack => ?_) fun phys isHeld => ⟨?_, ?_⟩).1
  · exact .inr (inRun_of_onStack isBase onStack)
  · exact .inl isHeld
  · exact fun onStack => new phys (inRun_of_onStack isBase onStack) isHeld

lemma NewStack.root_ne_zero (stack : NewStack aliased regions usable owners held hhdm base memory)
    (isRoot : owners root) : root ≠ 0 := by
  obtain ⟨_, _, _, spaces⟩ := stack
  have isWalkable := spaces.tidy.held_walkable
    (spaces.tidy.tables root ⟨root, [], isRoot, trivial, rfl⟩)
  exact (of_decide_eq_true isWalkable).1

lemma touch_meets (kernel : Kernel) {virt : Nat} (isRoot : owners root)
    (unmirrored : ¬ aliased → 0x300000000 ≤ virt)
    (stack : NewStack aliased regions usable owners held kernel.hhdm base kernel.memory) :
    Meets (kernel.touch root virt) fun after result => result = .ok () ∧
      ∃ memory, after = { kernel with memory } ∧
        NewStack aliased regions usable owners held kernel.hhdm base memory := by
  obtain ⟨start, isBase, new, spaces⟩ := stack
  obtain ⟨memory, found, done, after⟩ := spaces.demandPage isRoot false unmirrored
  simp only [Kernel.touch, done]
  cases found with
  | false =>
    intro _ _ impossible
    cases impossible
  | true => exact (ends_ok ⟨rfl, memory, rfl, start, isBase, new, after⟩).meets

lemma mmapThread_meets (kernel : Kernel) {oom : String} (isRoot : owners root)
    (windowed : ¬ aliased → Dl.Windowed bound kernel.libs) (wide : Dl.windowEnd ≤ bound)
    (far : bound + 2 ^ 50 ≤ 2 ^ 64)
    (stack : NewStack aliased regions usable owners held kernel.hhdm base kernel.memory) :
    Meets (kernel.mmapThread root base pages oom) fun after result =>
      match result with
      | .ok va => ∃ libs, after = { kernel with libs } ∧ 0 < pages ∧ pages ≤ 65536 ∧
          (¬ aliased → Dl.Windowed (bound + 2 ^ 48) libs ∧ Dl.anonVaBase ≤ va ∧ va ≤ bound + 2 ^ 48)
      | .error _ => ∃ memory, after = { kernel with memory } ∧
          Spaces aliased regions usable owners held memory := by
  simp only [Kernel.mmapThread]
  rcases Dl.mmapAnon_pages kernel.libs
    (fun va => (kernel.memory.translateUserPage root va).isSome) root pages with
    failed | ⟨libs, va, done, nonempty, few⟩
  · rw [failed]
    exact (ends_fail ⟨_, rfl, stack.freed⟩).meets
  rw [done]
  exact (ends_ok ⟨libs, rfl, nonempty, few, fun strict =>
    (windowed strict).mmapAnon (stack.root_ne_zero isRoot) wide far done⟩).meets

def Prepares (aliased : Prop) (regions : List MemRegion) (usable : Finset Nat)
    (owners held : Nat → Prop) (before : Kernel) (base stackSize : Nat) (after : Kernel) :
    Except String (Nat × Nat) → Prop := fun result =>
  after.table = before.table ∧ after.hhdm = before.hhdm ∧
    (¬ aliased → ∃ bound, Dl.Windowed bound after.libs) ∧
    match result with
    | .ok (stackVa, tlsVa) => NewStack aliased regions usable owners held after.hhdm base after.memory ∧
        stackSize ≤ 2 ^ 28 ∧ (¬ aliased → stackVa ≠ 0 → Dl.anonVaBase ≤ stackVa) ∧
        (¬ aliased → tlsVa ≠ 0 → Dl.anonVaBase ≤ tlsVa)
    | .error _ => Spaces aliased regions usable owners held after.memory

lemma threadMemory_meets (isRoot : owners root) (isUsize : stackSize < 2 ^ 64)
    (windowed : ¬ aliased → Dl.Windowed (2 ^ 62) kernel.libs)
    (stack : NewStack aliased regions usable owners held kernel.hhdm base kernel.memory) :
    Meets (kernel.threadMemory root base stackSize)
      (Prepares aliased regions usable owners held kernel base stackSize) := by
  have low : Dl.anonVaBase = 0x310000000 := rfl
  refine Meets.andThen (mmapThread_meets _ isRoot windowed (by decide) (by decide) stack) ?_ ?_
  · rintro _ stackVa ⟨libs₁, rfl, nonempty, few, strict₁⟩
    simp only [u64] at nonempty few
    have small : stackSize ≤ 2 ^ 28 := by omega
    have windowed₁ : ¬ aliased → Dl.Windowed (2 ^ 62 + 2 ^ 48) libs₁ :=
      fun strict => (strict₁ strict).1
    have near : ∀ less, 0 < less → less ≤ 8 → ¬ aliased →
        0x300000000 ≤ u64 (u64 (stackVa + stackSize) + 2 ^ 64 - less) := by
      intro less _ _ strict
      obtain ⟨_, above, _⟩ := strict₁ strict
      have top : u64 (stackVa + stackSize) = stackVa + stackSize := mod_eq_of_lt (by omega)
      simp only [u64]
      omega
    have first := near 8 (by decide) (by decide)
    have last := near 1 (by decide) (by decide)
    dsimp only
    refine Meets.andThen (touch_meets _ isRoot first stack) ?_ ?_
    · rintro _ _ ⟨_, _, rfl, stack₂⟩
      refine Meets.andThen (touch_meets _ isRoot last stack₂) ?_ ?_
      · rintro _ _ ⟨_, _, rfl, stack₃⟩
        refine Meets.andThen (mmapThread_meets _ isRoot windowed₁ (by decide) (by decide) stack₃)
          ?_ ?_
        · rintro _ tlsVa ⟨_, rfl, _, _, strict₄⟩
          have above : ¬ aliased → 0x300000000 ≤ tlsVa := by
            intro strict
            have := (strict₄ strict).2.1
            omega
          refine Meets.andThen (touch_meets _ isRoot above stack₃) ?_ ?_
          · rintro _ _ ⟨_, _, rfl, stack₅⟩
            exact (ends_ok ⟨rfl, rfl, fun strict => ⟨_, (strict₄ strict).1⟩, stack₅, small,
              fun strict _ => (strict₁ strict).2.1, fun strict _ => (strict₄ strict).2.1⟩).meets
          · rintro _ _ ⟨impossible, _⟩
            cases impossible
        · rintro _ _ ⟨_, rfl, spaces⟩
          exact ⟨rfl, rfl, fun strict => ⟨_, windowed₁ strict⟩, spaces⟩
      · rintro _ _ ⟨impossible, _⟩
        cases impossible
    · rintro _ _ ⟨impossible, _⟩
      cases impossible
  · rintro _ _ ⟨_, rfl, spaces⟩
    exact ⟨rfl, rfl, fun strict => ⟨_, windowed strict⟩, spaces⟩

end Thread

def ThreadAdded (before : Kernel) (parent : Nat) (after : Table) : Prop :=
  after = before.table ∨ ∃ tid process, after = before.table.write tid process ∧
    before.table.holds parent = true ∧ (before.table.allocPid before.nextPid).2 = some tid ∧
    process.pml4Phys = (before.table.slotOf parent).pml4Phys

def RoomyCursors (libs : Dl.LibTable) : Prop := ∀ slot ∈ libs.asSlots, slot.nextAnonVa ≤ 2 ^ 62

section

variable (accounted : Accounted aliased regions usable kernel)
include accounted

lemma Accounted.createThread
    {parent : Nat} {prepare : Kernel → Nat → Nat → Outcome Kernel String (Nat × Nat)}
    (prepares : ∀ nextPid memory base,
      NewStack aliased regions usable (roots kernel.table)
        (kept kernel.hhdm kernel.table) kernel.hhdm base
        memory →
      Meets (prepare { kernel with nextPid, memory } (kernel.table.slotOf parent).pml4Phys base)
        (Prepares aliased regions usable (roots kernel.table) (kept kernel.hhdm kernel.table) kernel base
          stackSize)) :
    Meets (kernel.createThread parent stackSize prepare) fun next _ =>
      Accounted aliased regions usable next ∧ ThreadAdded kernel parent next.table := by
  obtain ⟨spaces, ledger, window⟩ := accounted
  simp only [Kernel.createThread]
  split
  · rename_i holds
    rcases allocated : kernel.table.allocPid kernel.nextPid with ⟨nextPid, _ | tid⟩
    · exact (ends_fail ⟨⟨spaces, ledger, window⟩, .inl rfl⟩).meets
    refine Meets.focus (allocSyscallStack_ends spaces kernel.hhdm) ?_ ?_
    · rintro memory base ⟨_, stack⟩
      refine Meets.andThen (prepares nextPid memory base stack) ?_ ?_
      · rintro ⟨table, nextPid, memory, libs, hhdm⟩ ⟨_, _⟩
          ⟨rfl, rfl, window, stack, size, stackAbove, tlsAbove⟩
        refine Ends.meets (ends_ok ⟨?_, .inr ⟨tid, _, rfl, holds, by rw [allocated], rfl⟩⟩)
        refine Accounted.publish { kernel with nextPid, memory, libs } ledger window stack rfl rfl
          (fun _ isRoot => isRoot) ?_ fun _ => ⟨size, stackAbove, tlsAbove⟩
        rintro ⟨_, notThread⟩
        cases notThread
      · rintro ⟨table, nextPid, memory, libs, hhdm⟩ error ⟨rfl, rfl, window, spaces⟩
        exact ⟨⟨spaces, ledger, window⟩, .inl rfl⟩
    · rintro memory error ⟨spaces, _⟩
      exact ⟨⟨spaces, ledger, window⟩, .inl rfl⟩
  · exact (ends_fail ⟨⟨spaces, ledger, window⟩, .inl rfl⟩).meets

lemma Accounted.spawnThread {parent : Nat} (isUsize : stackSize < 2 ^ 64)
    (owned : kernel.table.holds parent →
      roots kernel.table (kernel.table.slotOf parent).pml4Phys ∧
        (¬ aliased → RoomyCursors kernel.libs)) :
    Meets (kernel.spawnThread parent stackSize) fun next _ =>
      Accounted aliased regions usable next ∧ ThreadAdded kernel parent next.table := by
  by_cases holds : kernel.table.holds parent
  · obtain ⟨isRoot, roomy⟩ := owned holds
    refine accounted.createThread fun nextPid memory base stack => ?_
    refine threadMemory_meets isRoot isUsize (fun strict => ?_) stack
    obtain ⟨_, windowed⟩ := accounted.window strict
    exact windowed.raise fun slot member _ => roomy strict slot member
  intro state result done
  simp only [Kernel.spawnThread, Kernel.createThread, holds, Bool.false_eq_true, if_false] at done
  obtain ⟨rfl, _⟩ := Prod.mk.inj (some.inj done)
  exact ⟨accounted, .inl rfl⟩

lemma Accounted.cloneThread (parent : Nat) :
    Meets (kernel.cloneThread parent) fun next _ =>
      Accounted aliased regions usable next ∧ ThreadAdded kernel parent next.table := by
  refine accounted.createThread fun nextPid memory base stack => ?_
  exact (ends_ok ⟨rfl, rfl, accounted.window, stack, by decide,
    fun _ nonzero => absurd rfl nonzero, fun _ nonzero => absurd rfl nonzero⟩).meets

end

def Careful (kernel : Kernel) : Call → Prop
  | .spawn _ image _ => ∀ page ∈ image.pages, lowerHalf page
  | .spawnThread parent _ => kernel.table.holds parent = true →
      roots kernel.table (kernel.table.slotOf parent).pml4Phys ∧ RoomyCursors kernel.libs
  | .exit pid _ | .kill pid => SafeExit kernel.table pid
  | .killGroup leader => SafeVictims kernel.table (victims kernel.table leader)
  | _ => True

def Call.Quiet : Call → Prop
  | .waitpid _ | .reapZombie _ | .reapOneZombie _ | .reapZombieChildren _ | .setState _ _ => True
  | _ => False

lemma step_quiet (quiet : call.Quiet) (taken : kernel.step call = some next) :
    ∃ after, next = { kernel with table := after } ∧
      (kernel.table.Reaps after ∨ ∃ pid state, (kernel.table.slotOf pid).live ∧
        (state = .running ∨ state = .blocked) ∧ after = kernel.table.setState pid state) := by
  cases call with
  | waitpid pid | reapZombie pid | reapOneZombie parent | reapZombieChildren parent =>
    exact ⟨_, (some.inj taken).symm, .inl (by simp)⟩
  | setState pid state =>
    simp only [Kernel.step] at taken
    split at taken
    · rename_i isLive
      exact ⟨_, (some.inj taken).symm, .inr ⟨pid, state, isLive.1, isLive.2, rfl⟩⟩
    · cases taken
  | _ => exact quiet.elim

lemma Accounted.quiet (accounted : Accounted aliased regions usable kernel) (quiet : call.Quiet)
    (taken : kernel.step call = some next) :
    Accounted aliased regions usable next := by
  obtain ⟨_, rfl, reaps | ⟨_, _, wasLive, isLive, rfl⟩⟩ := step_quiet quiet taken
  · exact accounted.lessen (accounted.ledger.reaps_lessens reaps)
  · exact accounted.lessen (accounted.ledger.setState_lessens wasLive isLive)

lemma Accounted.killGroup (accounted : Accounted False regions usable kernel) {leader : Nat}
    (safe : SafeVictims kernel.table (victims kernel.table leader)) :
    ∃ next, kernel.step (.killGroup leader) = some next ∧ Accounted False regions usable next := by
  rw [Kernel.step, groupMembers_eq]
  refine exitAll_run (fun kernel => SafeVictims kernel.table) (fun _ accounted => accounted.ledger)
    ?_ (victims_sorted _ leader) (fun idx member => victims_live member) accounted safe
  intro kernel idx rest accounted live above safe
  have isLive := live idx mem_cons_self
  obtain ⟨here, same, _⟩ := accounted.ledger.slotOf_pid isLive
  obtain ⟨_, _, done, after, _⟩ := accounted.exit (safe.first same isLive) False.elim (-9)
  exact ⟨_, done, after, rfl, safe.rest above here⟩

lemma step_accounted
    (accounted : Accounted False regions usable kernel) (taken : kernel.step call = some next)
    (careful : Careful kernel call) : Accounted False regions usable next := by
  have exits : ∀ {pid code next}, SafeExit kernel.table pid → kernel.exit pid code = some next →
      Accounted False regions usable next := by
    intro pid code next safe done
    obtain ⟨_, _, ran, after, _⟩ := accounted.exit safe False.elim code
    obtain rfl := some.inj (ran.symm.trans done)
    exact after
  cases call with
  | spawn cr3 image bootstrap =>
    have ends := accounted.spawn careful cr3 bootstrap
    exact ends.meets.final (fun _ _ holds => holds.1) taken
  | spawnThread parent stackSize =>
    have meets := accounted.spawnThread (Nat.mod_lt stackSize (by decide)) fun holds =>
      ⟨(careful holds).1, fun _ => (careful holds).2⟩
    exact meets.final (fun _ _ holds => holds.1) taken
  | cloneThread parent =>
    exact (accounted.cloneThread parent).final (fun _ _ holds => holds.1) taken
  | exit pid code => exact exits careful taken
  | kill pid =>
    simp only [Kernel.step] at taken
    split at taken
    · exact exits careful taken
    · exact some.inj taken ▸ accounted
  | killGroup leader =>
    obtain ⟨after, ran, isAccounted⟩ := accounted.killGroup careful
    obtain rfl := some.inj (ran.symm.trans taken)
    exact isAccounted
  | _ => exact accounted.quiet (by trivial) taken

end Lifecycle

end OsCortex
