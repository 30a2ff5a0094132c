import OsCortex.Process.LaunchCore
import OsCortex.Process.TableChecks

/-! When a process creation can exceed its caller's capabilities. -/

namespace OsCortex.Launch

open Creation Table Kernel Process Capabilities

/-- Threads take their capabilities from the slot their group leader's pid hashes to, so that slot
must still be the leader's or be free. -/
def Covers (kernel : Kernel) (caller : Nat) : Syscall → Prop
  | .exec | .execWait | .appLaunch _ =>
    check (kernel.table.slotOf caller).caps Capabilities.net = true
  | .appLaunchPath flags =>
    check (kernel.table.slotOf caller).caps
      (if flags &&& 0xFF = 0 ∨ flags &&& 0xFF = 1 then allCaps else Capabilities.net) = true
  | .fork => True
  | .clone _ _ _ | .threadCreate _ | .isolateSpawn _ _ _ _ =>
    let leader := kernel.table.getGroupLeader caller
    (kernel.table.slotOf leader).pid = leader ∨ (kernel.table.slotOf leader).state = .dead

/-- The pid about to be handed out is not the leader pid of threads still in the table.
Before the pid counter wraps it never is. -/
def PidUnclaimed (kernel : Kernel) : Prop :=
  ∀ pid, (kernel.table.allocPid kernel.nextPid).2 = some pid →
    ∀ idx, (kernel.table idx).isThread = true → (kernel.table idx).parentPid ≠ pid

def Entitled (kernel : Kernel) : Action → Prop
  | .call caller syscall _ => Covers kernel caller syscall ∧ PidUnclaimed kernel
  | _ => True

structure Owned (table : Table) : Prop where
  deadEmpty : ∀ idx, (table idx).state = .dead → table idx = Process.empty
  ownerNamed : ∀ idx, (table idx).isThread = true → (table idx).parentPid ≠ 0
  ownerCaps : ∀ idx, (table idx).isThread = true →
    (table.slotOf (table idx).parentPid).pid = (table idx).parentPid →
    (table.slotOf (table idx).parentPid).isThread = false ∧
      (table.slotOf (table idx).parentPid).caps = (table idx).caps

structure Keeps (before after : Process) : Prop where
  pid : after.pid = before.pid
  isThread : after.isThread = before.isThread
  caps : after.caps = before.caps
  owner : before.isThread = true → after.parentPid = before.parentPid

lemma Keeps.refl (process : Process) : Keeps process process := ⟨rfl, rfl, rfl, fun _ => rfl⟩

lemma Owned.keeps {before after : Table} (owned : Owned before)
    (keeps : ∀ idx, Keeps (before idx) (after idx) ∨ after idx = Process.empty)
    (deadEmpty : ∀ idx, (after idx).state = .dead → after idx = Process.empty) : Owned after := by
  have threadBefore : ∀ idx, (after idx).isThread →
      (before idx).isThread ∧ Keeps (before idx) (after idx) := by
    intro idx thread
    rcases keeps idx with kept | emptied
    · exact ⟨kept.isThread ▸ thread, kept⟩
    · rw [emptied] at thread
      cases thread
  constructor
  case deadEmpty => exact deadEmpty
  case ownerNamed =>
    intro idx thread
    obtain ⟨wasThread, kept⟩ := threadBefore idx thread
    rw [kept.owner wasThread]
    exact owned.ownerNamed idx wasThread
  case ownerCaps =>
    intro idx thread held
    obtain ⟨wasThread, kept⟩ := threadBefore idx thread
    rw [kept.owner wasThread] at held ⊢
    rw [kept.caps]
    rcases keeps (idxOf (before idx).parentPid) with ownerKept | emptied
    · have heldBefore : (before.slotOf (before idx).parentPid).pid = (before idx).parentPid :=
        ownerKept.pid.symm.trans held
      obtain ⟨notThread, sameCaps⟩ := owned.ownerCaps idx wasThread heldBefore
      exact ⟨ownerKept.isThread.trans notThread, ownerKept.caps.trans sameCaps⟩
    have impossible : (0 : Nat) = (before idx).parentPid := by
      rw [← held, slotOf, emptied]
      rfl
    exact absurd impossible.symm (owned.ownerNamed idx wasThread)

lemma Owned.reaps {before after : Table} (owned : Owned before) (reaps : before.Reaps after) :
    Owned after := by
  refine owned.keeps ?_ ?_
  · intro idx
    rcases reaps idx with same | ⟨_, emptied⟩
    · exact .inl (same ▸ Keeps.refl _)
    · exact .inr emptied
  intro idx dead
  rcases reaps idx with same | ⟨_, emptied⟩
  · rw [same] at dead ⊢
    exact owned.deadEmpty idx dead
  · exact emptied

variable {table : Table}

variable {caller : Nat}

lemma check_refl (caps : Capabilities) : check caps caps := by
  simp [check]

lemma check_noCaps (caps : Capabilities) : check caps noCaps := by
  simp [check, noCaps]

section

variable (owned : Owned table)
include owned

lemma Owned.markExited (pid : Nat) (code : Int) :
    Owned (table.markExited pid code) := by
  refine owned.keeps ?_ ?_
  · intro idx
    rw [markExited_apply]
    split
    · exact .inl ⟨rfl, rfl, rfl, fun _ => rfl⟩
    · exact .inl (Keeps.refl _)
  intro idx
  rw [markExited_apply]
  split
  · intro dead
    cases dead
  · exact owned.deadEmpty idx

lemma Owned.setState (pid : Nat) {state : ProcState}
    (alive : state ≠ .dead) : Owned (table.setState pid state) := by
  refine owned.keeps ?_ ?_
  · intro idx
    rw [setState_apply]
    split
    · exact .inl ⟨rfl, rfl, rfl, fun _ => rfl⟩
    · exact .inl (Keeps.refl _)
  intro idx
  rw [setState_apply]
  split
  · exact fun dead => absurd dead alive
  · exact owned.deadEmpty idx

lemma Owned.setChildParent {child : Nat}
    (notThread : (table.slotOf child).isThread = false) (parent : Nat)
    (occupied : (table.slotOf child).state ≠ .dead) : Owned (table.setChildParent child parent) := by
  refine owned.keeps ?_ ?_
  · intro idx
    rw [setChildParent_apply]
    split
    · rename_i here
      obtain ⟨rfl, _⟩ := here
      refine .inl ⟨rfl, rfl, rfl, fun thread => ?_⟩
      rw [slotOf, thread] at notThread
      cases notThread
    · exact .inl (Keeps.refl _)
  intro idx
  rw [setChildParent_apply]
  split
  · rename_i here
    obtain ⟨rfl, _⟩ := here
    exact fun dead => absurd dead occupied
  · exact owned.deadEmpty idx

lemma Owned.publish {pid : Nat} {process : Process}
    (named : process.pid = pid) (running : process.state ≠ .dead)
    (unclaimed : ∀ idx, (table idx).isThread → (table idx).parentPid ≠ pid)
    (ownerNamed : process.isThread → process.parentPid ≠ 0)
    (ownerCaps : process.isThread → (table.slotOf process.parentPid).pid = process.parentPid →
      (table.slotOf process.parentPid).isThread = false ∧
        (table.slotOf process.parentPid).caps = process.caps)
    (ownerOther : process.isThread → process.parentPid ≠ pid) :
    Owned (table.write pid process) := by
  have slotAfter : ∀ owner, owner ≠ pid → ((table.write pid process).slotOf owner).pid = owner →
      (table.write pid process).slotOf owner = table.slotOf owner := by
    intro owner different held
    simp only [slotOf, write_apply] at held ⊢
    split
    · rename_i sameSlot
      rw [if_pos sameSlot, named] at held
      exact absurd held.symm different
    · rfl
  constructor
  case deadEmpty =>
    intro idx
    rw [write_apply]
    split
    · exact fun dead => absurd dead running
    · exact owned.deadEmpty idx
  case ownerNamed =>
    intro idx
    rw [write_apply]
    split
    · exact ownerNamed
    · exact owned.ownerNamed idx
  case ownerCaps =>
    intro idx
    rw [write_apply]
    split
    · intro thread held
      have same := slotAfter _ (ownerOther thread) held
      rw [same] at held ⊢
      exact ownerCaps thread held
    intro thread held
    have same := slotAfter _ (unclaimed idx thread) held
    rw [same] at held ⊢
    exact owned.ownerCaps idx thread held

lemma Owned.slotOwner (thread : (table.slotOf caller).isThread)
    (held : (table.slotOf (table.slotOf caller).parentPid).pid = (table.slotOf caller).parentPid) :
    (table.slotOf (table.slotOf caller).parentPid).isThread = false ∧
      (table.slotOf (table.slotOf caller).parentPid).caps = (table.slotOf caller).caps :=
  owned.ownerCaps _ thread held

lemma Owned.getGroupLeader (holds : table.holds caller) :
    table.getGroupLeader caller =
      if (table.slotOf caller).isThread = true then (table.slotOf caller).parentPid
      else caller := by
  obtain ⟨held, _⟩ := holds_iff.mp holds
  rw [Table.getGroupLeader, maxProcs, Table.groupLeaderFrom]
  by_cases thread : (table.slotOf caller).isThread
  · have named := owned.ownerNamed _ thread
    have ownerEnds : ¬ ((table.slotOf (table.slotOf caller).parentPid).pid =
        (table.slotOf caller).parentPid ∧
        (table.slotOf (table.slotOf caller).parentPid).isThread ∧
        (table.slotOf (table.slotOf caller).parentPid).parentPid ≠ 0) := by
      rintro ⟨ownerHeld, ownerThread, _⟩
      rw [(owned.slotOwner thread ownerHeld).1] at ownerThread
      cases ownerThread
    rw [if_pos ⟨held, thread, named⟩, if_pos thread, Table.groupLeaderFrom, if_neg ownerEnds]
  · rw [if_neg fun all => thread all.2.1, if_neg thread]

lemma Owned.inherits (user : caller ≠ 0) (holds : table.holds caller)
    (current : (table.slotOf (table.getGroupLeader caller)).pid = table.getGroupLeader caller ∨
      (table.slotOf (table.getGroupLeader caller)).state = .dead) :
    table.getGroupLeader caller ≠ 0 ∧
      ((table.slotOf (table.getGroupLeader caller)).pid = table.getGroupLeader caller →
        (table.slotOf (table.getGroupLeader caller)).isThread = false) ∧
      check (table.slotOf caller).caps (table.slotOf (table.getGroupLeader caller)).caps := by
  have leader := owned.getGroupLeader holds
  by_cases thread : (table.slotOf caller).isThread
  · rw [if_pos thread] at leader
    rw [leader] at current ⊢
    refine ⟨owned.ownerNamed _ thread, fun held => (owned.slotOwner thread held).1, ?_⟩
    rcases current with held | dead
    · rw [(owned.slotOwner thread held).2]
      exact check_refl _
    have emptied := owned.deadEmpty _ dead
    simp only [slotOf] at emptied ⊢
    rw [emptied]
    exact check_noCaps _
  rw [if_neg thread] at leader
  rw [leader]
  exact ⟨user, fun _ => by simpa using thread, check_refl _⟩

end

structure Proper (table : Table) (caller : Nat) (process : Process) : Prop where
  within : check (table.slotOf caller).caps process.caps = true
  running : process.state = .running
  owner : process.isThread = true → process.parentPid = table.getGroupLeader caller
  ownerNamed : process.isThread = true → process.parentPid ≠ 0
  ownerCaps : process.isThread = true →
    (table.slotOf process.parentPid).pid = process.parentPid →
    (table.slotOf process.parentPid).isThread = false ∧
      (table.slotOf process.parentPid).caps = process.caps

lemma spawn_proper {pid : Nat} {bootstrap : SpawnBootstrap}
    (inherited : Inherited) (resources : Resources)
    (within : check (table.slotOf caller).caps (bootstrapCaps bootstrap)) :
    Proper table caller (published table (.spawn bootstrap) inherited pid resources) where
  within := within
  running := rfl
  owner := by simp [published, spawned]
  ownerNamed := by simp [published, spawned]
  ownerCaps := by simp [published, spawned]

lemma fork_proper (table : Table) (caller pid : Nat) (inherited : Inherited)
    (resources : Resources) :
    Proper table caller (published table (.fork caller) inherited pid resources) where
  within := check_refl _
  running := rfl
  owner := by
    intro thread
    cases thread
  ownerNamed := by
    intro thread
    cases thread
  ownerCaps := by
    intro thread
    cases thread

lemma Owned.thread_proper (owned : Owned table) (user : caller ≠ 0) (holds : table.holds caller)
    (current : (table.slotOf (table.getGroupLeader caller)).pid = table.getGroupLeader caller ∨
      (table.slotOf (table.getGroupLeader caller)).state = .dead)
    (slot : Process) (tid pml4Phys stackBase fsBase stackVa stackSize : Nat) :
    Proper table caller (slot.threadOf tid pml4Phys stackBase (table.getGroupLeader caller)
      (table.slotOf (table.getGroupLeader caller)).caps fsBase stackVa stackSize) := by
  obtain ⟨named, notThread, within⟩ := owned.inherits user holds current
  exact ⟨within, rfl, fun _ => rfl, fun _ => named, fun _ held => ⟨notThread held, rfl⟩⟩

lemma pathBootstrap_caps (caller flags : Nat) :
    bootstrapCaps (pathBootstrap caller flags) =
      if flags &&& 0xFF = 0 ∨ flags &&& 0xFF = 1 then allCaps else net := by
  simp only [bootstrapCaps, pathBootstrap, hostModeShell]
  by_cases zero : flags &&& 0xFF = 0
  · simp [zero]
  · simp [zero]

variable {kernel : Kernel} {syscall : Syscall} {request : Request}

lemma Owned.call_proper (owned : Owned kernel.table)
    (user : caller ≠ 0) (holds : kernel.table.holds caller)
    (covers : Covers kernel caller syscall)
    (requested : requestOf caller syscall = some request) {inherited : Inherited}
    (inherits : inherit kernel.table request = some inherited) (pid : Nat) (resources : Resources) :
    Proper kernel.table caller (published kernel.table request inherited pid resources) := by
  have leader : ∀ parent, parent = caller →
      (if kernel.table.holds parent = true then
        some ({ pml4Phys := (kernel.table.slotOf parent).pml4Phys,
                owner := kernel.table.getGroupLeader parent } : Inherited)
      else none) = some inherited → inherited.owner = kernel.table.getGroupLeader caller := by
    rintro _ rfl found
    rw [if_pos holds] at found
    cases found
    rfl
  cases syscall with try cases requested
  | exec | execWait | appLaunch appId => exact spawn_proper inherited resources covers
  | appLaunchPath flags =>
    refine spawn_proper inherited resources ?_
    rw [pathBootstrap_caps]
    exact covers
  | fork => exact fork_proper kernel.table caller pid inherited resources
  | clone flags childRip stackTop | isolateSpawn aotVa aotSize entryOffset stackSize =>
    simp only [requestOf] at requested
    split at requested
    · cases requested
    cases requested
    simp only [published, leader caller rfl inherits]
    exact owned.thread_proper user holds covers _ _ _ _ _ _ _
  | threadCreate stackSize =>
    simp only [published, leader caller rfl inherits]
    exact owned.thread_proper user holds covers _ _ _ _ _ _ _

variable {next : Kernel}

lemma call_cases {resources : Option Resources}
    (called : kernel.call caller syscall resources = some next) :
    caller ≠ 0 ∧ kernel.table.holds caller ∧
      ((next.table = kernel.table ∧ next.grants = kernel.grants) ∨
        ∃ request inherited pid obtained nextPid, requestOf caller syscall = some request ∧
          inherit kernel.table request = some inherited ∧
          (kernel.table.allocPid kernel.nextPid).2 = some pid ∧
          next = ({ kernel with nextPid } : Kernel).create caller pid syscall
            (published kernel.table request inherited pid obtained)) := by
  simp only [call] at called
  split at called
  · cases called
  rename_i admitted
  simp only [not_or, Bool.not_eq_false] at admitted
  refine ⟨admitted.1, admitted.2, ?_⟩
  split at called
  · cases called
    exact .inl ⟨rfl, rfl⟩
  rename_i request requested
  split at called
  · cases called
    exact .inl ⟨rfl, rfl⟩
  rename_i inherited inherits
  split at called <;> cases called
  · rename_i pid obtained allocated
    exact .inr ⟨request, inherited, pid, obtained, _, requested, inherits, allocated, rfl⟩
  · exact .inl ⟨rfl, rfl⟩

structure Bounded (kernel : Kernel) : Prop where
  owned : Owned kernel.table
  granted : ∀ grant ∈ kernel.grants, check grant.holder grant.given = true

lemma published_pid (table : Table) (request : Request) (inherited : Inherited) (pid : Nat)
    (resources : Resources) : (published table request inherited pid resources).pid = pid := by
  cases request <;> rfl

lemma execWait_notThread
    (requested : requestOf caller .execWait = some request) (inherited : Inherited) (pid : Nat)
    (resources : Resources) :
    (published table request inherited pid resources).isThread = false := by
  cases requested
  rfl

lemma Bounded.call (bounded : Bounded kernel) {resources : Option Resources}
    (entitled : Entitled kernel (.call caller syscall resources))
    (called : kernel.call caller syscall resources = some next) : Bounded next := by
  obtain ⟨covers, unclaimed⟩ := entitled
  obtain ⟨user, holds, unchanged | created⟩ := call_cases called
  · exact ⟨unchanged.1 ▸ bounded.owned, unchanged.2 ▸ bounded.granted⟩
  obtain ⟨request, inherited, pid, obtained, _, requested, inherits, allocated, _⟩ :=
    created
  subst next
  have proper := bounded.owned.call_proper user holds covers requested inherits pid obtained
  have free : (kernel.table.slotOf pid).state = .dead := allocPidFrom_free allocated
  have callerOther : caller ≠ pid := by
    rintro rfl
    exact (holds_iff.mp holds).2 free
  have leaderOther : kernel.table.getGroupLeader caller ≠ pid := by
    rw [bounded.owned.getGroupLeader holds]
    split
    · rename_i thread
      exact unclaimed pid allocated _ thread
    · exact callerOther
  have publishedOwned : Owned (kernel.table.write pid
      (published kernel.table request inherited pid obtained)) := by
    refine bounded.owned.publish (published_pid ..) ?_ (unclaimed pid allocated)
      proper.ownerNamed proper.ownerCaps ?_
    · rw [proper.running]
      exact fun impossible => by cases impossible
    intro thread
    rw [proper.owner thread]
    exact leaderOther
  refine ⟨?_, ?_⟩
  · simp only [create]
    split
    · subst syscall
      have slotHere : (kernel.table.write pid
          (published kernel.table request inherited pid obtained)).slotOf pid =
          published kernel.table request inherited pid obtained := by
        simp [slotOf]
      refine (publishedOwned.setChildParent ?_ caller ?_).setState caller (by simp)
      · rw [slotHere]
        exact execWait_notThread requested inherited pid obtained
      · rw [slotHere, proper.running]
        exact fun impossible => by cases impossible
    · exact publishedOwned
  intro grant member
  rcases List.mem_cons.mp member with new | old
  · rw [new]
    exact proper.within
  · exact bounded.granted grant old

lemma Bounded.withTable (bounded : Bounded kernel)
    (owned : Owned table) : Bounded { kernel with table } := ⟨owned, bounded.granted⟩

lemma step_bounded {action : Action} (bounded : Bounded kernel)
    (entitled : Entitled kernel action) (stepped : kernel.step action = some next) :
    Bounded next := by
  cases action with
  | call caller syscall resources => exact bounded.call entitled stepped
  | exit pid code =>
    cases stepped
    exact bounded.withTable (bounded.owned.markExited pid code)
  | waitpid pid | reapZombie pid | reapOneZombie parent | reapZombieChildren parent =>
    cases stepped
    exact bounded.withTable (bounded.owned.reaps (by simp))
  | setState pid state =>
    simp only [Kernel.step] at stepped
    split at stepped
    · cases stepped
    rename_i alive
    cases stepped
    exact bounded.withTable (bounded.owned.setState pid alive)

lemma boot_bounded (resources : Resources) : Bounded (boot resources) := by
  refine ⟨⟨?_, ?_, ?_⟩, by simp [boot]⟩
  · intro idx
    simp only [boot, write_apply]
    split
    · intro dead
      cases dead
    · exact fun _ => rfl
  · intro idx
    simp only [boot, write_apply]
    split <;> (intro thread; cases thread)
  intro idx
  simp only [boot, write_apply]
  split <;> (intro thread; cases thread)

def escalation : List Action :=
  [.call 1 (.appLaunch 7) (some {}), .call 2 (.appLaunchPath 0) (some {})]

end OsCortex.Launch
