import OsCortex.Process.SchedulerCore

/-!
A CPU that is past its claim keeps the slot Running and claimed until it enters user mode, in runs
whose labels are `Orderly`.
-/

namespace OsCortex.Scheduler

open State

variable {cpuCount cpu other pid idx : Nat} {table : Table} {state next : State} {wm : Wm}
  {process : Process} {after : Table} {current : Nat} {result : Option Nat}

def Cpu.holds (cpu : Cpu) : Option Nat :=
  match cpu.pc with
  | .serving | .publishing _ _ | .claiming _ | .linking _ | .blocking _ | .picked _ | .loaded
  | .user => some cpu.currentPid
  | .chosen pid => some pid
  | .assist .enter target _ => some target
  | _ => none

def InUser (state : State) (cpu pid : Nat) : Prop :=
  (state.cpus cpu).pc = .user ∧ (state.cpus cpu).currentPid = pid

structure Claimed (table : Table) (cpu pid : Nat) : Prop where
  holds : (table.slotOf pid).pid = pid
  running : (table.slotOf pid).state = .running
  owner : (table.slotOf pid).currentCpu = some cpu

structure Coherent (state : State) : Prop where
  placed : Placed state.table
  held : ∀ cpu pid, (state.cpus cpu).holds = some pid → Claimed state.table cpu pid

def Orderly (state : State) : Label → Prop
  | .on cpu .enterClaim => ∀ pid, (state.cpus cpu).pc = .requested pid →
      (state.table.slotOf pid).pid = pid → claimable (state.table.slotOf pid) cpu = true →
        (state.table.slotOf pid).state = .running
  | .on cpu .claimChild => ∀ child, (state.cpus cpu).pc = .claiming child →
      (state.table.slotOf child).pid = child → claimable (state.table.slotOf child) cpu = true
  | .on cpu .launchInit =>
    (state.table.slotOf state.pendingInitPid).pid = state.pendingInitPid →
      claimable (state.table.slotOf state.pendingInitPid) cpu = true
  | .on cpu (.publish _) => ∀ child bootstrap, (state.cpus cpu).pc = .publishing child bootstrap →
      (state.table.slotOf child).state = .dead
  | .on _ (.kill pid) => ∀ cpu, (state.cpus cpu).holds ≠ some pid
  | _ => True

lemma Claimed.unique (claimed : Claimed table cpu pid) (also : Claimed table other pid) :
    other = cpu := by
  have same := claimed.owner.symm.trans also.owner
  simpa using same.symm

lemma Claimed.claimable (claimed : Claimed table cpu pid) : claimable (table.slotOf pid) cpu := by
  simp [Scheduler.claimable, claimed.owner]

lemma Claimed.apart (claimed : Claimed table other pid) (different : other ≠ cpu)
    (may : Scheduler.claimable (table idx) cpu) : idxOf pid ≠ idx := by
  rintro rfl
  have owner : (table (idxOf pid)).currentCpu = some other := claimed.owner
  simp [Scheduler.claimable, owner, different] at may

lemma Claimed.update (claimed : Claimed table other pid) (apart : idxOf pid ≠ idx)
    (process : Process) : Claimed (Function.update table idx process) other pid := by
  have same : Table.slotOf (Function.update table idx process) pid = table.slotOf pid := by
    simp [Table.slotOf, apart]
  constructor
  · rw [same]
    exact claimed.holds
  · rw [same]
    exact claimed.running
  · rw [same]
    exact claimed.owner

lemma Placed.update (placed : Placed table) (sits : process.pid ≠ 0 → idxOf process.pid = idx) :
    Placed (Function.update table idx process) := by
  intro place
  by_cases same : place = idx
  · subst same
    simpa using sits
  · simpa [same] using placed place

lemma Placed.claimSlot (placed : Placed table) : Placed (claimSlot table idx cpu) :=
  placed.update (placed idx)

lemma Placed.guarded (placed : Placed table) {guard : Prop} [Decidable guard]
    (sits : process.pid ≠ 0 → idxOf process.pid = idx) :
    Placed (if guard then Function.update table idx process else table) := by
  split
  · exact placed.update sits
  · exact placed

lemma Placed.setState (placed : Placed table) (procState : ProcState) :
    Placed (table.setState pid procState) :=
  placed.guarded (placed _)

lemma claimed_claimSlot (sits : idxOf (table idx).pid = idx)
    (running : (table idx).state = .running) :
    Claimed (claimSlot table idx cpu) cpu (table idx).pid := by
  have slot : (claimSlot table idx cpu).slotOf (table idx).pid
      = { table idx with currentCpu := some cpu } := by
    simp [claimSlot, Table.slotOf, sits]
  constructor
  · rw [slot]
  · rw [slot]
    exact running
  · rw [slot]

section

variable (claimed : Claimed table other pid)
include claimed

lemma Claimed.claimSlot (may : Scheduler.claimable (table idx) cpu) :
    Claimed (claimSlot table idx cpu) other pid := by
  by_cases same : idxOf pid = idx
  · subst same
    have owner : other = cpu := by
      by_contra different
      exact claimed.apart different may rfl
    subst owner
    have sits : (table (idxOf pid)).pid = pid := claimed.holds
    have made := @claimed_claimSlot other (idxOf pid) table (by rw [sits]) claimed.running
    rwa [sits] at made
  · exact claimed.update same _

lemma Claimed.rewrite
    (holds : process.pid = (table idx).pid) (owner : process.currentCpu = (table idx).currentCpu)
    (running : (table idx).state = .running → process.state = .running) :
    Claimed (Function.update table idx process) other pid := by
  by_cases same : idxOf pid = idx
  · subst same
    have slot : Table.slotOf (Function.update table (idxOf pid) process) pid = process := by
      simp [Table.slotOf]
    constructor
    · rw [slot, holds]
      exact claimed.holds
    · rw [slot]
      exact running claimed.running
    · rw [slot, owner]
      exact claimed.owner
  · exact claimed.update same process

lemma Claimed.guarded {guard : Prop} [Decidable guard]
    (changed : guard → Claimed after other pid) :
    Claimed (if guard then after else table) other pid := by
  split
  · rename_i met
    exact changed met
  · exact claimed

lemma Claimed.setState_running (woken : Nat) :
    Claimed (table.setState woken .running) other pid :=
  claimed.guarded fun _ => claimed.rewrite rfl rfl fun _ => rfl

lemma Claimed.setState_other (different : other ≠ cpu)
    {own : Nat} (mine : Claimed table cpu own) (procState : ProcState) :
    Claimed (table.setState own procState) other pid :=
  claimed.guarded fun _ => claimed.update (claimed.apart different mine.claimable) _

lemma Claimed.markExited {gone : Nat} (different : pid ≠ gone)
    (code : Int) : Claimed (table.markExited gone code) other pid := by
  refine claimed.guarded fun holds => claimed.update (fun same => ?_) _
  simp only [Table.holds, Bool.and_eq_true, beq_iff_eq] at holds
  have kept := claimed.holds
  rw [Table.slotOf, same] at kept
  exact different (kept.symm.trans holds.1)

lemma Claimed.apart_of_state (stopped : (table idx).state ≠ .running) : idxOf pid ≠ idx := by
  rintro rfl
  exact stopped claimed.running

lemma Claimed.reapZombie (reaped : Nat) : Claimed (table.reapZombie reaped) other pid := by
  refine claimed.guarded fun zombie => claimed.update (claimed.apart_of_state fun running => ?_) _
  simp [Table.slotOf, running, ProcState.isZombie] at zombie

lemma Claimed.wakeSlot (idx : Nat) : Claimed (table.wakeSlot idx) other pid :=
  claimed.guarded fun _ => claimed.rewrite rfl rfl fun _ => rfl

lemma Claimed.setChildParent (child parent : Nat) :
    Claimed (table.setChildParent child parent) other pid :=
  claimed.guarded fun _ => claimed.rewrite rfl rfl id

end

structure Takes (cpu : Nat) (table after : Table) (result : Option Nat) : Prop where
  placed : Placed after
  claims : ∀ other pid, Claimed table other pid → Claimed after other pid
  got : ∀ pid, result = some pid → Claimed after cpu pid

lemma Takes.keep (placed : Placed after)
    (kept : ∀ other pid, Claimed table other pid → Claimed after other pid) :
    Takes cpu table after none :=
  ⟨placed, kept, fun _ found => by cases found⟩

section

variable (placed : Placed table)
include placed

lemma Placed.markExited (gone : Nat) (code : Int) :
    Placed (table.markExited gone code) :=
  placed.guarded (placed _)

lemma Placed.reapZombie (reaped : Nat) :
    Placed (table.reapZombie reaped) :=
  placed.guarded fun nonzero => absurd rfl nonzero

lemma Placed.wakeSlot (idx : Nat) : Placed (table.wakeSlot idx) :=
  placed.guarded (placed idx)

lemma Placed.setChildParent (child parent : Nat) :
    Placed (table.setChildParent child parent) :=
  placed.guarded (placed _)

lemma Takes.nothing : Takes cpu table table none :=
  .keep placed fun _ _ claimed => claimed

lemma takes_claimSlot (sits : idxOf (table idx).pid = idx)
    (running : (table idx).state = .running) (may : claimable (table idx) cpu) :
    Takes cpu table (claimSlot table idx cpu) (some (table idx).pid) := by
  refine ⟨placed.claimSlot, fun _ _ claimed => claimed.claimSlot may, ?_⟩
  intro pid found
  cases found
  exact claimed_claimSlot sits running

end

lemma readyPid_sits (ready : readyPid cpuCount state pid cpu) :
    idxOf (state.table (idxOf pid)).pid = idxOf pid
      ∧ Scheduler.ready cpuCount state (idxOf pid) cpu := by
  simp only [readyPid, Bool.and_eq_true, beq_iff_eq] at ready
  have holds : (state.table (idxOf pid)).pid = pid := ready.1
  exact ⟨by rw [holds], ready.2⟩

lemma pickSlot_spec (placed : Placed state.table)
    (found : pickSlot cpuCount state wm current cpu = some idx) :
    idxOf (state.table idx).pid = idx ∧ ready cpuCount state idx cpu := by
  simp only [pickSlot] at found
  split at found
  · rename_i input
    cases found
    exact readyPid_sits input.2.2.2
  split at found
  · rename_i baton
    cases found
    exact readyPid_sits baton.2.2.2
  split at found
  · rename_i hit
    cases found
    have scanned := List.find?_some hit
    simp only [Scheduler.scanned, Bool.and_eq_true, bne_iff_ne] at scanned
    exact ⟨placed idx scanned.1.1.1, scanned.1.1.2⟩
  obtain ⟨own, rfl⟩ := of_guard found
  exact readyPid_sits own.2.1

lemma nextRunnablePidLocked_takes (placed : Placed state.table) (wm : Wm) (current cpu : Nat) :
    Takes cpu state.table (nextRunnablePidLocked cpuCount state wm current cpu).1
      (nextRunnablePidLocked cpuCount state wm current cpu).2 := by
  unfold nextRunnablePidLocked
  split
  · rename_i found
    obtain ⟨sits, ready⟩ := pickSlot_spec placed found
    simp only [Scheduler.ready, Bool.and_eq_true, beq_iff_eq] at ready
    exact takes_claimSlot placed sits ready.1.1 ready.2
  · exact .nothing placed

lemma nextRunnablePid_takes (placed : Placed state.table) (wm : Wm) (current cpu : Nat) :
    Takes cpu state.table (nextRunnablePid cpuCount state wm current cpu).1
      (nextRunnablePid cpuCount state wm current cpu).2 := by
  unfold nextRunnablePid
  split
  · exact .nothing placed
  · exact nextRunnablePidLocked_takes placed wm current cpu

lemma tryClaimCpuFor_takes (placed : Placed table)
    (claimed : tryClaimCpuFor table pid cpu = some after) : Takes cpu table after (some pid) := by
  obtain ⟨found, rfl⟩ := of_guard claimed
  simp only [free, Bool.and_eq_true, beq_iff_eq] at found
  have holds : (table (idxOf pid)).pid = pid := found.1.1
  have took := takes_claimSlot placed (by rw [holds]) found.1.2 found.2
  rwa [holds] at took

structure Switches (cpu : Nat) (table after : Table) (pid : Nat) : Prop where
  placed : Placed after
  kept : ∀ other pid, other ≠ cpu → Claimed table other pid → Claimed after other pid
  got : Claimed after cpu pid

lemma Takes.switches (takes : Takes cpu table after result) (mine : Claimed table cpu pid) :
    Switches cpu table after pid :=
  ⟨takes.placed, fun _ _ _ claimed => takes.claims _ _ claimed, takes.claims _ _ mine⟩

lemma Placed.saveCurrent (placed : Placed table) :
    Placed (saveCurrent table current) :=
  placed.guarded (placed _)

lemma Claimed.saveCurrent (claimed : Claimed table other pid) (different : other ≠ cpu)
    (own : Claimed table cpu current) :
    Claimed (saveCurrent table current) other pid := by
  rw [Scheduler.saveCurrent, if_pos ⟨own.holds, own.running⟩]
  exact claimed.update (claimed.apart different own.claimable) _

lemma timerPreemptSwitch_switches (placed : Placed state.table) {current : Nat} (wm : Wm)
    (mine : Claimed state.table cpu current) :
    Switches cpu state.table (timerPreemptSwitch cpuCount state wm current cpu).1
      ((timerPreemptSwitch cpuCount state wm current cpu).2.getD current) := by
  have takes := @nextRunnablePidLocked_takes cpuCount state placed wm current cpu
  unfold timerPreemptSwitch
  split
  · rename_i after picked
    rw [picked] at takes
    exact takes.switches mine
  rename_i after following picked
  rw [picked] at takes
  split
  · exact takes.switches mine
  rename_i different
  have own : Claimed after cpu current := takes.claims _ _ mine
  have chosen : Claimed after cpu following := takes.got _ rfl
  have apart : idxOf following ≠ idxOf current := by
    intro same
    have holds := chosen.holds
    rw [Table.slotOf, same] at holds
    exact different (holds.symm.trans own.holds)
  have saved : Claimed (saveCurrent after current) cpu following := by
    rw [saveCurrent, if_pos ⟨own.holds, own.running⟩]
    exact chosen.update apart _
  have ready : ¬ (((saveCurrent after current).slotOf following).pid ≠ following
      ∨ ((saveCurrent after current).slotOf following).state ≠ .running) := by
    rintro (moved | stopped)
    · exact moved saved.holds
    · exact stopped saved.running
  rw [loadNext, if_neg ready]
  refine ⟨takes.placed.saveCurrent.claimSlot, ?_, saved.claimSlot saved.claimable⟩
  intro other pid others claimed
  have kept : Claimed (saveCurrent after current) other pid :=
    (takes.claims _ _ claimed).saveCurrent others own
  exact kept.claimSlot saved.claimable

@[simp] lemma goto_self (state : State) (cpu : Nat) (pc : Pc) :
    (state.goto cpu pc).cpus cpu = { state.cpus cpu with pc } := by
  simp [goto]

lemma goto_other (different : other ≠ cpu) (pc : Pc) :
    (state.goto cpu pc).cpus other = state.cpus other := by
  simp [goto, different]

@[simp] lemma leaveFor_self (state : State) (cpu pid : Nat) :
    (state.leaveFor cpu pid).cpus cpu = { pc := .loaded, currentPid := pid } := by
  simp [leaveFor]

lemma leaveFor_other (different : other ≠ cpu) (pid : Nat) :
    (state.leaveFor cpu pid).cpus other = state.cpus other := by
  simp [leaveFor, different]

section

variable (coherent : Coherent state)
include coherent

lemma Coherent.frame (placed : Placed next.table)
    (others : ∀ other, other ≠ cpu → next.cpus other = state.cpus other)
    (kept : ∀ other pid, other ≠ cpu → (state.cpus other).holds = some pid →
      Claimed state.table other pid → Claimed next.table other pid)
    (own : ∀ pid, (next.cpus cpu).holds = some pid → Claimed next.table cpu pid) :
    Coherent next := by
  refine ⟨placed, fun other pid holds => ?_⟩
  by_cases same : other = cpu
  · subst same
    exact own pid holds
  · rw [others other same] at holds
    exact kept other pid same holds (coherent.held other pid holds)

lemma Coherent.moved {pc : Pc}
    (own : ∀ pid, Cpu.holds { state.cpus cpu with pc } = some pid → Claimed state.table cpu pid) :
    Coherent (state.goto cpu pc) := by
  refine coherent.frame coherent.placed (fun other different => goto_other different pc)
    (fun _ _ _ _ claimed => claimed) ?_
  intro pid holds
  rw [goto_self] at holds
  exact own pid holds

lemma Coherent.took {after : Table} {result : Option Nat}
    (takes : Takes cpu state.table after result) {pc : Pc}
    (own : ∀ pid, Cpu.holds { state.cpus cpu with pc } = some pid →
      Claimed state.table cpu pid ∨ result = some pid) :
    Coherent { state.goto cpu pc with table := after } := by
  refine coherent.frame takes.placed (fun other different => goto_other different pc)
    (fun _ _ _ _ claimed => takes.claims _ _ claimed) ?_
  intro pid holds
  simp only [goto_self] at holds
  rcases own pid holds with mine | found
  · exact takes.claims _ _ mine
  · exact takes.got _ found

lemma Coherent.switched (switches : Switches cpu state.table after pid) :
    Coherent { state.leaveFor cpu pid with table := after } := by
  refine coherent.frame switches.placed (fun _ different => leaveFor_other different _)
    (fun _ _ different _ claimed => switches.kept _ _ different claimed) ?_
  intro same holds
  simp only [leaveFor_self] at holds
  cases holds
  exact switches.got

lemma Coherent.changed (placed : Placed after)
    (kept : ∀ cpu pid, (state.cpus cpu).holds = some pid → Claimed state.table cpu pid →
      Claimed after cpu pid) : Coherent { state with table := after } :=
  ⟨placed, fun cpu pid holds => kept cpu pid holds (coherent.held cpu pid holds)⟩

lemma Coherent.released {after : Table} {cpus : Nat → Cpu}
    (placed : Placed after) (others : ∀ other, other ≠ cpu → cpus other = state.cpus other)
    (kept : ∀ other pid, other ≠ cpu → Claimed state.table other pid → Claimed after other pid)
    (none : (cpus cpu).holds = none) : Coherent { state with table := after, cpus } := by
  refine coherent.frame placed others (fun other pid different _ => kept other pid different) ?_
  intro pid holds
  rw [none] at holds
  cases holds

end

lemma Claimed.claimProcessOnCpu (claimed : Claimed table other pid) {child : Nat}
    (may : (table.slotOf child).pid = child → Scheduler.claimable (table.slotOf child) cpu) :
    Claimed (Exit.claimProcessOnCpu table child cpu) other pid :=
  claimed.guarded fun holds => claimed.claimSlot (may holds)

lemma Placed.claimProcessOnCpu (placed : Placed table) (child cpu : Nat) :
    Placed (Exit.claimProcessOnCpu table child cpu) :=
  placed.guarded (placed _)

lemma Halt.holds (back : Halt) (current : Nat) :
    Cpu.holds { pc := back.pc, currentPid := current } = none := by
  cases back <;> rfl

lemma Claimed.exitOf (claimed : Claimed table other pid) (different : other ≠ cpu)
    (mine : Claimed table cpu current) (code : Int) :
    Claimed (table.markExited current code) other pid := by
  apply claimed.markExited
  rintro rfl
  exact different (mine.unique claimed)

section

variable (coherent : Coherent state)
include coherent

lemma State.alloc_coherent (serving : (state.cpus cpu).pc = .serving)
    (bootstrap : Option SpawnBootstrap) : Coherent (state.alloc cpu bootstrap) := by
  unfold alloc
  split
  · rename_i child _
    have moved : Coherent (state.goto cpu (.publishing child bootstrap)) := by
      apply coherent.moved
      intro pid holds
      apply coherent.held
      simpa [Cpu.holds, serving] using holds
    exact { moved with }
  · exact { coherent with }

lemma State.publish_coherent {child : Nat}
    {bootstrap : Option SpawnBootstrap}
    (publishing : (state.cpus cpu).pc = .publishing child bootstrap)
    (dead : (state.table.slotOf child).state = .dead) (memory : Option Creation.Resources) :
    Coherent (state.publish cpuCount cpu child bootstrap memory) := by
  have mine : ∀ pid, some (state.cpus cpu).currentPid = some pid → Claimed state.table cpu pid :=
    fun pid same => coherent.held cpu pid (by simpa [Cpu.holds, publishing] using same)
  cases memory with
  | none =>
    exact coherent.moved fun pid holds => mine pid holds
  | some resources =>
    have kept : ∀ other pid, Claimed state.table other pid → Claimed (state.table.write child
        ((state.table.slotOf child).spawned child resources.pml4Phys resources.stackBase
          (bootstrap.getD {}))) other pid := by
      refine fun other pid claimed => claimed.update (claimed.apart_of_state fun running => ?_) _
      rw [Table.slotOf, running] at dead
      cases dead
    refine coherent.frame (coherent.placed.update fun _ => rfl)
      (fun other different => goto_other different _)
      (fun other pid _ _ claimed => kept other pid claimed) ?_
    intro pid holds
    apply kept
    apply mine
    simp only [publish, goto_self] at holds
    cases bootstrap <;> exact holds

lemma State.took_coherent (takes : Takes cpu state.table after result) {held : Bool}
    (own : held → ∀ pid, some (state.cpus cpu).currentPid = some pid →
      Claimed state.table cpu pid) : Coherent (state.took cpu held (after, result)) := by
  cases result with
  | none => exact coherent.changed takes.placed fun _ _ _ claimed => takes.claims _ _ claimed
  | some following =>
    apply coherent.took takes
    intro pid holds
    by_cases same : following = (state.cpus cpu).currentPid
    · rw [if_pos same] at holds
      exact .inr (by rw [same]; exact holds)
    rw [if_neg same] at holds
    cases held with
    | true => exact .inl (own rfl pid holds)
    | false => cases holds

lemma State.assistNext_coherent {stage : AssistStage} {target : Nat}
    {back : Halt} (assisting : (state.cpus cpu).pc = .assist stage target back) (locked : Bool) :
    Coherent (state.assistNext cpuCount cpu target back locked stage) := by
  have returns : Coherent (state.goto cpu back.pc) := by
    apply coherent.moved
    intro pid holds
    rw [Halt.holds] at holds
    cases holds
  cases stage with
  | wake =>
    simp only [assistNext]
    split
    · exact returns
    refine coherent.frame (coherent.placed.setState _)
      (fun other different => goto_other different _)
      (fun _ _ _ _ claimed => claimed.setState_running _) ?_
    intro pid holds
    simp only [goto_self] at holds
    split at holds
    · rw [Halt.holds] at holds
      cases holds
    · cases holds
  | claim =>
    simp only [assistNext]
    split
    · rename_i after claimed
      have takes : Takes cpu state.table after (some target) := by
        cases locked with
        | true => cases claimed
        | false =>
          simp only [Bool.false_eq_true, if_false, tryClaimCpuForTry] at claimed
          split at claimed
          · exact tryClaimCpuFor_takes coherent.placed claimed
          · cases claimed
      exact coherent.took takes fun pid holds => .inr holds
    · exact returns
  | enter =>
    simp only [assistNext]
    split
    · exact returns
    refine coherent.frame coherent.placed (fun other different => leaveFor_other different _)
      (fun _ _ _ _ claimed => claimed) ?_
    intro pid holds
    apply coherent.held
    simpa [Cpu.holds, assisting] using holds

lemma Coherent.left {pc : Pc}
    (holds : (state.cpus cpu).holds = some pid) (placed : Placed after)
    (kept : ∀ other pid', other ≠ cpu → Claimed state.table cpu pid →
      Claimed state.table other pid' → Claimed after other pid')
    (none : Cpu.holds { state.cpus cpu with pc } = none) :
    Coherent { state.goto cpu pc with table := after } := by
  refine @Coherent.released cpu state coherent after _ placed
    (fun other different => goto_other different pc)
    (fun other pid' different => kept other pid' different (coherent.held cpu pid holds)) ?_
  rw [goto_self]
  exact none

lemma State.act_coherent {action : Action}
    (orderly : Orderly state (.on cpu action))
    (taken : state.act cpuCount cpu action = some next) : Coherent next := by
  have mine : ∀ pc, (state.cpus cpu).pc = pc →
      Cpu.holds ⟨pc, (state.cpus cpu).currentPid⟩ = some (state.cpus cpu).currentPid →
      ∀ pid, some (state.cpus cpu).currentPid = some pid → Claimed state.table cpu pid := by
    rintro _ rfl holds pid same
    exact coherent.held cpu pid (holds.trans same)
  unfold act at taken
  dsimp only at taken
  split at taken <;> try cases taken
  -- creation and the exec-and-wait hand-over
  · rename_i pc
    split at taken <;> cases taken
    exact alloc_coherent coherent pc _
  · rename_i child bootstrap memory pc
    exact publish_coherent coherent pc (orderly child bootstrap pc) memory
  · rename_i child pc
    refine coherent.took (.keep (coherent.placed.claimProcessOnCpu child cpu)
      fun _ _ claimed => claimed.claimProcessOnCpu (orderly child pc)) fun pid holds => .inl ?_
    exact mine _ pc rfl pid holds
  · rename_i child pc
    refine coherent.took (.keep (coherent.placed.setChildParent child _)
      fun _ _ claimed => claimed.setChildParent child _) fun pid holds => .inl ?_
    exact mine _ pc rfl pid holds
  · rename_i child pc
    exact coherent.left (by rw [Cpu.holds, pc]) (coherent.placed.setState _)
      (fun _ _ different own claimed => claimed.setState_other different own _) rfl
  · split at taken
    · cases taken
    cases taken
    have launched := @Coherent.took cpu state coherent _ none
      (.keep (coherent.placed.claimProcessOnCpu state.pendingInitPid cpu)
        fun _ _ claimed => claimed.claimProcessOnCpu orderly)
      (.requested state.pendingInitPid) fun _ holds => by cases holds
    exact { launched with }
  -- picks
  · rename_i pc
    exact coherent.left (by rw [Cpu.holds, pc]) (coherent.placed.setState _)
      (fun _ _ different own claimed => claimed.setState_other different own _) rfl
  · rename_i wm locked pc
    have takes := @nextRunnablePid_takes cpuCount state coherent.placed wm 0 cpu
    split at taken
    · rename_i after picked
      rw [picked] at takes
      cases taken
      exact coherent.changed takes.placed fun _ _ _ claimed => takes.claims _ _ claimed
    rename_i after following picked
    rw [picked] at takes
    cases taken
    exact coherent.took takes fun _ holds => by cases holds
  · rename_i wm locked pc
    apply took_coherent coherent
    · cases locked
      · exact nextRunnablePid_takes coherent.placed wm _ cpu
      · exact nextRunnablePidLocked_takes coherent.placed wm _ cpu
    · exact fun _ => mine _ pc rfl
  · rename_i wm locked pc
    apply took_coherent coherent
    · cases locked
      · exact nextRunnablePid_takes coherent.placed wm _ cpu
      · exact nextRunnablePidLocked_takes coherent.placed wm _ cpu
    · exact fun held => by cases held
  · rename_i target pc
    split at taken <;> cases taken
    · rename_i after claimed
      split at claimed
      · cases claimed
      · exact coherent.took (tryClaimCpuFor_takes coherent.placed claimed) fun pid holds =>
          .inl (mine _ pc rfl pid holds)
    · exact coherent
  · rename_i following block pc
    cases block with
    | true =>
      exact coherent.left (by rw [Cpu.holds, pc]) (coherent.placed.setState _)
        (fun _ _ different own claimed => claimed.setState_other different own _) rfl
    | false => exact coherent.moved fun _ holds => by cases holds
  · obtain ⟨-, rfl⟩ := of_guard taken
    exact coherent.took (.keep (coherent.placed.setState _)
      fun _ _ claimed => claimed.setState_running 1) fun _ holds => by cases holds
  -- the way into user mode
  · rename_i pid pc
    split at taken <;> cases taken
    · rename_i found
      have sits : (state.table (idxOf pid)).pid = pid := found.1
      have takes := takes_claimSlot coherent.placed (by rw [sits])
        (orderly pid pc found.1 found.2) found.2
      rw [sits] at takes
      exact coherent.took takes fun _ holds => .inr holds
    · exact coherent.moved fun _ holds => by cases holds
  · rename_i pid wm pc
    have takes := @nextRunnablePid_takes cpuCount state coherent.placed wm
      (state.cpus cpu).currentPid cpu
    split at taken
    · rename_i after picked
      rw [picked] at takes
      cases taken
      exact coherent.took takes fun _ holds => by cases holds
    rename_i after following picked
    rw [picked] at takes
    cases taken
    refine coherent.took takes fun _ holds => ?_
    split at holds
    · exact .inr holds
    · cases holds
  · rename_i pid pc
    split at taken
    · cases taken
      exact coherent.moved fun _ holds => by cases holds
    cases taken
    have chosen : Claimed state.table cpu pid := coherent.held cpu pid (by rw [Cpu.holds, pc])
    refine coherent.frame coherent.placed.claimSlot (fun _ different => leaveFor_other different _)
      (fun _ _ _ _ claimed => claimed.claimSlot chosen.claimable) ?_
    intro same holds
    simp only [leaveFor_self] at holds
    cases holds
    exact chosen.claimSlot chosen.claimable
  iterate 3
    rename_i pc
    exact coherent.moved fun pid holds => mine _ pc rfl pid holds
  -- interrupts
  · rename_i wm preempt pc
    have own := mine _ pc rfl _ rfl
    split at taken
    · rename_i after switched
      cases taken
      cases preempt with
      | true =>
        have switches := @timerPreemptSwitch_switches cpuCount cpu state coherent.placed _ wm own
        rw [show timerPreemptSwitch cpuCount state wm _ cpu = (after, none) from switched]
          at switches
        exact coherent.switched switches
      | false =>
        cases switched
        exact coherent.switched ((Takes.nothing coherent.placed).switches own)
    rename_i after following switched
    cases taken
    cases preempt with
    | true =>
      have switches := @timerPreemptSwitch_switches cpuCount cpu state coherent.placed _ wm own
      rw [show timerPreemptSwitch cpuCount state wm _ cpu = (after, some following)
        from switched] at switches
      exact coherent.switched switches
    | false => cases switched
  · rename_i target _ locked pc
    exact assistNext_coherent coherent pc locked
  -- exits
  · rename_i pc
    exact coherent.left (by rw [Cpu.holds, pc]) (coherent.placed.markExited _ _)
      (fun _ _ different own claimed => claimed.exitOf different own _) rfl
  · rename_i pc
    have own := mine _ pc rfl _ rfl
    refine coherent.released (coherent.placed.markExited _ _)
      (fun other different => Function.update_of_ne different _ _)
      (fun _ _ different claimed => claimed.exitOf different own _) ?_
    rw [Function.update_self]
    rfl
  · rename_i pid pc
    refine coherent.changed (coherent.placed.markExited pid _) fun cpu held holds claimed => ?_
    apply claimed.markExited
    rintro rfl
    exact orderly cpu holds
  · rename_i pid pc
    exact coherent.changed (coherent.placed.reapZombie pid) fun _ _ _ claimed =>
      claimed.reapZombie pid
  · split at taken <;> cases taken
    exact coherent.moved fun _ holds => by cases holds

lemma step_coherent {label : Label} (orderly : Orderly state label)
    (taken : (system cpuCount).step state label = some next) : Coherent next := by
  cases label with
  | on cpu action => exact act_coherent coherent orderly taken
  | wake pid =>
    cases taken
    exact coherent.changed (coherent.placed.setState _) fun _ _ _ claimed =>
      claimed.setState_running pid
  | deliverWake idx =>
    cases taken
    exact coherent.changed (coherent.placed.wakeSlot idx) fun _ _ _ claimed =>
      claimed.wakeSlot idx

end

lemma reachable_coherent (reached : (system cpuCount).Reachable Orderly state) :
    Coherent state := by
  refine reached.invariant ?_ ?_
  · intro state begun
    refine ⟨begun.1, fun cpu pid holds => ?_⟩
    rw [begun.2 cpu] at holds
    cases holds
  · intro state label next coherent orderly taken
    exact step_coherent coherent orderly taken

def Enters (state next : State) (cpu pid : Nat) : Prop :=
  ¬ InUser state cpu pid ∧ InUser next cpu pid

def Alone (state : State) (cpu pid : Nat) : Prop :=
  (state.table.slotOf pid).pid = pid ∧ (state.table.slotOf pid).state = .running
    ∧ ∀ other, other ≠ cpu → ¬ InUser state other pid

lemma InUser.holds (inUser : InUser state cpu pid) : (state.cpus cpu).holds = some pid := by
  rw [Cpu.holds, inUser.1, inUser.2]

lemma Coherent.alone (coherent : Coherent state) (inUser : InUser state cpu pid) :
    Alone state cpu pid := by
  have claimed := coherent.held cpu pid inUser.holds
  refine ⟨claimed.holds, claimed.running, fun other different also => ?_⟩
  exact different (claimed.unique (coherent.held other pid also.holds))

def booted (processes : List Process) (pendingInitPid : Nat) (home : Nat → Nat) : State where
  table := fun idx => (processes.find? fun process => idxOf process.pid == idx).getD {}
  home
  nextPid := processes.length + 1
  pendingInitPid

lemma booted_start (processes : List Process) (pendingInitPid : Nat) (home : Nat → Nat) :
    (system cpuCount).start (booted processes pendingInitPid home) := by
  refine ⟨fun idx nonzero => ?_, fun _ => rfl⟩
  cases found : processes.find? fun process => idxOf process.pid == idx with
  | none => simp [booted, found] at nonzero
  | some process =>
    have sits := List.find?_some found
    simpa [booted, found] using sits

lemma act_reachable (cpu : Nat) (action : Action)
    (reached : (system cpuCount).Reachable Orderly state) (orderly : Orderly state (.on cpu action))
    (taken : state.act cpuCount cpu action = some next) :
    (system cpuCount).Reachable Orderly next :=
  .step reached orderly taken

lemma enters_of_loaded (loaded : state.cpus cpu = { pc := .loaded, currentPid := pid }) :
    (system cpuCount).step state (.on cpu .enter) = some (state.goto cpu .user)
      ∧ Enters state (state.goto cpu .user) cpu pid := by
  refine ⟨?_, ?_, ?_, ?_⟩
  · show state.act cpuCount cpu .enter = _
    unfold act
    rw [loaded]
  · rintro ⟨inUser, _⟩
    rw [loaded] at inUser
    cases inUser
  · rw [goto_self]
  · rw [goto_self, loaded]

def entry (cpu : Nat) : List Label := [.on cpu .enterClaim, .on cpu .load]

def shellAndApp : State :=
  booted [{ pid := 1, state := .blocked }, { pid := 2, state := .running }] 0
    fun idx => if idx = 2 then 1 else 0

def execRace : List Label :=
  [.on 1 (.pick {} false)] ++ entry 1 ++
    [.on 1 .enter, .on 1 .trap, .on 1 (.alloc none), .on 1 (.publish (some {})),
      .on 0 (.pick {} false)] ++ entry 0 ++
    [.on 0 .enter, .on 1 .claimChild, .on 1 .linkChild, .on 1 .blockParent] ++ entry 1

def selfKill : List Label :=
  [.on 0 .launchInit] ++ entry 0 ++ [.on 0 .enter, .on 0 .trap, .on 0 (.kill 1), .on 0 .sysret]

end OsCortex.Scheduler
