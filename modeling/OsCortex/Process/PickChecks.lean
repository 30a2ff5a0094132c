import OsCortex.Process.SchedulerChecks

/-!
`next_runnable_pid_locked` finds a thread whenever there is one this CPU may run, and picks
made one after the other go around the table.
-/

namespace OsCortex.Scheduler

open List Function Table Process

variable {cpuCount cpu current pid idx : Nat} {state : State} {wm : Wm} {table : Table}

structure Eligible (cpuCount : Nat) (state : State) (wm : Wm) (cpu idx : Nat) : Prop where
  bound : idx < maxProcs
  holds : (state.table idx).pid ≠ 0
  running : (state.table idx).state = .running
  free : claimable (state.table idx) cpu = true
  home : 1 < cpuCount → state.home idx = cpu
  inside : ∀ group, foreground state.table wm = some group →
    state.table.getGroupLeader (state.table idx).pid = group

def repick (cpuCount : Nat) (wm : Wm) (cpu : Nat) (last : State × Nat) : State × Nat :=
  let (table, next) := nextRunnablePidLocked cpuCount last.1 wm last.2 cpu
  ({ last.1 with table }, next.getD last.2)

def Wm.quiet (wm : Wm) : Prop := wm.inputPendingFor wm.target = 0 ∧ wm.embedderBatonDue 1 = false

lemma eligible_iff (bound : idx < maxProcs) : Eligible cpuCount state wm cpu idx ↔
    (state.table idx).pid ≠ 0 ∧ ready cpuCount state idx cpu
      ∧ inForeground state.table wm (state.table idx).pid := by
  have inside : inForeground state.table wm (state.table idx).pid ↔
      ∀ group, foreground state.table wm = some group →
        state.table.getGroupLeader (state.table idx).pid = group := by
    unfold inForeground
    cases foreground state.table wm <;> simp
  simp only [ready, atHome, Bool.and_eq_true, Bool.or_eq_true, decide_eq_true_eq, beq_iff_eq,
    inside, ← not_lt, ← imp_iff_not_or]
  constructor
  · rintro ⟨-, holds, running, free, home, inside⟩
    exact ⟨holds, ⟨⟨running, home⟩, free⟩, inside⟩
  · rintro ⟨holds, ⟨⟨running, home⟩, free⟩, inside⟩
    exact ⟨bound, holds, running, free, home, inside⟩

lemma eligible_of_readyPid (found : readyPid cpuCount state pid cpu)
    (inside : inForeground state.table wm pid) (given : pid ≠ 0) :
    Eligible cpuCount state wm cpu (idxOf pid) := by
  simp only [readyPid, slotOf, Bool.and_eq_true, beq_iff_eq] at found
  have bound : idxOf pid < maxProcs := Nat.mod_lt _ (by decide)
  rw [eligible_iff bound, found.1]
  exact ⟨given, found.2, inside⟩

lemma scanned_iff (bound : idx < maxProcs) :
    scanned cpuCount state wm current cpu idx ↔
      Eligible cpuCount state wm cpu idx ∧ (current = 0 ∨ (state.table idx).pid ≠ current) := by
  simp [scanned, eligible_iff bound, and_assoc]

lemma mem_roundRobin : idx ∈ roundRobin current ↔ idx < maxProcs := by
  simp only [roundRobin, mem_map, mem_range]
  generalize (if current = 0 then 0 else idxOf ((current + 1) % 2 ^ 32)) = start
  constructor
  · rintro ⟨_, -, rfl⟩
    exact Nat.mod_lt _ (by decide)
  intro bound
  refine ⟨(idx + maxProcs - start % maxProcs) % maxProcs, Nat.mod_lt _ (by decide), ?_⟩
  simp only [maxProcs] at bound ⊢
  omega

lemma pickSlot_eligible (found : pickSlot cpuCount state wm current cpu = some idx) :
    Eligible cpuCount state wm cpu idx := by
  simp only [pickSlot] at found
  split at found
  · rename_i input
    cases found
    exact eligible_of_readyPid input.2.2.2 input.1 (by unfold Wm.target; split <;> omega)
  split at found
  · rename_i baton
    cases found
    refine eligible_of_readyPid baton.2.2.2 ?_ one_ne_zero
    rw [inForeground, Option.isNone_iff_eq_none.mp baton.1]
  split at found
  · rename_i hit
    cases found
    have bound := mem_roundRobin.mp (mem_of_find?_eq_some hit)
    exact ((scanned_iff bound).mp (find?_some hit)).1
  obtain ⟨own, rfl⟩ := of_guard found
  exact eligible_of_readyPid own.2.1 own.2.2 own.1

lemma pickSlot_complete (placed : Placed state.table)
    (none : pickSlot cpuCount state wm current cpu = none) :
    ¬ Eligible cpuCount state wm cpu idx := by
  intro eligible
  simp only [pickSlot] at none
  iterate 3
    split at none
    · cases none
  rename_i missed
  have skipped := find?_eq_none.mp missed idx (mem_roundRobin.mpr eligible.bound)
  rw [scanned_iff eligible.bound] at skipped
  obtain ⟨given, own⟩ : current ≠ 0 ∧ (state.table idx).pid = current := by
    by_contra other
    exact skipped ⟨eligible, by tauto⟩
  obtain ⟨-, found, inside⟩ := (eligible_iff eligible.bound).mp eligible
  have sits : idxOf current = idx := own ▸ placed idx eligible.holds
  rw [own] at inside
  simp [given, readyPid, slotOf, sits, own, found, inside] at none

lemma nextRunnablePidLocked_some (placed : Placed state.table)
    (picked : nextRunnablePidLocked cpuCount state wm current cpu = (table, some pid)) :
    pickSlot cpuCount state wm current cpu = some (idxOf pid)
      ∧ table = claimSlot state.table (idxOf pid) cpu ∧ (state.table.slotOf pid).pid = pid := by
  unfold nextRunnablePidLocked at picked
  split at picked
  · rename_i found hit
    obtain ⟨rfl, same⟩ := Prod.mk.inj picked
    cases same
    have sits := placed found (pickSlot_eligible hit).holds
    rw [slotOf, sits]
    exact ⟨hit, rfl, rfl⟩
  · cases picked

lemma claimSlot_field {β : Type} (field : Process → β) (place : Nat)
    (ignores : ∀ process owner, field { process with currentCpu := owner } = field process) :
    field (claimSlot table idx cpu place) = field (table place) := by
  unfold claimSlot
  by_cases here : place = idx
  · rw [here, update_self, ignores]
  · rw [update_of_ne here]

lemma pid_claimSlot (place : Nat) : (claimSlot table idx cpu place).pid = (table place).pid :=
  claimSlot_field pid place fun _ _ => rfl

lemma groupLeaderFrom_claimSlot (fuel pid : Nat) :
    (claimSlot table idx cpu).groupLeaderFrom fuel pid = table.groupLeaderFrom fuel pid := by
  induction fuel generalizing pid with
  | zero => rfl
  | succ fuel ih =>
    have parent : (claimSlot table idx cpu (idxOf pid)).parentPid = (table (idxOf pid)).parentPid :=
      claimSlot_field parentPid _ fun _ _ => rfl
    refine if_congr ?_ ?_ rfl
    · rw [slotOf, parent, pid_claimSlot, claimSlot_field isThread _ fun _ _ => rfl]
      rfl
    · rw [slotOf, parent, ih]
      rfl

lemma foreground_claimSlot : foreground (claimSlot table idx cpu) wm = foreground table wm := by
  simp only [foreground, getGroupLeader, groupLeaderFrom_claimSlot, slotOf]
  refine if_congr ?_ rfl rfl
  rw [pid_claimSlot, claimSlot_field live _ fun _ _ => rfl]

lemma Eligible.claimSlot {place : Nat} (eligible : Eligible cpuCount state wm cpu place) :
    Eligible cpuCount { state with table := claimSlot state.table idx cpu } wm cpu place := by
  constructor
  · exact eligible.bound
  · rw [pid_claimSlot]
    exact eligible.holds
  · rw [claimSlot_field Process.state _ fun _ _ => rfl]
    exact eligible.running
  · by_cases here : place = idx
    · simp [here, Scheduler.claimSlot, claimable]
    · simpa [here, Scheduler.claimSlot] using eligible.free
  · exact eligible.home
  simp only [pid_claimSlot, foreground_claimSlot, getGroupLeader, groupLeaderFrom_claimSlot]
  exact eligible.inside

structure Waits (cpuCount : Nat) (wm : Wm) (cpu idx pid : Nat) (state : State) : Prop where
  placed : Placed state.table
  eligible : Eligible cpuCount state wm cpu idx
  holds : (state.table idx).pid = pid

def Sits (last : State × Nat) : Prop := last.2 ≠ 0 ∧ (last.1.table.slotOf last.2).pid = last.2

variable {last : State × Nat} {waiting : Nat}

lemma Waits.repick (waits : Waits cpuCount wm cpu idx waiting last.1) :
    let next := Scheduler.repick cpuCount wm cpu last
    pickSlot cpuCount last.1 wm last.2 cpu = some (idxOf next.2)
      ∧ Waits cpuCount wm cpu idx waiting next.1 ∧ Sits next := by
  cases run : nextRunnablePidLocked cpuCount last.1 wm last.2 cpu with
  | mk table next =>
    simp only [Scheduler.repick, run]
    cases next with
    | none =>
      unfold nextRunnablePidLocked at run
      split at run
      · cases run
      · rename_i missed
        exact absurd waits.eligible (pickSlot_complete waits.placed missed)
    | some pid =>
      obtain ⟨hit, rfl, own⟩ := nextRunnablePidLocked_some waits.placed run
      have given : pid ≠ 0 := own ▸ (pickSlot_eligible hit).holds
      exact ⟨hit, ⟨waits.placed.claimSlot, waits.eligible.claimSlot,
        (pid_claimSlot idx).trans waits.holds⟩, given, (pid_claimSlot _).trans own⟩

def dist (idx current : Nat) : Nat := (idx + maxProcs - idxOf current) % maxProcs

lemma dist_found {hit : Nat → Bool} {found : Nat} (given : current ≠ 0)
    (first : (roundRobin current).find? hit = some (idxOf found)) (bound : idx < maxProcs)
    (also : hit idx) (_ : idxOf found ≠ idx) (away : idxOf current ≠ idx) :
    dist idx found < dist idx current := by
  simp only [roundRobin, if_neg given, find?_map, Option.map_eq_some_iff] at first
  obtain ⟨off, early, _⟩ := first
  obtain ⟨-, _, missed⟩ := find?_range_eq_some.mp early
  have before : off ≤ dist idx current - 1 := by
    by_contra late
    have passed := missed (dist idx current - 1) (by omega)
    have place : (idxOf ((current + 1) % 2 ^ 32) + (dist idx current - 1)) % maxProcs = idx := by
      simp only [dist, idxOf, maxProcs] at bound away ⊢
      omega
    rw [comp_apply, place, also] at passed
    cases passed
  simp only [mem_range, dist, idxOf, maxProcs] at *
  omega

lemma Waits.nearer (quiet : wm.quiet)
    (waits : Waits cpuCount wm cpu idx waiting last.1) (sits : Sits last) (other : last.2 ≠ waiting)
    (missed : (Scheduler.repick cpuCount wm cpu last).2 ≠ waiting) :
    dist idx (Scheduler.repick cpuCount wm cpu last).2 < dist idx last.2 := by
  obtain ⟨hit, after, next⟩ := waits.repick
  have scan := (scanned_iff waits.eligible.bound).mpr
    ⟨waits.eligible, .inr (waits.holds ▸ other.symm)⟩
  have apart {last : State × Nat} (waits : Waits cpuCount wm cpu idx waiting last.1)
      (sits : Sits last) (other : last.2 ≠ waiting) : idxOf last.2 ≠ idx := by
    rintro rfl
    exact other (sits.2.symm.trans waits.holds)
  refine dist_found sits.1 ?_ waits.eligible.bound scan (apart after next missed)
    (apart waits sits other)
  unfold pickSlot at hit
  rw [if_neg (by simp [quiet.1]), if_neg (by simp [quiet.2])] at hit
  split at hit
  · rename_i found
    rw [found, hit]
  · rename_i none
    exact absurd scan (find?_eq_none.mp none idx (mem_roundRobin.mpr waits.eligible.bound))

lemma Waits.passes (quiet : wm.quiet)
    (waits : Waits cpuCount wm cpu idx waiting last.1) (sits : Sits last) (count : Nat)
    (missed : ∀ k ≤ count, ((Scheduler.repick cpuCount wm cpu)^[k] last).2 ≠ waiting) :
    dist idx ((Scheduler.repick cpuCount wm cpu)^[count] last).2 + count ≤ dist idx last.2 := by
  induction count generalizing last with
  | zero => exact le_rfl
  | succ count ih =>
    have closer := waits.nearer quiet sits (missed 0 (by omega)) (missed 1 (by omega))
    obtain ⟨-, after, next⟩ := waits.repick
    have rest := ih after next fun k bound => missed (k + 1) (by omega)
    rw [iterate_succ_apply]
    omega

lemma Waits.iterate (waits : Waits cpuCount wm cpu idx waiting last.1) (count : Nat) :
    Waits cpuCount wm cpu idx waiting ((Scheduler.repick cpuCount wm cpu)^[count] last).1 := by
  induction count with
  | zero => exact waits
  | succ count ih =>
    rw [iterate_succ_apply']
    exact ih.repick.2.1

theorem nextRunnablePidLocked_serves_all (placed : Placed state.table) (wm : Wm)
    (current cpu : Nat) :
    (∀ table pid, nextRunnablePidLocked cpuCount state wm current cpu = (table, some pid) →
      (state.table.slotOf pid).pid = pid ∧ Eligible cpuCount state wm cpu (idxOf pid))
    ∧ ((nextRunnablePidLocked cpuCount state wm current cpu).2 = none →
      ∀ idx, ¬ Eligible cpuCount state wm cpu idx)
    ∧ (wm.quiet → ∀ before count, let last := (repick cpuCount wm cpu)^[before + 1] (state, current)
      ((repick cpuCount wm cpu)^[count + 1] last).2 = last.2 →
        ∀ idx, Eligible cpuCount state wm cpu idx →
          ∃ k ≤ count, ((repick cpuCount wm cpu)^[k] last).2 = (state.table idx).pid) := by
  refine ⟨fun table pid picked => ?_, fun missed idx => ?_, ?_⟩
  · obtain ⟨hit, -, own⟩ := nextRunnablePidLocked_some placed picked
    exact ⟨own, pickSlot_eligible hit⟩
  · unfold nextRunnablePidLocked at missed
    split at missed
    · cases missed
    · rename_i none
      exact pickSlot_complete placed none
  intro quiet before count last again idx eligible
  by_contra never
  push Not at never
  have start : Waits cpuCount wm cpu idx (state.table idx).pid (state, current).1 :=
    ⟨placed, eligible, rfl⟩
  have taken : repick cpuCount wm cpu _ = last := (iterate_succ_apply' _ _ _).symm
  obtain ⟨-, waits, sits⟩ := (start.iterate before).repick
  rw [taken] at waits sits
  have back := waits.passes quiet sits (count + 1) fun k bound => by
    rcases Nat.lt_or_eq_of_le bound with _ | rfl
    · exact never k (by omega)
    · exact fun met => never 0 (by omega) (again.symm.trans met)
  rw [again] at back
  omega

def pairState : State where
  table := (Table.empty.write 1 { pid := 1, state := .running }).write 2
    { pid := 2, state := .running }

lemma pairState_placed : Placed pairState.table := by
  have start : Placed empty := fun _ held => absurd rfl held
  have one : Placed (empty.write 1 { pid := 1, state := .running }) := start.update fun _ => rfl
  exact one.update fun _ => rfl

theorem pairState_served : Eligible 1 pairState {} 0 2
    ∧ ∃ k ≤ 1, ((repick 1 {} 0)^[k] ((repick 1 {} 0)^[1] (pairState, 0))).2 = 2 := by
  have second : Eligible 1 pairState {} 0 2 := (eligible_iff (by decide)).mpr (by decide)
  exact ⟨second, (nextRunnablePidLocked_serves_all pairState_placed {} 0 0).2.2 ⟨rfl, rfl⟩ 0 1
    (by decide +kernel) 2 second⟩

end OsCortex.Scheduler
