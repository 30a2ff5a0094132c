import OsCortex.Process.CreationCore
import OsCortex.Process.TableChecks

/-!
`alloc_pid` releases the table lock without reserving the slot it found free, so that slots are
exclusive only while the pids in flight hash apart.
-/

namespace OsCortex.Creation

open Table Kernel Runs

def SlotFresh (kernel : Kernel) : Action → Prop
  | .draw _ => ∀ context pid, (kernel.phase context).pid? = some pid →
      idxOf pid ≠ idxOf kernel.nextPid
  | _ => True

structure Exclusive (kernel : Kernel) : Prop where
  apart : ∀ left right leftPid rightPid, left ≠ right →
    (kernel.phase left).pid? = some leftPid → (kernel.phase right).pid? = some rightPid →
    idxOf leftPid ≠ idxOf rightPid
  free : ∀ context request inherited pid,
    kernel.phase context = .allocated request inherited pid →
    (kernel.table.slotOf pid).state = .dead
  intact : kernel.overwritten = []

lemma setPhase_same (kernel : Kernel) (context : Nat) (phase : Phase) :
    (kernel.setPhase context phase).phase context = phase :=
  Function.update_self ..

variable {context : Nat}

lemma setPhase_other (kernel : Kernel) {other : Nat} (phase : Phase) (different : other ≠ context) :
    (kernel.setPhase context phase).phase other = kernel.phase other :=
  Function.update_of_ne different ..

variable {kernel : Kernel}

section

variable (exclusive : Exclusive kernel)
include exclusive

lemma Exclusive.setPhase {phase : Phase}
    (apart : ∀ pid, phase.pid? = some pid → ∀ other otherPid, other ≠ context →
      (kernel.phase other).pid? = some otherPid → idxOf pid ≠ idxOf otherPid)
    (free : ∀ request inherited pid, phase = .allocated request inherited pid →
      (kernel.table.slotOf pid).state = .dead) :
    Exclusive (kernel.setPhase context phase) := by
  constructor
  case apart =>
    intro left right leftPid rightPid different leftHas rightHas
    by_cases leftHere : left = context
    · subst left
      rw [setPhase_same] at leftHas
      rw [setPhase_other kernel phase different.symm] at rightHas
      exact apart leftPid leftHas right rightPid different.symm rightHas
    rw [setPhase_other kernel phase leftHere] at leftHas
    by_cases rightHere : right = context
    · subst right
      rw [setPhase_same] at rightHas
      exact (apart rightPid rightHas left leftPid leftHere leftHas).symm
    · rw [setPhase_other kernel phase rightHere] at rightHas
      exact exclusive.apart left right leftPid rightPid different leftHas rightHas
  case free =>
    intro other request inherited pid found
    by_cases here : other = context
    · subst other
      rw [setPhase_same] at found
      exact free request inherited pid found
    · rw [setPhase_other kernel phase here] at found
      exact exclusive.free other request inherited pid found
  case intact => exact exclusive.intact

lemma Exclusive.keepsDead {table : Table}
    (keeps : kernel.table.KeepsDead table) : Exclusive { kernel with table } where
  apart := exclusive.apart
  free := fun context request inherited pid found =>
    keeps _ (exclusive.free context request inherited pid found)
  intact := exclusive.intact

lemma Exclusive.publish {pid : Nat} {request : Request} {inherited : Inherited}
    (found : kernel.phase context = .allocated request inherited pid) (process : Process) :
    Exclusive { kernel.setPhase context .idle with table := kernel.table.write pid process } := by
  have idle : Exclusive (kernel.setPhase context .idle) :=
    exclusive.setPhase (by simp [Phase.pid?]) (by simp)
  constructor
  case apart => exact idle.apart
  case free =>
    intro other otherRequest otherInherited otherPid otherFound
    have different : other ≠ context := by
      intro same
      subst other
      have impossible := (setPhase_same kernel context .idle).symm.trans otherFound
      cases impossible
    have otherBefore : kernel.phase other = .allocated otherRequest otherInherited otherPid :=
      (setPhase_other kernel .idle different).symm.trans otherFound
    have elsewhere : idxOf otherPid ≠ idxOf pid := exclusive.apart other context otherPid pid
      different (by rw [otherBefore]; rfl) (by rw [found]; rfl)
    simp only [slotOf, write_apply, elsewhere, if_false]
    exact exclusive.free other otherRequest otherInherited otherPid otherBefore
  case intact => exact exclusive.intact

lemma step_exclusive {next : Kernel} {action : Action}
    (fresh : SlotFresh kernel action) (stepped : kernel.step action = some next) :
    Exclusive next := by
  cases action with
  | request context request =>
    simp only [step] at stepped
    split at stepped
    · split at stepped <;> cases stepped
      · exact exclusive.setPhase (by simp [Phase.pid?]) (by simp)
      · exact exclusive
    · cases stepped
  | draw context =>
    simp only [step] at stepped
    split at stepped <;> cases stepped
    · exact exclusive.setPhase (by simp [Phase.pid?]) (by simp)
    · rename_i request inherited tries _
      have moved : Exclusive (kernel.setPhase context (.drawn request inherited tries kernel.nextPid)) := by
        refine exclusive.setPhase ?_ (by simp)
        intro pid drawn other otherPid _ otherHas
        simp only [Phase.pid?, Option.some.injEq] at drawn
        subst pid
        exact (fresh other otherPid otherHas).symm
      exact { moved with }
  | inspect context =>
    simp only [step] at stepped
    split at stepped
    · rename_i request inherited tries pid found
      have apart : ∀ drawnPid, some pid = some drawnPid → ∀ other otherPid, other ≠ context →
          (kernel.phase other).pid? = some otherPid → idxOf drawnPid ≠ idxOf otherPid := by
        intro drawnPid same other otherPid different otherHas
        cases same
        exact exclusive.apart context other pid otherPid different.symm
          (by rw [found]; rfl) otherHas
      split at stepped <;> cases stepped
      · rename_i slotFree
        refine exclusive.setPhase apart ?_
        intro _ _ _ same
        cases same
        exact slotFree
      · exact exclusive.setPhase (by simp [Phase.pid?]) (by simp)
    · cases stepped
  | abandon context =>
    simp only [step] at stepped
    split at stepped <;> cases stepped
    exact exclusive.setPhase (by simp [Phase.pid?]) (by simp)
  | publish context resources =>
    simp only [step] at stepped
    split at stepped
    · rename_i request inherited pid found
      have slotFree := exclusive.free context request inherited pid found
      simp only [slotFree, if_true, Option.some.injEq] at stepped
      subst next
      exact exclusive.publish found _
    · cases stepped
  | exit pid code =>
    cases stepped
    exact exclusive.keepsDead (kernel.table.markExited_keepsDead pid code)
  | waitpid pid | reapZombie pid | reapOneZombie parent | reapZombieChildren parent =>
    cases stepped
    exact exclusive.keepsDead (Table.Reaps.keepsDead (by simp))
  | setState pid state =>
    simp only [step] at stepped
    obtain ⟨held, rfl⟩ := of_guard stepped
    exact exclusive.keepsDead (setState_keepsDead held.1 state)

end

lemma boot_exclusive : Exclusive boot where
  apart := by simp [boot, Phase.pid?]
  free := by simp [boot]
  intact := rfl

theorem creation_exclusive (kernel : Kernel) (reached : system.Reachable SlotFresh kernel) :
    kernel.overwritten = [] ∧
      (∀ context request inherited pid, kernel.phase context = .allocated request inherited pid →
        (kernel.table.slotOf pid).state = .dead) ∧
      ∀ left right leftPid rightPid, left ≠ right →
        (kernel.phase left).pid? = some leftPid → (kernel.phase right).pid? = some rightPid →
        idxOf leftPid ≠ idxOf rightPid := by
  have exclusive : Exclusive kernel := by
    refine reached.invariant ?_ ?_
    · rintro _ rfl
      exact boot_exclusive
    · intro before action after holds fresh stepped
      exact step_exclusive holds fresh stepped
  exact ⟨exclusive.intact, exclusive.free, exclusive.apart⟩

theorem creation_exclusive_spawn :
    ∃ kernel, system.Reachable SlotFresh kernel ∧ (kernel.table 1).pid = 1 ∧
      (kernel.table 1).state = .running ∧ kernel.overwritten = [] := by
  have requested : system.Reachable SlotFresh
      (boot.setPhase 0 (.drawing (.spawn {}) {} maxProcs)) :=
    .step (.start rfl) (show SlotFresh boot (.request 0 (.spawn {})) from trivial) rfl
  have nobodyDrew : SlotFresh (boot.setPhase 0 (.drawing (.spawn {}) {} maxProcs)) (.draw 0) := by
    intro context pid drew
    by_cases here : context = 0
    · subst context
      cases drew
    · rw [setPhase_other _ _ here] at drew
      cases drew
  have drawn := Machine.Reachable.step requested nobodyDrew rfl
  have allocated := Machine.Reachable.step drawn (show SlotFresh _ (.inspect 0) from trivial) rfl
  have done := Machine.Reachable.step allocated (show SlotFresh _ (.publish 0 {}) from trivial) rfl
  exact ⟨_, done, rfl, rfl, (creation_exclusive _ done).1⟩

def failingSpawn (context : Nat) : List Action :=
  [.request context (.spawn {}), .draw context, .inspect context, .abandon context]

/-- Context 0 is slow to publish pid 1 while context 1 runs the counter round to pid 257. -/
def lappedSchedule : List Action :=
  [.request 0 (.spawn {}), .draw 0, .inspect 0] ++
    (List.replicate 255 (failingSpawn 1)).flatten ++
    [.request 1 (.spawn {}), .draw 1, .inspect 1, .publish 0 {}, .publish 1 {}]

theorem creation_overwrites :
    ∃ kernel, system.Reachable Runs.anyStep kernel ∧
      kernel.overwritten.map (fun process => (process.pid, process.state)) = [(1, .running)] ∧
      (kernel.table 1).pid = 257 := by
  have ran : (system.run boot lappedSchedule).map (fun kernel =>
      (kernel.overwritten.map fun process => (process.pid, process.state),
        (kernel.table 1).pid)) = some ([(1, .running)], 257) := by
    decide +kernel
  obtain ⟨kernel, reached, facts⟩ := Option.map_eq_some_iff.mp ran
  simp only [Prod.mk.injEq] at facts
  exact ⟨kernel, Machine.run_reachable (.start rfl) reached, facts⟩

end OsCortex.Creation
