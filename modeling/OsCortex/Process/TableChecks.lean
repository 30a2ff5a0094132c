import OsCortex.Process.TableCore

/-!
What each table operation does to every slot.
-/

namespace OsCortex

open Table Process

@[simp]
lemma Table.write_apply (table : Table) (pid idx : Nat) (process : Process) :
    table.write pid process idx = if idx = idxOf pid then process else table idx :=
  Function.update_apply ..

lemma Table.holds_iff {table : Table} {pid : Nat} :
    table.holds pid ↔ (table.slotOf pid).pid = pid ∧ (table.slotOf pid).state ≠ .dead := by
  simp [holds]

lemma Table.amend_apply {table : Table} {pid idx : Nat} {held : Prop} [Decidable held]
    (change : Process → Process) :
    (if held then table.write pid (change (table.slotOf pid)) else table) idx =
      if idx = idxOf pid ∧ held then change (table idx) else table idx := by
  by_cases here : idx = idxOf pid
  · subst idx
    split <;> simp [*, slotOf]
  · split <;> simp [here]

lemma Table.setState_apply (table : Table) (pid : Nat) (state : ProcState) (idx : Nat) :
    table.setState pid state idx =
      if idx = idxOf pid ∧ (table idx).pid = pid then { table idx with state } else table idx := by
  refine (amend_apply fun slot => { slot with state }).trans (if_congr ?_ rfl rfl)
  exact and_congr_right fun here => here ▸ Iff.rfl

lemma Table.setChildParent_apply (table : Table) (child parent idx : Nat) :
    table.setChildParent child parent idx =
      if idx = idxOf child ∧ (table idx).pid = child then { table idx with parentPid := parent }
      else table idx := by
  refine (amend_apply fun slot => { slot with parentPid := parent }).trans (if_congr ?_ rfl rfl)
  exact and_congr_right fun here => here ▸ Iff.rfl

lemma Table.markExited_apply (table : Table) (pid : Nat) (code : Int) (idx : Nat) :
    table.markExited pid code idx =
      if idx = idxOf pid ∧ table.holds pid then (table idx).exited code else table idx :=
  amend_apply (·.exited code)

lemma Table.allocPidFrom_free {table : Table} {fuel nextPid pid : Nat}
    (allocated : (table.allocPidFrom fuel nextPid).2 = some pid) :
    (table.slotOf pid).state = .dead := by
  induction fuel generalizing nextPid with
  | zero => cases allocated
  | succ fuel ih =>
    simp only [allocPidFrom] at allocated
    split at allocated
    · rename_i free
      cases allocated
      exact free
    · exact ih allocated

def Table.Reaps (before after : Table) : Prop :=
  ∀ idx, after idx = before idx ∨
    (before idx).state.isZombie = true ∧ after idx = Process.empty

lemma Table.write_empty_reaps {table : Table} {pid : Nat}
    (zombie : (table.slotOf pid).state.isZombie) :
    table.Reaps (table.write pid Process.empty) := by
  intro idx
  rw [write_apply]
  split
  · subst idx
    exact .inr ⟨zombie, rfl⟩
  · exact .inl rfl

@[simp]
lemma Table.waitpid_reaps (table : Table) (pid : Nat) : table.Reaps (table.waitpid pid).1 := by
  simp only [waitpid]
  split
  · exact fun _ => .inl rfl
  split
  · rename_i exited
    exact write_empty_reaps (by rw [exited]; rfl)
  · exact fun _ => .inl rfl

@[simp]
lemma Table.reapZombie_reaps (table : Table) (pid : Nat) : table.Reaps (table.reapZombie pid) := by
  simp only [reapZombie]
  split
  · rename_i found
    exact write_empty_reaps found.2
  · exact fun _ => .inl rfl

lemma Process.reapableBy_zombie {process : Process} {parent : Nat}
    (reapable : process.reapableBy parent) : process.state.isZombie := by
  simp only [reapableBy, Bool.and_eq_true] at reapable
  exact reapable.2

@[simp]
lemma Table.reapOneZombie_reaps (table : Table) (parent : Nat) :
    table.Reaps (table.reapOneZombie parent).1 := by
  simp only [reapOneZombie]
  split
  · rename_i found first
    have reapable : (table found).reapableBy parent := by
      simpa using List.find?_some first
    intro idx
    simp only [Function.update_apply]
    split
    · subst idx
      exact .inr ⟨reapableBy_zombie reapable, rfl⟩
    · exact .inl rfl
  · exact fun _ => .inl rfl

@[simp]
lemma Table.reapZombieChildren_reaps (table : Table) (parent : Nat) :
    table.Reaps (table.reapZombieChildren parent) := by
  intro idx
  simp only [reapZombieChildren]
  split
  · rename_i reaped
    exact .inr ⟨reapableBy_zombie reaped.2, rfl⟩
  · exact .inl rfl

def Table.KeepsDead (before after : Table) : Prop :=
  ∀ idx, (before idx).state = .dead → (after idx).state = .dead

lemma Table.Reaps.keepsDead {before after : Table} (reaps : before.Reaps after) :
    before.KeepsDead after := by
  intro idx dead
  rcases reaps idx with same | ⟨_, emptied⟩
  · rw [same]
    exact dead
  · rw [emptied]
    rfl

lemma Table.markExited_keepsDead (table : Table) (pid : Nat) (code : Int) :
    table.KeepsDead (table.markExited pid code) := by
  intro idx dead
  rw [markExited_apply]
  split
  · rename_i exited
    obtain ⟨_, holds⟩ := exited
    subst idx
    exact absurd dead (holds_iff.mp holds).2
  · exact dead

lemma Table.setState_keepsDead {table : Table} {pid : Nat} (holds : table.holds pid)
    (state : ProcState) : table.KeepsDead (table.setState pid state) := by
  intro idx dead
  rw [setState_apply]
  split
  · rename_i changed
    obtain ⟨_, _⟩ := changed
    subst idx
    exact absurd dead (holds_iff.mp holds).2
  · exact dead

section Blocked

variable {table : Table} {pid thread : Nat}

lemma Table.isBlocked_iff : table.isBlocked pid ↔
    (table.slotOf pid).pid = pid ∧ (table.slotOf pid).state = .blocked := by
  simp [isBlocked]

@[simp]
lemma Table.setState_pid (state : ProcState) (idx : Nat) :
    (table.setState pid state idx).pid = (table idx).pid := by
  rw [setState_apply]
  split <;> rfl

lemma Table.setState_isBlocked_other (state : ProcState) (other : thread ≠ pid) :
    (table.setState pid state).isBlocked thread = table.isBlocked thread := by
  simp only [isBlocked, slotOf, setState_apply]
  by_cases held : (table (idxOf thread)).pid = thread
  · rw [if_neg]
    rintro ⟨_, same⟩
    exact other (held.symm.trans same)
  have missing : ((table (idxOf thread)).pid == thread) = false := by simpa using held
  split
  · rw [missing]
    rfl
  · rw [missing]

lemma Table.setState_running_isBlocked :
    (table.setState pid .running).isBlocked thread ↔ thread ≠ pid ∧ table.isBlocked thread := by
  by_cases other : thread = pid
  · subst other
    simp only [isBlocked_iff, slotOf, setState_apply]
    by_cases held : (table (idxOf thread)).pid = thread <;> simp [held]
  · rw [setState_isBlocked_other _ other]
    exact ⟨fun blocked => ⟨other, blocked⟩, fun both => both.2⟩

lemma Table.markExited_other (code : Int) (held : (table.slotOf thread).pid = thread)
    (other : thread ≠ pid) : (table.markExited pid code).slotOf thread = table.slotOf thread := by
  simp only [slotOf, markExited_apply]
  rw [if_neg]
  rintro ⟨here, holds⟩
  have same := (holds_iff.1 holds).1
  rw [slotOf, ← here] at same
  exact other (held.symm.trans same)

lemma Table.markExited_isBlocked (code : Int) :
    (table.markExited pid code).isBlocked thread ↔ thread ≠ pid ∧ table.isBlocked thread := by
  by_cases other : thread = pid
  · subst other
    simp only [ne_eq, not_true_eq_false, false_and, iff_false]
    rw [isBlocked_iff, slotOf, markExited_apply]
    split
    · simp [exited]
    rename_i free
    rintro ⟨held, blocked⟩
    refine free ⟨rfl, holds_iff.2 ⟨held, ?_⟩⟩
    rw [slotOf, blocked]
    decide
  simp only [ne_eq, other, not_false_eq_true, true_and]
  by_cases held : (table.slotOf thread).pid = thread
  · simp [isBlocked, markExited_other code held other]
  have still : ((table.markExited pid code).slotOf thread).pid ≠ thread := by
    simp only [slotOf, markExited_apply]
    split <;> exact held
  rw [isBlocked_iff, isBlocked_iff]
  exact ⟨fun both => absurd both.1 still, fun both => absurd both.1 held⟩

end Blocked

end OsCortex
