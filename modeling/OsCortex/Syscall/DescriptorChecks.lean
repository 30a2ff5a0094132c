import OsCortex.Syscall.DescriptorCore

/-! Descriptors have no owner, and an exit leaves every descriptor in use. -/

namespace OsCortex.Descriptor

open List State PipeBuf

variable {state : State} {caller fd : Nat}

def Call.target : Call → Option Nat
  | .read fd _ _ => some fd
  | .write fd _ _ => some fd
  | .lseek fd _ _ => some fd
  | .close fd => some fd
  | _ => none

def Foreign (state : State) (caller fd : Nat) : Prop :=
  (state.files fd).used = true ∧ state.opener fd ≠ caller

structure Spared (before after : State) (reply : Reply) (fd : Nat) : Prop where
  file : after.files fd = before.files fd
  pipe : ∀ pipe, (before.files fd).pipeId = some pipe → after.pipes pipe = before.pipes pipe
  delivered : reply.delivered = []

def NothingToRead (state : State) (file : OpenFile) : Prop :=
  match file.pipeId with
  | some pipe => file.pipeIsWrite = true ∨ (state.pipes pipe).len = 0
  | none => file.data.length ≤ file.offset

def NoRoom (state : State) (file : OpenFile) : Prop :=
  match file.pipeId with
  | some pipe => file.pipeIsWrite = false ∨ (state.pipes pipe).rRefs = 0 ∨
      pipeBufSize ≤ (state.pipes pipe).len
  | none => True

def Inert (state : State) : Call → Prop
  | .read fd buf len => len = 0 ∨ buf = 0 ∨ maxOpenFiles ≤ fd ∨ NothingToRead state (state.files fd)
  | .write fd buf src =>
    src = [] ∨ badBuffer buf src.length = true ∨ fd < 3 ∨ maxOpenFiles ≤ fd ∨
      NoRoom state (state.files fd)
  | .lseek fd offset whence =>
    fd < 3 ∨ maxOpenFiles ≤ fd ∨
      ∀ target, newOffset (state.files fd) offset whence = some target →
        target < 0 ∨ target = (state.files fd).offset
  | .close fd => fd < 3 ∨ maxOpenFiles ≤ fd
  | _ => True

@[simp] lemma Spared.refl (state : State) (code : Int) : Spared state state { code } fd :=
  ⟨rfl, fun _ _ => rfl, rfl⟩

@[simp] lemma setFile_files (file : OpenFile) : (state.setFile fd file).files fd = file := by
  simp [State.setFile]

@[simp] lemma setPipe_pipes (pipe : Nat) (value : PipeBuf) :
    (state.setPipe pipe value).pipes pipe = value := by
  simp [setPipe]

lemma pop_length (count : Nat) (pipe : PipeBuf) : (pop count pipe).2.length = count := by
  induction count generalizing pipe with
  | zero => rfl
  | succ count ih => simp [pop, ih]

lemma push_len (bytes : List UInt8) (pipe : PipeBuf) : (bytes.foldl push pipe).len = pipe.len := by
  induction bytes generalizing pipe with
  | nil => rfl
  | cons byte rest ih => rw [foldl_cons, ih, push]

lemma sysRead_spared (buf len : Nat) (used : (state.files fd).used) :
    Spared state (state.sysRead fd buf len).1 (state.sysRead fd buf len).2 fd ↔
      Inert state (.read fd buf len) := by
  simp only [Inert, sysRead]
  by_cases empty : len = 0
  · simp [empty]
  by_cases null : buf = 0
  · simp [empty, null]
  by_cases high : maxOpenFiles ≤ fd
  · simp [empty, null, high]
  simp only [empty, null, high, used, Bool.true_eq_false, or_self, if_false, false_or, NothingToRead]
  cases kind : (state.files fd).pipeId with
  | some pipe =>
    by_cases writeEnd : (state.files fd).pipeIsWrite
    · simp [writeEnd]
    by_cases drained : (state.pipes pipe).len = 0
    · simp [writeEnd, drained]
    simp only [writeEnd, drained, if_false, or_self, iff_false, Bool.false_eq_true]
    intro spared
    have none := congrArg length spared.delivered
    simp only [pop_length, length_nil] at none
    omega
  | none =>
    by_cases atEnd : (state.files fd).data.length ≤ (state.files fd).offset
    · simp [atEnd]
    simp only [atEnd, if_false, iff_false]
    intro spared
    have none := congrArg length spared.delivered
    simp only [length_take, length_drop, length_nil] at none
    omega

lemma sysWrite_spared (buf : Nat) (src : List UInt8) (used : (state.files fd).used) :
    Spared state (state.sysWrite fd buf src).1 (state.sysWrite fd buf src).2 fd ↔
      Inert state (.write fd buf src) := by
  simp only [Inert, sysWrite]
  by_cases high : maxOpenFiles ≤ fd
  · simp [high]
  by_cases low : fd < 3
  · have notLow : ¬ (3 ≤ fd ∧ (state.files fd).used) := by omega
    simp [high, notLow, low]
  have user : 3 ≤ fd ∧ (state.files fd).used := ⟨by omega, used⟩
  simp only [high, user, low, if_true, if_false, false_or, NoRoom, and_self]
  cases kind : (state.files fd).pipeId with
  | none =>
    simp
  | some pipe =>
    by_cases readEnd : (state.files fd).pipeIsWrite = false
    · simp [readEnd]
    by_cases bad : badBuffer buf src.length
    · simp [readEnd, bad]
    by_cases alone : (state.pipes pipe).rRefs = 0
    · simp [readEnd, bad, alone]
    simp only [readEnd, bad, alone, if_false, false_or, Bool.false_eq_true, Bool.true_eq_false]
    constructor
    · intro spared
      have sameLen := congrArg len (spared.pipe pipe kind)
      rw [setPipe_pipes] at sameLen
      simp only [push_len] at sameLen
      rw [← length_eq_zero_iff]
      omega
    intro nothing
    have none : min src.length (pipeBufSize - (state.pipes pipe).len) = 0 := by
      rw [← length_eq_zero_iff] at nothing
      omega
    refine ⟨rfl, fun other same => ?_, rfl⟩
    rw [kind, Option.some.injEq] at same
    subst same
    rw [setPipe_pipes, none]
    rfl

lemma sysLseek_spared (offset : Int) (whence : Nat) (used : (state.files fd).used) :
    Spared state (state.sysLseek fd offset whence).1 (state.sysLseek fd offset whence).2 fd ↔
      Inert state (.lseek fd offset whence) := by
  simp only [Inert, sysLseek]
  by_cases low : fd < 3
  · simp [low]
  by_cases high : maxOpenFiles ≤ fd
  · simp [high]
  simp only [low, high, used, Bool.true_eq_false, or_self, if_false, false_or]
  cases moved : newOffset (state.files fd) offset whence with
  | none =>
    simp
  | some target =>
    simp only [Option.some.injEq, forall_eq']
    by_cases negative : target < 0
    · simp [negative]
    simp only [negative, if_false, false_or]
    constructor
    · intro spared
      have same := congrArg OpenFile.offset spared.file
      rw [setFile_files] at same
      simp only at same
      omega
    intro same
    refine ⟨?_, fun _ _ => rfl, rfl⟩
    rw [setFile_files, same, Int.toNat_natCast, ← used]

lemma sysClose_spared (used : (state.files fd).used) :
    Spared state (state.sysClose fd).1 (state.sysClose fd).2 fd ↔ Inert state (.close fd) := by
  simp only [Inert, sysClose]
  by_cases low : fd < 3
  · simp [low]
  by_cases high : maxOpenFiles ≤ fd
  · simp [high]
  simp only [low, high, used, Bool.true_eq_false, or_self, if_false, iff_false]
  intro spared
  have stillUsed := congrArg OpenFile.used spared.file
  rw [used] at stillUsed
  cases kind : (state.files fd).pipeId <;> simp [kind, State.setFile, setPipe] at stillUsed

def Isolated (state : State) (caller : Nat) : Call → Prop
  | .exit => ∀ fd, ((state.perform caller .exit).1.files fd).used = true →
      (state.perform caller .exit).1.opener fd ≠ caller
  | call => ∀ fd, call.target = some fd → Foreign state caller fd →
      Spared state (state.perform caller call).1 (state.perform caller call).2 fd

def Allowed (state : State) (caller : Nat) : Call → Prop
  | .exit => ∀ fd, (state.files fd).used = true → state.opener fd ≠ caller
  | call => ∀ fd, call.target = some fd → Foreign state caller fd → Inert state call

lemma perform_spared {call : Call} (named : call.target = some fd) (used : (state.files fd).used) :
    Spared state (state.perform caller call).1 (state.perform caller call).2 fd ↔
      Inert state call := by
  cases call <;> cases named
  · exact sysRead_spared _ _ used
  · exact sysWrite_spared _ _ used
  · exact sysLseek_spared _ _ used
  · exact sysClose_spared used

lemma isolated_iff (state : State) (caller : Nat) (call : Call) :
    Isolated state caller call ↔ Allowed state caller call := by
  cases call with
  | exit => exact Iff.rfl
  | _ =>
    refine forall_congr' fun target => forall_congr' fun named => forall_congr' fun foreign => ?_
    exact perform_spared named foreign.1

def Keeps (before after : State) (caller : Nat) : Prop :=
  after.exited = before.exited ∧
    ∀ fd, (after.files fd).used = true →
      after.opener fd = caller ∨
        (before.files fd).used = true ∧ after.opener fd = before.opener fd

lemma Keeps.refl (state : State) (caller : Nat) : Keeps state state caller :=
  ⟨rfl, fun _ used => .inr ⟨used, rfl⟩⟩

lemma Keeps.trans {before middle after : State} (first : Keeps before middle caller)
    (second : Keeps middle after caller) : Keeps before after caller := by
  refine ⟨second.1.trans first.1, fun fd used => ?_⟩
  rcases second.2 fd used with own | ⟨usedBefore, same⟩
  · exact .inl own
  · rw [same]
    exact first.2 fd usedBefore

lemma Keeps.setPipe (state : State) (caller pipe : Nat) (value : PipeBuf) :
    Keeps state (state.setPipe pipe value) caller :=
  ⟨rfl, fun _ used => .inr ⟨used, rfl⟩⟩

lemma Keeps.setFile {file : OpenFile} (caller : Nat) (used : file.used → (state.files fd).used) :
    Keeps state (state.setFile fd file) caller := by
  refine ⟨rfl, fun other usedAfter => .inr ⟨?_, rfl⟩⟩
  by_cases here : other = fd
  · subst here
    rw [setFile_files] at usedAfter
    exact used usedAfter
  · simpa [State.setFile, here] using usedAfter

lemma Keeps.take (state : State) (caller fd : Nat) (file : OpenFile) :
    Keeps state (state.take caller fd file) caller := by
  refine ⟨rfl, fun other usedAfter => ?_⟩
  by_cases here : other = fd
  · subst here
    exact .inl (Function.update_self ..)
  simp only [State.take, State.setFile, ne_eq, here, not_false_eq_true,
    Function.update_of_ne] at usedAfter ⊢
  exact .inr ⟨usedAfter, trivial⟩

lemma Keeps.fdAllocFile (state : State) (caller : Nat) (file : OpenFile) :
    Keeps state (state.fdAllocFile caller file).1 caller := by
  simp only [State.fdAllocFile]
  split
  · exact .take state caller _ file
  · exact .refl state caller

lemma perform_keeps (state : State) (caller : Nat) {call : Call} (stays : call ≠ .exit) :
    Keeps state (state.perform caller call).1 caller := by
  cases call with
  | exit => exact absurd rfl stays
  | openPath lookup =>
    cases lookup with
    | unreadable | notUtf8 | absent => exact .refl state caller
    | file data | dir path => exact .fdAllocFile state caller _
  | pipe2 pipefd =>
    simp only [perform, sysPipe2]
    split
    · exact .refl state caller
    split
    · exact .refl state caller
    split
    · exact ((Keeps.setPipe ..).trans (Keeps.take ..)).trans (Keeps.take ..)
    · exact (Keeps.setPipe ..).trans (Keeps.setFile caller (by simp))
    · exact .setPipe ..
  | read fd buf len =>
    simp only [perform, sysRead]
    iterate 3
      split
      · exact .refl state caller
    split
    · split
      · exact .refl state caller
      split
      · exact .refl state caller
      · exact .setPipe ..
    split
    · exact .refl state caller
    · exact .setFile caller fun used => used
  | write fd buf src =>
    simp only [perform, sysWrite]
    split
    · exact .refl state caller
    split
    · split
      · exact .refl state caller
      iterate 3
        split
        · exact .refl state caller
      · exact .setPipe ..
    · exact .refl state caller
  | lseek fd offset whence =>
    simp only [perform, sysLseek]
    iterate 3
      split
      · exact .refl state caller
    · exact .setFile caller fun used => used
  | close fd =>
    simp only [perform, sysClose]
    split
    · exact .refl state caller
    have closed := @Keeps.setFile state fd { state.files fd with
      pipeId := none, used := false, data := [], offset := 0 } caller (by simp)
    split
    · exact closed
    · exact closed.trans (.setPipe ..)

def Clean (state : State) : Prop :=
  ∀ fd, (state.files fd).used = true → state.opener fd ∉ state.exited

lemma step_clean {call : Call} {next : State} (clean : Clean state)
    (allowed : Allowed state caller call) (taken : system.step state (caller, call) = some next) :
    Clean next := by
  simp only [system] at taken
  split at taken
  · cases taken
  rename_i running
  cases taken
  by_cases leaves : call = .exit
  · subst leaves
    intro fd used member
    rcases mem_cons.1 member with own | earlier
    · exact allowed fd used own
    · exact clean fd used earlier
  have keeps := perform_keeps state caller leaves
  intro fd used
  rw [keeps.1]
  rcases keeps.2 fd used with own | ⟨usedBefore, same⟩
  · rw [own]
    exact running
  · rw [same]
    exact clean fd usedBefore

theorem descriptors_isolated (state : State) :
    (∀ caller call, Isolated state caller call ↔ Allowed state caller call) ∧
      (system.Reachable (fun state label => Allowed state label.1 label.2) state → Clean state) := by
  refine ⟨isolated_iff state, fun reached => ?_⟩
  refine reached.invariant ?_ ?_
  · rintro _ rfl _ used
    cases used
  · exact fun _ _ _ clean allowed taken => step_clean clean allowed taken

theorem descriptors_isolated_open : ∃ state,
    system.Reachable (fun state label => Allowed state label.1 label.2) state ∧
      (state.files 3).used = true ∧ Clean state := by
  obtain ⟨state, opened, used⟩ : ∃ state,
      system.step {} (1, .openPath (.file [7, 8])) = some state ∧ (state.files 3).used = true :=
    ⟨_, rfl, rfl⟩
  have reached : system.Reachable (fun state label => Allowed state label.1 label.2) state := by
    refine .step (.start rfl) ?_ opened
    intro fd target
    cases target
  exact ⟨state, reached, used, (descriptors_isolated state).2 reached⟩

theorem foreign_descriptor_used :
    (∃ state, system.Reachable Runs.anyStep state ∧ Foreign state 2 3 ∧
      (state.perform 2 (.read 3 0x5000 1)).2.delivered = [7] ∧
      ((state.perform 2 (.lseek 3 1 0)).1.files 3).offset ≠ (state.files 3).offset ∧
      ((state.perform 2 (.close 3)).1.files 3).used = false) ∧
    ∃ state, system.Reachable Runs.anyStep state ∧ ¬ Clean state := by
  constructor
  · obtain ⟨state, ran, used, opener, reads, seeks, closes⟩ : ∃ state,
        system.run {} [(1, .openPath (.file [7, 8]))] = some state ∧
          (state.files 3).used = true ∧ state.opener 3 = 1 ∧
          (state.perform 2 (.read 3 0x5000 1)).2.delivered = [7] ∧
          ((state.perform 2 (.lseek 3 1 0)).1.files 3).offset ≠ (state.files 3).offset ∧
          ((state.perform 2 (.close 3)).1.files 3).used = false :=
      ⟨_, rfl, rfl, rfl, rfl, by decide, rfl⟩
    have foreign : Foreign state 2 3 := ⟨used, by rw [opener]; decide⟩
    exact ⟨state, Runs.Machine.run_reachable (.start rfl) ran, foreign, reads, seeks, closes⟩
  obtain ⟨state, ran, used, opener⟩ : ∃ state,
      system.run {} [(1, .openPath (.file [7, 8])), (1, .exit)] = some state ∧
        (state.files 3).used = true ∧ state.opener 3 ∈ state.exited :=
    ⟨_, rfl, rfl, by decide⟩
  exact ⟨state, Runs.Machine.run_reachable (.start rfl) ran, fun clean => clean 3 used opener⟩

end OsCortex.Descriptor
