import OsCortex.Syscall.PipeChecks

/-!
The calls of `syscall/handlers/fd.rs` that take and give back descriptors, by several threads at
once. One step is one critical section.
-/

namespace OsCortex.Descriptor

open List Function Option

variable {state next : State} {thread fd pipe : Nat}

inductive Phase where
  | idle
  /-- `sys_pipe2` has its buffer and no descriptors. -/
  | reserved (pipe : Nat)
  /-- `sys_close` has taken the pipe out of the slot. -/
  | closing (fd pipe : Nat) (isWrite : Bool)
  /-- `sys_close` has given back its reference. -/
  | clearing (fd : Nat)
  deriving DecidableEq

/-- With what the callers know: the file or pipe end each returned descriptor is for, with the
number of times its buffer had been set up, until a close of the descriptor starts. -/
structure Table where
  state : State := {}
  phase : Nat → Phase := fun _ => .idle
  issued : Nat → Option (OpenFile × Nat) := fun _ => none
  setUps : Nat → Nat := fun _ => 0

inductive Section where
  | openPath (lookup : Lookup)
  | reserve (pipefd : Nat)
  | takeFds
  | close (fd : Nat)
  | release
  | clear

def Table.setPhase (table : Table) (thread : Nat) (phase : Phase) : Table :=
  { table with phase := Function.update table.phase thread phase }

def Table.setUpsOf (table : Table) (file : OpenFile) : Nat :=
  match file.pipeId with
  | none => 0
  | some pipe => table.setUps pipe

def Table.issue (table : Table) (fd : Nat) : Table :=
  let file := table.state.files fd
  { table with issued := Function.update table.issued fd (some (file, table.setUpsOf file)) }

def Table.openPath (table : Table) (thread : Nat) (lookup : Lookup) : Table :=
  let (next, reply) := table.state.sysOpen thread lookup
  let after := { table with state := next }
  if reply.code < 0 then after else after.issue reply.code.toNat

def Table.reserve (table : Table) (thread pipefd : Nat) : Table :=
  match if pipefd = 0 then none else table.state.freePipe with
  | none => table
  | some pipe =>
    let fresh :=
      { table.state.pipes pipe with head := 0, tail := 0, len := 0, rRefs := 1, wRefs := 1 }
    { table.setPhase thread (.reserved pipe) with
      state := table.state.setPipe pipe fresh
      setUps := Function.update table.setUps pipe (table.setUps pipe + 1) }

def Table.takeFds (table : Table) (thread pipe : Nat) : Table :=
  let readEnd : OpenFile := { used := true, pipeId := some pipe }
  let rolledBack := { table.state.pipes pipe with rRefs := 0, wRefs := 0 }
  let idle := table.setPhase thread .idle
  match table.state.freeFds with
  | readFd :: writeFd :: _ =>
    let taken := (table.state.take thread readFd readEnd).take thread writeFd
      { readEnd with pipeIsWrite := true }
    (Table.issue { idle with state := taken } readFd).issue writeFd
  | readFd :: [] =>
    { idle with
      state := (table.state.setPipe pipe rolledBack).setFile readFd
        { readEnd with used := false, pipeId := none } }
  | [] => { idle with state := table.state.setPipe pipe rolledBack }

def OpenFile.cleared (file : OpenFile) : OpenFile :=
  { file with used := false, data := [], offset := 0 }

def Table.close (table : Table) (thread fd : Nat) : Table :=
  let table := { table with issued := Function.update table.issued fd none }
  let file := table.state.files fd
  if fd < 3 ∨ maxOpenFiles ≤ fd ∨ file.used = false then table
  else
    match file.pipeId with
    | none => { table with state := table.state.setFile fd file.cleared }
    | some pipe =>
      { table.setPhase thread (.closing fd pipe file.pipeIsWrite) with
        state := table.state.setFile fd { file with pipeId := none } }

def PipeBuf.dropRef (ends : PipeBuf) (isWrite : Bool) : PipeBuf :=
  if isWrite then { ends with wRefs := ends.wRefs - 1 } else { ends with rRefs := ends.rRefs - 1 }

def Table.release (table : Table) (thread fd pipe : Nat) (isWrite : Bool) : Table :=
  { table.setPhase thread (.clearing fd) with
    state := table.state.setPipe pipe ((table.state.pipes pipe).dropRef isWrite) }

def Table.clear (table : Table) (thread fd : Nat) : Table :=
  { table.setPhase thread .idle with
    state := table.state.setFile fd (table.state.files fd).cleared }

def sections : Runs.Machine Table (Nat × Section) where
  start table := table = {}
  step table label :=
    match label.2, table.phase label.1 with
    | .openPath lookup, .idle => some (table.openPath label.1 lookup)
    | .reserve pipefd, .idle => some (table.reserve label.1 pipefd)
    | .takeFds, .reserved pipe => some (table.takeFds label.1 pipe)
    | .close fd, .idle => some (table.close label.1 fd)
    | .release, .closing fd pipe isWrite => some (table.release label.1 fd pipe isWrite)
    | .clear, .clearing fd => some (table.clear label.1 fd)
    | _, _ => none

def Denotes (table : Table) : Prop :=
  ∀ fd file count, table.issued fd = some (file, count) →
    table.state.files fd = file ∧ file.used = true ∧ table.setUpsOf file = count

def Phase.closes : Phase → Option Nat
  | .closing fd _ _ | .clearing fd => some fd
  | .idle | .reserved _ => none

def Table.Busy (table : Table) (thread fd : Nat) : Prop := (table.phase thread).closes = some fd

def OneClose (table : Table) (label : Nat × Section) : Prop :=
  match label.2 with
  | .close fd => ∀ other, ¬ table.Busy other fd
  | .openPath _ | .reserve _ | .takeFds | .release | .clear => True

/-! Without other threads the sections make up the calls. -/

lemma close_uninterrupted (table : Table) (idle : table.phase thread = .idle) :
    let first := table.close thread fd
    (match first.phase thread with
      | .closing fd pipe isWrite => ((first.release thread fd pipe isWrite).clear thread fd).state
      | _ => first.state) = (table.state.sysClose fd).1 := by
  rw [Table.close, State.sysClose]
  dsimp only
  by_cases refused : fd < 3 ∨ maxOpenFiles ≤ fd ∨ (table.state.files fd).used = false
  · rw [if_pos refused, if_pos refused]
    simp [idle]
  rw [if_neg refused, if_neg refused]
  cases ofPipe : (table.state.files fd).pipeId with
  | none =>
    simp [idle, OpenFile.cleared, ofPipe]
  | some pipe =>
    simp [Table.release, Table.clear, Table.setPhase, State.setFile, State.setPipe,
      OpenFile.cleared, PipeBuf.dropRef]

lemma pipe2_uninterrupted (table : Table) (idle : table.phase thread = .idle) (pipefd : Nat) :
    let first := table.reserve thread pipefd
    (match first.phase thread with
      | .reserved pipe => (first.takeFds thread pipe).state
      | _ => first.state) = (table.state.sysPipe2 thread pipefd).1 := by
  rw [Table.reserve, State.sysPipe2]
  by_cases given : pipefd = 0
  · simp [given, idle]
  rw [if_neg given, if_neg given]
  cases free : table.state.freePipe with
  | none => simp only [idle]
  | some pipe =>
    simp only [Table.setPhase, update_self, Table.takeFds]
    have fds : ∀ buf, (table.state.setPipe pipe buf).freeFds = table.state.freeFds := fun _ => rfl
    rw [fds]
    rcases table.state.freeFds with _ | ⟨_, _ | ⟨_, _⟩⟩
    · simp [State.setPipe]
    · simp [State.setPipe]
    · simp [Table.issue, State.setPipe]

inductive Holder where
  | file (fd : Nat)
  | thread (thread : Nat)

def Phase.Holds (pipe : Nat) (isWrite : Bool) : Phase → Prop
  | .reserved fresh => fresh = pipe
  | .closing _ closed kind => closed = pipe ∧ kind = isWrite
  | .idle | .clearing _ => False

def Table.Held (table : Table) (pipe : Nat) (isWrite : Bool) : Holder → Prop
  | .file fd => OpenEnd table.state fd pipe isWrite
  | .thread thread => (table.phase thread).Holds pipe isWrite

structure Table.Counted (table : Table) : Prop where
  refs : ∀ pipe isWrite holder, table.Held pipe isWrite holder →
    (table.state.pipes pipe).refs isWrite = 1
  single : ∀ pipe isWrite one two, table.Held pipe isWrite one → table.Held pipe isWrite two →
    one = two

structure Table.Halves (table : Table) : Prop where
  half : ∀ thread fd, table.Busy thread fd →
    (table.state.files fd).used = true ∧ (table.state.files fd).pipeId = none ∧
      table.issued fd = none
  single : ∀ one two fd, table.Busy one fd → table.Busy two fd → one = two

variable {table after : Table}

lemma Table.Counted.moved (counted : table.Counted)
    (moved : ∀ pipe isWrite,
      (∀ holder, after.Held pipe isWrite holder → table.Held pipe isWrite holder ∧
        (after.state.pipes pipe).refs isWrite = (table.state.pipes pipe).refs isWrite) ∨
      ∃ only, ∀ holder, after.Held pipe isWrite holder → holder = only ∧
        (after.state.pipes pipe).refs isWrite = 1) : after.Counted where
  refs pipe isWrite holder held := by
    rcases moved pipe isWrite with same | ⟨only, one⟩
    · obtain ⟨before, refs⟩ := same holder held
      rw [refs]
      exact counted.refs pipe isWrite holder before
    · exact (one holder held).2
  single pipe isWrite one two first second := by
    rcases moved pipe isWrite with same | ⟨only, alone⟩
    · exact counted.single pipe isWrite one two (same one first).1 (same two second).1
    · rw [(alone one first).1, (alone two second).1]

lemma Table.Counted.free (counted : table.Counted) (free : table.state.freePipe = some pipe)
    {isWrite : Bool} {holder : Holder} : ¬ table.Held pipe isWrite holder := by
  intro held
  have refs := counted.refs pipe isWrite holder held
  have unused := find?_some free
  simp only [decide_eq_true_eq] at unused
  cases isWrite with
  | true => exact absurd (refs.symm.trans unused.2) (by decide)
  | false => exact absurd (refs.symm.trans unused.1) (by decide)

lemma Table.Halves.kept (halves : table.Halves)
    (older : ∀ thread fd, after.Busy thread fd → table.Busy thread fd ∧
      after.state.files fd = table.state.files fd ∧ after.issued fd = table.issued fd) :
    after.Halves where
  half thread fd busy := by
    obtain ⟨before, files, issued⟩ := older thread fd busy
    rw [files, issued]
    exact halves.half thread fd before
  single one two fd first second :=
    halves.single one two fd (older one fd first).1 (older two fd second).1

lemma Denotes.kept (denotes : Denotes table)
    (older : ∀ fd entry, after.issued fd = some entry → table.issued fd = some entry ∧
      after.state.files fd = table.state.files fd ∧
      after.setUpsOf entry.1 = table.setUpsOf entry.1) : Denotes after := by
  intro fd file count known
  obtain ⟨before, files, setUps⟩ := older fd (file, count) known
  rw [files, setUps]
  exact denotes fd file count before

lemma Denotes.issue (denotes : Denotes table) (used : (table.state.files fd).used) :
    Denotes (table.issue fd) := by
  intro other file count known
  by_cases here : other = fd
  · subst here
    simp only [Table.issue, update_self, some.injEq, Prod.mk.injEq] at known
    obtain ⟨rfl, rfl⟩ := known
    exact ⟨rfl, used, rfl⟩
  · simp only [Table.issue, update_of_ne here] at known
    exact denotes other file count known

variable {entry : OpenFile × Nat}

lemma Denotes.used (denotes : Denotes table)
    (known : table.issued fd = some entry) : (table.state.files fd).used := by
  obtain ⟨same, used, _⟩ := denotes fd entry.1 entry.2 known
  rw [same]
  exact used

variable {other : Nat}

lemma Denotes.ne (denotes : Denotes table) (unused : (table.state.files fd).used = false)
    (known : table.issued other = some entry) : other ≠ fd := by
  rintro rfl
  exact absurd ((denotes.used known).symm.trans unused) (by decide)

lemma Table.Halves.busy_ne (halves : table.Halves) (unused : (table.state.files fd).used = false)
    (busy : table.Busy thread other) : other ≠ fd := by
  rintro rfl
  exact absurd ((halves.half thread other busy).1.symm.trans unused) (by decide)

structure Table.Safe (table : Table) : Prop where
  counted : table.Counted
  halves : table.Halves
  denotes : Denotes table

lemma freeFds_unused (free : fd ∈ state.freeFds) : (state.files fd).used = false := by
  simpa using (mem_filter.1 free).2

lemma sysOpen_cases (state : State) (thread : Nat) (lookup : Lookup) :
    (∃ code, code < 0 ∧ state.sysOpen thread lookup = (state, { code })) ∨
    ∃ fd file, fd ∈ state.freeFds ∧ file.used ∧ file.pipeId = none ∧
      state.sysOpen thread lookup = (state.take thread fd file, { code := fd }) := by
  have alloc : ∀ file : OpenFile, file.used → file.pipeId = none →
      (∃ code, code < 0 ∧ state.fdAllocFile thread file = (state, { code })) ∨
      ∃ fd slot, fd ∈ state.freeFds ∧ slot.used ∧ slot.pipeId = none ∧
        state.fdAllocFile thread file = (state.take thread fd slot, { code := fd }) := by
    intro file used plain
    cases free : state.freeFds with
    | nil => exact .inl ⟨-23, by decide, by rw [State.fdAllocFile, free]⟩
    | cons fd rest =>
      refine .inr ⟨fd, file, mem_cons_self, used, plain, ?_⟩
      rw [State.fdAllocFile, free]
  cases lookup with
  | unreadable => exact .inl ⟨-14, by decide, rfl⟩
  | notUtf8 => exact .inl ⟨-22, by decide, rfl⟩
  | absent => exact .inl ⟨-2, by decide, rfl⟩
  | file data => exact alloc { data, used := true } rfl rfl
  | dir path => exact alloc { used := true, isDir := true, dirPath := path.take 192 } rfl rfl

variable {file : OpenFile}

lemma openEnd_take {isWrite : Bool} : OpenEnd (state.take thread fd file) other pipe isWrite ↔
      if other = fd then file.used ∧ file.pipeId = some pipe ∧ file.pipeIsWrite = isWrite
      else OpenEnd state other pipe isWrite := openEnd_setFile

lemma take_files (away : other ≠ fd) :
    (state.take thread fd file).files other = state.files other :=
  update_of_ne away _ _

lemma Table.Counted.setFile (counted : table.Counted)
    (threads : ∀ {pipe isWrite other}, after.Held pipe isWrite (.thread other) →
      table.Held pipe isWrite (.thread other))
    (files : after.state.files = update table.state.files fd file)
    (pipes : after.state.pipes = table.state.pipes)
    (plain : file.used = false ∨ file.pipeId = none) : after.Counted := by
  refine counted.moved fun pipe isWrite => .inl fun holder held => ⟨?_, by rw [pipes]⟩
  cases holder with
  | thread other => exact threads held
  | file other =>
    have opened := openEnd_iff.1 held
    rw [files, update_apply] at opened
    split at opened
    · rcases plain with unused | plain
      · exact absurd (unused.symm.trans opened.1) (by decide)
      · cases plain.symm.trans opened.2.1
    · exact openEnd_iff.2 opened

lemma Table.Safe.openPath (safe : table.Safe) (thread : Nat) (lookup : Lookup) :
    (table.openPath thread lookup).Safe := by
  rw [Table.openPath]
  rcases sysOpen_cases table.state thread lookup with ⟨_, failed, result⟩ |
    ⟨fd, file, free, used, plain, result⟩
  · simp only [result, if_pos failed]
    exact safe
  have unused := freeFds_unused free
  simp only [result, if_neg (Int.natCast_nonneg fd).not_gt, Int.toNat_natCast]
  refine ⟨safe.counted.setFile id rfl rfl (.inr plain),
    safe.halves.kept fun other busy held => ?_, Denotes.issue ?_ ?_⟩
  · have away := safe.halves.busy_ne unused held
    exact ⟨held, take_files away, update_of_ne away _ _⟩
  · exact safe.denotes.kept fun other entry known =>
      ⟨known, take_files (safe.denotes.ne unused known), rfl⟩
  · simpa [State.take] using used

lemma setUpsOf_eq (same : ∀ pipe, file.pipeId = some pipe → after.setUps pipe = table.setUps pipe) :
    after.setUpsOf file = table.setUpsOf file := by
  rw [Table.setUpsOf, Table.setUpsOf]
  cases ofPipe : file.pipeId with
  | none => rfl
  | some pipe => exact same pipe ofPipe

section

variable {phase : Phase} {isWrite : Bool}
  (changed : after.phase = Function.update table.phase thread phase)
include changed

lemma phase_cases {P : Phase → Prop} (holds : P (after.phase other)) :
    other = thread ∧ P phase ∨ other ≠ thread ∧ P (table.phase other) := by
  rw [changed] at holds
  by_cases here : other = thread
  · subst here
    rw [update_self] at holds
    exact .inl ⟨rfl, holds⟩
  · rw [update_of_ne here] at holds
    exact .inr ⟨here, holds⟩

lemma busy_setPhase (busy : after.Busy other fd) :
    other = thread ∧ phase.closes = some fd ∨ other ≠ thread ∧ table.Busy other fd :=
  phase_cases (P := (Phase.closes · = some fd)) changed busy

lemma held_setPhase (held : after.Held pipe isWrite (.thread other)) :
    other = thread ∧ phase.Holds pipe isWrite ∨
      other ≠ thread ∧ table.Held pipe isWrite (.thread other) :=
  phase_cases (P := Phase.Holds pipe isWrite) changed held

lemma busy_older (none : phase.closes = none) (busy : after.Busy other fd) :
    other ≠ thread ∧ table.Busy other fd := by
  rcases busy_setPhase changed busy with ⟨_, closes⟩ | older
  · cases none.symm.trans closes
  · exact older

lemma held_older (none : ¬ phase.Holds pipe isWrite)
    (held : after.Held pipe isWrite (.thread other)) :
    other ≠ thread ∧ table.Held pipe isWrite (.thread other) :=
  (held_setPhase changed held).resolve_left fun new => none new.2

end

lemma Table.Counted.takeFds {readFd writeFd : Nat} (counted : table.Counted)
    (phase : table.phase thread = .reserved pipe)
    (changed : after.phase = update table.phase thread .idle)
    (taken : after.state =
      (table.state.take thread readFd { used := true, pipeId := some pipe }).take thread writeFd
        { used := true, pipeId := some pipe, pipeIsWrite := true }) :
    after.Counted := by
  have pipes : after.state.pipes = table.state.pipes := by
    rw [taken]
    rfl
  have mine : ∀ isWrite, table.Held pipe isWrite (.thread thread) := by
    intro isWrite
    rw [Table.Held, phase]
    rfl
  have cases : ∀ other isWrite holder, after.Held other isWrite holder →
      other = pipe ∧ holder = .file (if isWrite then writeFd else readFd) ∨
        holder ≠ .thread thread ∧ table.Held other isWrite holder := by
    intro other isWrite holder held
    cases holder with
    | thread one =>
      obtain ⟨away, before⟩ := held_older changed id held
      exact .inr ⟨fun same => away (Holder.thread.inj same), before⟩
    | file fd =>
      rw [Table.Held, taken, openEnd_take, openEnd_take] at held
      iterate 2
        split at held
        · rename_i here
          obtain ⟨_, same, kind⟩ := held
          exact .inl ⟨(some.inj same).symm, by rw [← kind, here]; rfl⟩
      · exact .inr ⟨nofun, held⟩
  refine counted.moved fun other isWrite => ?_
  by_cases here : other = pipe
  · subst here
    refine .inr ⟨.file (if isWrite then writeFd else readFd), fun holder held => ⟨?_, ?_⟩⟩
    · rcases cases other isWrite holder held with ⟨_, same⟩ | ⟨away, before⟩
      · exact same
      · exact absurd (counted.single other isWrite _ _ before (mine isWrite)) away
    · rw [pipes]
      exact counted.refs other isWrite _ (mine isWrite)
  refine .inl fun holder held => ?_
  rcases cases other isWrite holder held with ⟨same, _⟩ | ⟨_, before⟩
  · exact absurd same here
  · rw [pipes]
    exact ⟨before, rfl⟩

lemma issued_forgotten (known : update table.issued fd none other = some entry) :
    other ≠ fd ∧ table.issued other = some entry := by
  by_cases here : other = fd
  · subst here
    rw [update_self] at known
    cases known
  · rw [update_of_ne here] at known
    exact ⟨here, known⟩

lemma Table.Counted.close (counted : table.Counted) {isWrite : Bool}
    (opened : OpenEnd table.state fd pipe isWrite)
    (changed : after.phase = update table.phase thread (.closing fd pipe isWrite))
    (removed : after.state = table.state.setFile fd file) (plain : file.pipeId = none) :
    after.Counted := by
  have pipes : after.state.pipes = table.state.pipes := by
    rw [removed]
    rfl
  have cases : ∀ other kind holder, after.Held other kind holder →
      holder = .thread thread ∧ pipe = other ∧ isWrite = kind ∨
        holder ≠ .file fd ∧ table.Held other kind holder := by
    intro other kind holder held
    cases holder with
    | thread one =>
      rcases held_setPhase changed held with ⟨rfl, same⟩ | ⟨_, before⟩
      · exact .inl ⟨rfl, same⟩
      · exact .inr ⟨nofun, before⟩
    | file one =>
      rw [Table.Held, removed, openEnd_setFile] at held
      split at held
      · rw [plain] at held
        cases held.2.1
      · rename_i away
        exact .inr ⟨fun same => away (Holder.file.inj same), held⟩
  refine counted.moved fun other kind => ?_
  by_cases here : pipe = other ∧ isWrite = kind
  · obtain ⟨rfl, rfl⟩ := here
    refine .inr ⟨.thread thread, fun holder held => ⟨?_, ?_⟩⟩
    · rcases cases pipe isWrite holder held with ⟨same, _⟩ | ⟨away, before⟩
      · exact same
      · exact absurd (counted.single pipe isWrite _ (.file fd) before opened) away
    · rw [pipes]
      exact counted.refs pipe isWrite (.file fd) opened
  refine .inl fun holder held => ?_
  rcases cases other kind holder held with ⟨_, same⟩ | ⟨_, before⟩
  · exact absurd same here
  · rw [pipes]
    exact ⟨before, rfl⟩

lemma Table.Halves.close (halves : table.Halves) (alone : ∀ other, ¬ table.Busy other fd)
    {isWrite : Bool}
    (changed : after.phase = update table.phase thread (.closing fd pipe isWrite))
    (removed : after.state = table.state.setFile fd file) (used : file.used)
    (plain : file.pipeId = none) (forgotten : after.issued fd = none)
    (others : ∀ other, other ≠ fd → after.issued other = table.issued other) : after.Halves := by
  have cases : ∀ one slot, after.Busy one slot →
      one = thread ∧ slot = fd ∨ slot ≠ fd ∧ table.Busy one slot := by
    intro one slot busy
    rcases busy_setPhase changed busy with ⟨rfl, closes⟩ | ⟨_, before⟩
    · exact .inl ⟨rfl, (some.inj closes).symm⟩
    · exact .inr ⟨fun same => alone one (same ▸ before), before⟩
  refine ⟨fun one slot busy => ?_, fun one two slot first second => ?_⟩
  · rw [removed]
    rcases cases one slot busy with ⟨_, rfl⟩ | ⟨away, before⟩
    · rw [setFile_files]
      exact ⟨used, plain, forgotten⟩
    rw [others slot away, State.setFile]
    dsimp only
    rw [update_of_ne away]
    exact halves.half one slot before
  rcases cases one slot first with ⟨same, here⟩ | ⟨away, before⟩
  · rcases cases two slot second with ⟨also, _⟩ | ⟨away, _⟩
    · rw [same, also]
    · exact absurd here away
  rcases cases two slot second with ⟨_, here⟩ | ⟨_, also⟩
  · exact absurd here away
  · exact halves.single one two slot before also

lemma Table.Safe.start : Table.Safe {} where
  counted := by
    refine ⟨fun pipe isWrite holder held => ?_, fun pipe isWrite one two held => ?_⟩
    · cases holder with
      | file fd => exact absurd held.1 nofun
      | thread thread => exact held.elim
    cases one with
    | file fd => exact absurd held.1 nofun
    | thread thread => exact held.elim
  halves := ⟨fun _ _ busy => (nomatch busy), fun _ _ _ busy => (nomatch busy)⟩
  denotes _ _ _ known := nomatch known

section

variable (safe : table.Safe)
include safe

lemma Table.Safe.reserve (thread pipefd : Nat) :
    (table.reserve thread pipefd).Safe := by
  rw [Table.reserve]
  split
  · exact safe
  rename_i fresh found
  split at found
  · cases found
  have free := @Table.Counted.free _ _ safe.counted found
  refine ⟨safe.counted.moved fun pipe isWrite => ?_, safe.halves.kept fun other fd busy => ?_,
    safe.denotes.kept fun fd entry known => ⟨known, rfl, ?_⟩⟩
  · by_cases here : pipe = fresh
    · subst here
      refine .inr ⟨.thread thread, fun holder held => ⟨?_, ?_⟩⟩
      · cases holder with
        | file fd => exact absurd held (@free isWrite (.file fd))
        | thread other =>
          rcases held_setPhase rfl held with ⟨rfl, _⟩ | ⟨_, before⟩
          · rfl
          · exact absurd before free
      · cases isWrite <;> simp [State.setPipe, PipeBuf.refs]
    refine .inl fun holder held => ⟨?_, ?_⟩
    · cases holder with
      | file fd => exact held
      | thread other =>
        rcases held_setPhase rfl held with ⟨_, same⟩ | ⟨_, before⟩
        · exact absurd same.symm here
        · exact before
    · simp [State.setPipe, here]
  · exact ⟨(busy_older rfl rfl busy).2, rfl, rfl⟩
  refine setUpsOf_eq fun pipe ofPipe => ?_
  obtain ⟨same, used, _⟩ := safe.denotes fd entry.1 entry.2 known
  refine update_of_ne ?_ _ _
  rintro rfl
  refine @free entry.1.pipeIsWrite (.file fd) (openEnd_iff.2 ?_)
  rw [same]
  exact ⟨used, ofPipe, rfl⟩

lemma Table.Safe.rollBack {buf : PipeBuf} (phase : table.phase thread = .reserved pipe) :
    Table.Safe { table.setPhase thread .idle with state := table.state.setPipe pipe buf } := by
  refine ⟨safe.counted.moved fun other isWrite => ?_, safe.halves.kept fun other fd busy => ?_,
    safe.denotes.kept fun fd entry known => ⟨known, rfl, rfl⟩⟩
  · have mine : table.Held pipe isWrite (.thread thread) := by
      rw [Table.Held, phase]
      rfl
    by_cases here : other = pipe
    · subst here
      refine .inl fun holder held => ?_
      cases holder with
      | file fd => cases safe.counted.single other isWrite _ (.file fd) mine held
      | thread one =>
        obtain ⟨away, before⟩ := held_older rfl id held
        cases safe.counted.single other isWrite _ _ mine before
        exact absurd rfl away
    refine .inl fun holder held => ⟨?_, ?_⟩
    · cases holder with
      | file fd => exact held
      | thread one => exact (held_older rfl id held).2
    · simp [State.setPipe, here]
  exact ⟨(busy_older rfl rfl busy).2, rfl, rfl⟩

lemma Table.Safe.setUnused
    (unused : (table.state.files fd).used = false) (still : file.used = false) :
    Table.Safe { table with state := table.state.setFile fd file } := by
  refine ⟨safe.counted.setFile id rfl rfl (.inl still),
    safe.halves.kept fun thread other busy => ?_, safe.denotes.kept fun other entry known =>
      ⟨known, update_of_ne (safe.denotes.ne unused known) _ _, rfl⟩⟩
  have away := safe.halves.busy_ne unused busy
  exact ⟨busy, update_of_ne away _ _, rfl⟩

lemma Table.Safe.takeFds (phase : table.phase thread = .reserved pipe) :
    (table.takeFds thread pipe).Safe := by
  rw [Table.takeFds]
  split
  · rename_i readFd writeFd _ fds
    have unused : ∀ fd, fd = readFd ∨ fd = writeFd → (table.state.files fd).used = false := by
      intro fd either
      refine freeFds_unused ?_
      rw [fds]
      rcases either with rfl | rfl
      · exact mem_cons_self
      · exact mem_cons_of_mem _ mem_cons_self
    have used : ∀ fd, fd = readFd ∨ fd = writeFd → (((table.state.take thread readFd
        { used := true, pipeId := some pipe }).take thread writeFd
        { used := true, pipeId := some pipe, pipeIsWrite := true }).files fd).used := by
      intro fd either
      by_cases last : fd = writeFd
      · simp [State.take, State.setFile, last]
      · obtain rfl := either.resolve_right last
        simp [State.take, State.setFile, update_of_ne last]
    refine ⟨?_, safe.halves.kept fun other fd busy => ?_,
      Denotes.issue (Denotes.issue ?_ (used readFd (.inl rfl))) (used writeFd (.inr rfl))⟩
    · exact safe.counted.takeFds phase rfl rfl
    · have before := (busy_older rfl rfl busy).2
      have notRead := safe.halves.busy_ne (unused readFd (.inl rfl)) before
      have notWrite := safe.halves.busy_ne (unused writeFd (.inr rfl)) before
      refine ⟨before, (take_files notWrite).trans (take_files notRead), ?_⟩
      exact (update_of_ne notWrite _ _).trans (update_of_ne notRead _ _)
    refine safe.denotes.kept fun fd entry known => ⟨known, ?_, rfl⟩
    have away : ∀ new, new = readFd ∨ new = writeFd → fd ≠ new :=
      fun new either => safe.denotes.ne (unused new either) known
    exact (take_files (away writeFd (.inr rfl))).trans (take_files (away readFd (.inl rfl)))
  · rename_i readFd fds
    refine (@Table.Safe.rollBack _ _ table safe _ phase).setUnused (freeFds_unused ?_) rfl
    show readFd ∈ table.state.freeFds
    rw [fds]
    exact mem_cons_self
  · exact safe.rollBack phase

lemma Table.Safe.close (alone : ∀ other, ¬ table.Busy other fd) :
    (table.close thread fd).Safe := by
  rw [Table.close]
  split
  · refine ⟨⟨safe.counted.refs, safe.counted.single⟩, safe.halves.kept fun other slot busy => ?_,
      safe.denotes.kept fun other entry known => ⟨(issued_forgotten known).2, rfl, rfl⟩⟩
    have away : slot ≠ fd := fun same => alone other (same ▸ busy)
    exact ⟨busy, rfl, update_of_ne away _ _⟩
  rename_i inside
  have used : (table.state.files fd).used := by
    simpa using (not_or.1 (not_or.1 inside).2).2
  split
  · refine ⟨safe.counted.setFile id rfl rfl (.inl rfl), safe.halves.kept fun other slot busy => ?_,
      safe.denotes.kept fun other entry known => ?_⟩
    · have away : slot ≠ fd := fun same => alone other (same ▸ busy)
      exact ⟨busy, update_of_ne away _ _, update_of_ne away _ _⟩
    · obtain ⟨away, before⟩ := issued_forgotten known
      exact ⟨before, update_of_ne away _ _, rfl⟩
  rename_i ofPipe
  refine ⟨safe.counted.close (openEnd_iff.2 ⟨used, ofPipe, rfl⟩) rfl rfl rfl, ?_,
    safe.denotes.kept fun other entry known => ?_⟩
  · exact safe.halves.close alone rfl rfl used rfl (update_self _ _ _)
      (fun _ away => update_of_ne away _ _)
  · obtain ⟨away, before⟩ := issued_forgotten known
    exact ⟨before, update_of_ne away _ _, rfl⟩

lemma Table.Safe.release {isWrite : Bool} (phase : table.phase thread = .closing fd pipe isWrite) :
    (table.release thread fd pipe isWrite).Safe := by
  have mine : table.Held pipe isWrite (.thread thread) := by
    rw [Table.Held, phase]
    exact ⟨rfl, rfl⟩
  refine ⟨safe.counted.moved fun other kind => .inl fun holder held => ?_,
    safe.halves.kept fun other slot held => ⟨?_, rfl, rfl⟩,
    safe.denotes.kept fun fd entry known => ⟨known, rfl, rfl⟩⟩
  · have before : table.Held other kind holder ∧ holder ≠ .thread thread := by
      cases holder with
      | file fd => exact ⟨held, nofun⟩
      | thread one =>
        obtain ⟨away, before⟩ := held_older rfl id held
        exact ⟨before, fun same => away (Holder.thread.inj same)⟩
    refine ⟨before.1, ?_⟩
    by_cases here : other = pipe
    · subst here
      have differs : kind ≠ isWrite := by
        rintro rfl
        exact before.2 (safe.counted.single other kind _ _ before.1 mine)
      simp only [Table.release, setPipe_pipes, PipeBuf.dropRef, PipeBuf.refs]
      cases kind <;> cases isWrite <;> simp at differs ⊢
    · simp [Table.release, State.setPipe, here]
  rcases busy_setPhase rfl held with ⟨rfl, closes⟩ | ⟨_, before⟩
  · rw [Table.Busy, phase]
    exact closes
  · exact before

lemma Table.Safe.clear (phase : table.phase thread = .clearing fd) :
    (table.clear thread fd).Safe := by
  have busy : table.Busy thread fd := by rw [Table.Busy, phase]; rfl
  obtain ⟨_, _, unissued⟩ := safe.halves.half thread fd busy
  refine ⟨safe.counted.setFile (fun held => (held_older rfl id held).2) rfl rfl (.inl rfl),
    safe.halves.kept fun other slot held => ?_,
    safe.denotes.kept fun other entry known => ⟨known, update_of_ne ?_ _ _, rfl⟩⟩
  · obtain ⟨differs, before⟩ := busy_older rfl rfl held
    have away : slot ≠ fd := by
      rintro rfl
      exact differs (safe.halves.single other thread slot before busy)
    exact ⟨before, update_of_ne away _ _, rfl⟩
  · rintro rfl
    cases known.symm.trans unissued

lemma Table.Safe.step {label : Nat × Section} (alone : OneClose table label)
    (taken : sections.step table label = some after) : after.Safe := by
  obtain ⟨thread, _⟩ := label
  simp only [sections] at taken
  split at taken <;> cases taken
  · exact safe.openPath thread _
  · exact safe.reserve thread _
  · rename_i phase
    exact safe.takeFds phase
  · exact safe.close alone
  · rename_i phase
    exact safe.release phase
  · rename_i phase
    exact safe.clear phase

end

theorem descriptors_denote (reached : sections.Reachable OneClose table) : Denotes table := by
  have safe : table.Safe := by
    refine reached.invariant ?_ fun _ _ _ safe alone taken => safe.step alone taken
    rintro _ rfl
    exact Table.Safe.start
  exact safe.denotes

theorem descriptors_denote_after_close : ∃ table, sections.Reachable OneClose table ∧
    table.issued 3 = none ∧ table.issued 5 = some ({ data := [7], used := true }, 0) ∧
    Denotes table := by
  have reserved : sections.Reachable OneClose (({} : Table).reserve 1 1) :=
    .step (.start rfl) (show OneClose {} (1, .reserve 1) from trivial) rfl
  have piped : sections.Reachable OneClose ((({} : Table).reserve 1 1).takeFds 1 0) :=
    .step reserved (show OneClose _ (1, .takeFds) from trivial) rfl
  have opened : sections.Reachable OneClose
      (((({} : Table).reserve 1 1).takeFds 1 0).openPath 2 (.file [7])) :=
    .step piped (show OneClose _ (2, .openPath (.file [7])) from trivial) rfl
  have alone : OneClose (((({} : Table).reserve 1 1).takeFds 1 0).openPath 2 (.file [7]))
      (1, .close 3) := by
    intro other busy
    have idle : (((({} : Table).reserve 1 1).takeFds 1 0).openPath 2 (.file [7])).phase =
        update (update (fun _ => .idle) 1 (.reserved 0)) 1 .idle := rfl
    rw [Table.Busy, idle, update_idem, update_eq_self_iff.2 rfl] at busy
    cases busy
  have closing := Runs.Machine.Reachable.step opened alone rfl
  have released :=
    Runs.Machine.Reachable.step closing (show OneClose _ (1, .release) from trivial) rfl
  have cleared :=
    Runs.Machine.Reachable.step released (show OneClose _ (1, .clear) from trivial) rfl
  exact ⟨_, cleared, rfl, rfl, descriptors_denote cleared⟩

theorem late_clear_frees_file : ∃ table, sections.Reachable Runs.anyStep table ∧
    table.issued 3 = some ({ data := [7], used := true }, 0) ∧
    (table.state.files 3).used = false ∧ ¬ Denotes table := by
  -- thread 1 is in the middle of its close when thread 2 closes the same slot and thread 3 takes it
  have ran : (sections.run {} [(1, .reserve 1), (1, .takeFds), (1, .close 3), (2, .close 3),
      (3, .openPath (.file [7])), (1, .release), (1, .clear)]).map
      (fun table => (table.issued 3, (table.state.files 3).used)) =
      some (some ({ data := [7], used := true }, 0), false) := by decide +kernel
  obtain ⟨table, reached, seen⟩ := Runs.Machine.run_view _ rfl ran
  obtain ⟨issued, freed⟩ := Prod.mk.inj seen
  refine ⟨table, reached, issued, freed, fun denotes => ?_⟩
  exact absurd ((denotes.used issued).symm.trans freed) (by decide)

/-- An end of a pipe belongs to one descriptor, or to the one thread that makes or closes it, and
is counted once. -/
theorem pipe_ends_counted (reached : sections.Reachable OneClose table) : table.Counted := by
  have safe : table.Safe := by
    refine reached.invariant ?_ fun _ _ _ safe alone taken => safe.step alone taken
    rintro _ rfl
    exact Table.Safe.start
  exact safe.counted

theorem reserved_end_counted : ∃ table, sections.Reachable OneClose table ∧
    table.Held 0 true (.thread 1) ∧ table.Counted := by
  have reached : sections.Reachable OneClose (({} : Table).reserve 1 1) :=
    .step (.start rfl) (show OneClose {} (1, .reserve 1) from trivial) rfl
  exact ⟨_, reached, rfl, pipe_ends_counted reached⟩

end OsCortex.Descriptor
