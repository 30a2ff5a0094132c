import OsCortex.Lib.Circular
import OsCortex.Syscall.DescriptorChecks

/-!
What goes through a pipe. The journal keeps the bytes written to and read from each pipe since it
was last set up.
-/

namespace OsCortex.Descriptor

open List Function Option State PipeBuf Circular

variable {state next : State} {caller fd pipe : Nat} {bytes : List UInt8} {isWrite : Bool}

structure Journal where
  state : State := {}
  accepted : Nat → List UInt8 := fun _ => []
  delivered : Nat → List UInt8 := fun _ => []

def State.pipeOf (state : State) (fd : Nat) : Option Nat :=
  if (state.files fd).used then (state.files fd).pipeId else none

def Journal.after (journal : Journal) (call : Call) (next : State) (reply : Reply) : Journal :=
  match call with
  | .pipe2 pipefd =>
    match if pipefd = 0 then none else journal.state.freePipe with
    | none => { journal with state := next }
    | some pipe =>
      { state := next
        accepted := Function.update journal.accepted pipe []
        delivered := Function.update journal.delivered pipe [] }
  | .write fd _ src =>
    match journal.state.pipeOf fd with
    | none => { journal with state := next }
    | some pipe =>
      let took := src.take ((next.pipes pipe).len - (journal.state.pipes pipe).len)
      { journal with
        state := next
        accepted := Function.update journal.accepted pipe (journal.accepted pipe ++ took) }
  | .read fd _ _ =>
    match journal.state.pipeOf fd with
    | none => { journal with state := next }
    | some pipe =>
      { journal with
        state := next
        delivered := Function.update journal.delivered pipe
          (journal.delivered pipe ++ reply.delivered) }
  | .openPath _ | .lseek _ _ _ | .close _ | .exit => { journal with state := next }

def Journal.perform (journal : Journal) (caller : Nat) (call : Call) : Journal :=
  let (next, reply) := journal.state.perform caller call
  journal.after call next reply

def observed : Runs.Machine Journal (Nat × Call) where
  start journal := journal = {}
  step journal label :=
    if label.1 ∈ journal.state.exited then none else some (journal.perform label.1 label.2)

def OpenEnd (state : State) (fd pipe : Nat) (isWrite : Bool) : Prop :=
  state.pipeOf fd = some pipe ∧ (state.files fd).pipeIsWrite = isWrite

instance (isWrite : Bool) : Decidable (OpenEnd state fd pipe isWrite) :=
  inferInstanceAs (Decidable (_ ∧ _))

def InOrder (journal : Journal) : Prop :=
  ∀ pipe, journal.delivered pipe <+: journal.accepted pipe ∧
    (journal.accepted pipe).length ≤ (journal.delivered pipe).length + pipeBufSize

def WriteAnswers (journal after : Journal) (fd : Nat) (src : List UInt8) (code : Int) : Prop :=
  ∀ pipe, OpenEnd journal.state fd pipe true → ∃ took, took <+: src ∧
    after.accepted pipe = journal.accepted pipe ++ took ∧
    if took = [] then code < 0 else code = took.length

def ReadAnswers (journal after : Journal) (fd len : Nat) (reply : Reply) : Prop :=
  ∀ pipe, OpenEnd journal.state fd pipe false →
    after.delivered pipe = journal.delivered pipe ++ reply.delivered ∧
    (0 < reply.code → reply.code = reply.delivered.length) ∧
    (0 < len → reply.code = 0 → (∀ other, ¬ OpenEnd journal.state other pipe true) ∧
      journal.delivered pipe = journal.accepted pipe)

def PipeAnswers (journal after : Journal) : Prop :=
  ∀ fd pipe, journal.state.pipeOf fd = some pipe →
    after.state.pipes pipe = journal.state.pipes pipe ∧
      after.accepted pipe = journal.accepted pipe ∧ after.delivered pipe = journal.delivered pipe

def Answers (journal : Journal) (label : Nat × Call) : Prop :=
  let reply := (journal.state.perform label.1 label.2).2
  let after := journal.perform label.1 label.2
  match label.2 with
  | .write fd _ src => WriteAnswers journal after fd src reply.code
  | .read fd _ len => ReadAnswers journal after fd len reply
  | .pipe2 _ => PipeAnswers journal after
  | .openPath _ | .lseek _ _ _ | .close _ | .exit => True

instance : NeZero pipeBufSize := ⟨by decide⟩

def PipeBuf.cells (pipe : PipeBuf) (place : Fin pipeBufSize) : UInt8 := pipe.buf place

def PipeBuf.pending (pipe : PipeBuf) : List UInt8 := Circular.contents pipe.cells pipe.head pipe.len

structure PipeBuf.Sound (pipe : PipeBuf) : Prop where
  head : pipe.head < pipeBufSize
  tail : pipe.tail = (pipe.head + pipe.len) % pipeBufSize
  len : pipe.len ≤ pipeBufSize

lemma push_cells (buf : PipeBuf) (byte : UInt8) {place : Nat}
    (tail : buf.tail = place % pipeBufSize) :
    (buf.push byte).cells = update buf.cells (slot pipeBufSize place) byte := by
  funext cell
  have spot : (slot pipeBufSize place : Nat) = buf.tail := tail.symm
  by_cases here : cell = slot pipeBufSize place
  · subst here
    simp [cells, push, spot]
  · have apart : (cell : Nat) ≠ buf.tail := fun same => here (Fin.ext (same.trans spot.symm))
    simp [cells, push, update_of_ne here, update_of_ne apart]

lemma foldl_push (buf : PipeBuf) (len : Nat) (tail : buf.tail = (buf.head + len) % pipeBufSize)
    (room : len + bytes.length ≤ pipeBufSize) :
    let pushed := bytes.foldl push buf
    pushed.head = buf.head ∧ pushed.len = buf.len ∧ pushed.rRefs = buf.rRefs ∧
      pushed.wRefs = buf.wRefs ∧ pushed.tail = (buf.head + (len + bytes.length)) % pipeBufSize ∧
      contents pushed.cells buf.head (len + bytes.length) =
        contents buf.cells buf.head len ++ bytes := by
  induction bytes generalizing buf len with
  | nil => simp [tail]
  | cons byte rest ih =>
    rw [length_cons] at room
    have moved : (buf.push byte).tail = ((buf.push byte).head + (len + 1)) % pipeBufSize := by
      simp [push, tail, Nat.add_assoc]
    obtain ⟨head, same, reads, writes, last, content⟩ :=
      ih (buf.push byte) (len + 1) moved (by omega)
    have total : len + (byte :: rest).length = len + 1 + rest.length := by
      rw [length_cons]
      omega
    refine ⟨head, same, reads, writes, ?_, ?_⟩
    · rw [foldl_cons, last, total]
      rfl
    rw [foldl_cons, total]
    refine content.trans ?_
    have grown := @contents_write_last _ _ _ buf.cells buf.head len byte
      (show len < pipeBufSize by omega)
    rw [push_cells buf byte tail, append_cons, ← grown]
    rfl

lemma pop_eq (count : Nat) (buf : PipeBuf) (head : buf.head < pipeBufSize) :
    let popped := pop count buf
    popped.1 = { buf with head := (buf.head + count) % pipeBufSize } ∧
      popped.2 = contents buf.cells buf.head count := by
  induction count generalizing buf with
  | zero => simp [pop, Nat.mod_eq_of_lt head, contents]
  | succ count ih =>
    obtain ⟨rest, taken⟩ := ih { buf with head := (buf.head + 1) % pipeBufSize }
      (Nat.mod_lt _ (by decide))
    simp only [pop]
    refine ⟨?_, ?_⟩
    · rw [rest]
      simp [Nat.add_assoc, Nat.add_comm 1]
    rw [taken, contents_cons]
    have first : buf.buf buf.head = buf.cells (slot pipeBufSize buf.head) := by
      simp [cells, slot, Nat.mod_eq_of_lt head]
    congr 1
    exact contents_mod

def PipeBuf.refs (buf : PipeBuf) (isWrite : Bool) : Nat := if isWrite then buf.wRefs else buf.rRefs

structure Ends (state : State) : Prop where
  counted : ∀ fd pipe isWrite, OpenEnd state fd pipe isWrite → (state.pipes pipe).refs isWrite = 1
  single : ∀ fd other pipe isWrite, OpenEnd state fd pipe isWrite →
    OpenEnd state other pipe isWrite → fd = other
  placed : ∀ fd pipe isWrite, OpenEnd state fd pipe isWrite → 3 ≤ fd ∧ fd < maxOpenFiles

lemma openEnd_iff : OpenEnd state fd pipe isWrite ↔
    (state.files fd).used ∧ (state.files fd).pipeId = some pipe ∧
      (state.files fd).pipeIsWrite = isWrite := by
  rw [OpenEnd, pipeOf]
  cases (state.files fd).used with
  | true => simp
  | false => simp

variable {file : OpenFile}

lemma openEnd_setFile {other : Nat} :
    OpenEnd (state.setFile fd file) other pipe isWrite ↔
      if other = fd then file.used ∧ file.pipeId = some pipe ∧ file.pipeIsWrite = isWrite
      else OpenEnd state other pipe isWrite := by
  rw [openEnd_iff, openEnd_iff, State.setFile]
  by_cases here : other = fd
  · simp [here]
  · simp [here]

variable {buf : PipeBuf}

section

variable (ends : Ends state)
include ends

lemma Ends.fewer
    (older : ∀ fd pipe isWrite, OpenEnd next fd pipe isWrite → OpenEnd state fd pipe isWrite ∧
      (next.pipes pipe).refs isWrite = (state.pipes pipe).refs isWrite) : Ends next where
  counted fd pipe isWrite opened := by
    obtain ⟨before, same⟩ := older fd pipe isWrite opened
    rw [same]
    exact ends.counted fd pipe isWrite before
  single fd other pipe isWrite one two :=
    ends.single fd other pipe isWrite (older fd pipe isWrite one).1 (older other pipe isWrite two).1
  placed fd pipe isWrite opened := ends.placed fd pipe isWrite (older fd pipe isWrite opened).1

lemma Ends.setFile (plain : file.used → file.pipeId ≠ none → (state.files fd).used ∧
      file.pipeId = (state.files fd).pipeId ∧ file.pipeIsWrite = (state.files fd).pipeIsWrite) :
    Ends (state.setFile fd file) := by
  refine ends.fewer fun other pipe isWrite opened => ⟨?_, rfl⟩
  rw [openEnd_setFile] at opened
  split at opened
  · rename_i here
    obtain ⟨used, end', kind⟩ := opened
    obtain ⟨before, same, side⟩ := plain used (by rw [end']; nofun)
    rw [here, openEnd_iff]
    exact ⟨before, same ▸ end', side ▸ kind⟩
  · exact opened

lemma Ends.setPipe (same : ∀ isWrite, buf.refs isWrite = (state.pipes pipe).refs isWrite) :
    Ends (state.setPipe pipe buf) := by
  refine ends.fewer fun fd other isWrite opened => ⟨opened, ?_⟩
  by_cases here : other = pipe
  · subst here
    simp [State.setPipe, same]
  · simp [State.setPipe, here]

lemma freePipe_closed (free : state.freePipe = some pipe) (fd : Nat)
    (isWrite : Bool) : ¬ OpenEnd state fd pipe isWrite := by
  intro opened
  have counted := ends.counted fd pipe isWrite opened
  have unused := find?_some free
  simp only [decide_eq_true_eq] at unused
  cases isWrite with
  | true => exact absurd (counted.symm.trans unused.2) (by decide)
  | false => exact absurd (counted.symm.trans unused.1) (by decide)

lemma Ends.fdAllocFile (plain : file.pipeId = none) :
    Ends (state.fdAllocFile caller file).1 := by
  rw [State.fdAllocFile]
  split
  · rename_i fd _ _
    have placed := @Ends.setFile state fd file ends fun _ other => absurd plain other
    exact placed.fewer fun _ _ _ opened => ⟨opened, rfl⟩
  · exact ends

lemma Ends.opened {readFd writeFd : Nat} (free : state.freePipe = some pipe)
    (inside : ∀ fd, fd = readFd ∨ fd = writeFd → 3 ≤ fd ∧ fd < maxOpenFiles)
    (fresh : ∀ isWrite, buf.refs isWrite = 1) :
    Ends (((state.setPipe pipe buf).take caller readFd { used := true, pipeId := some pipe }).take
      caller writeFd { used := true, pipeId := some pipe, pipeIsWrite := true }) := by
  have cases : ∀ fd other isWrite, OpenEnd (((state.setPipe pipe buf).take caller readFd
      { used := true, pipeId := some pipe }).take caller writeFd
      { used := true, pipeId := some pipe, pipeIsWrite := true }) fd other isWrite →
      other = pipe ∧ fd = (if isWrite then writeFd else readFd) ∨
        other ≠ pipe ∧ OpenEnd state fd other isWrite := by
    intro fd other isWrite opened
    have opened : OpenEnd (((state.setPipe pipe buf).setFile readFd
        { used := true, pipeId := some pipe }).setFile writeFd
        { used := true, pipeId := some pipe, pipeIsWrite := true }) fd other isWrite := opened
    rw [openEnd_setFile, openEnd_setFile] at opened
    iterate 2
      split at opened
      · rename_i here
        obtain ⟨_, same, kind⟩ := opened
        exact .inl ⟨(some.inj same).symm, by rw [← kind, here]; rfl⟩
    have before : OpenEnd state fd other isWrite := opened
    refine .inr ⟨fun same => ?_, before⟩
    exact freePipe_closed ends free fd isWrite (same ▸ before)
  refine ⟨fun fd other isWrite opened => ?_, fun one two other isWrite first second => ?_,
    fun fd other isWrite opened => ?_⟩
  · rcases cases fd other isWrite opened with ⟨rfl, _⟩ | ⟨differs, before⟩
    · simpa [State.take, State.setFile, State.setPipe] using fresh isWrite
    · simpa [State.take, State.setFile, State.setPipe, differs] using
        ends.counted fd other isWrite before
  · rcases cases one other isWrite first with ⟨here, place⟩ | ⟨differs, before⟩
    · rcases cases two other isWrite second with ⟨_, other⟩ | ⟨away, _⟩
      · rw [place, other]
      · exact absurd here away
    rcases cases two other isWrite second with ⟨here, _⟩ | ⟨_, also⟩
    · exact absurd here differs
    · exact ends.single one two other isWrite before also
  rcases cases fd other isWrite opened with ⟨_, rfl⟩ | ⟨_, before⟩
  · refine inside _ ?_
    cases isWrite with
    | true => exact .inr rfl
    | false => exact .inl rfl
  · exact ends.placed fd other isWrite before

lemma Ends.unopened (free : state.freePipe = some pipe) :
    Ends (state.setPipe pipe buf) := by
  refine ends.fewer fun fd other isWrite opened => ⟨opened, ?_⟩
  have differs : other ≠ pipe := by
    rintro rfl
    exact freePipe_closed ends free fd isWrite opened
  simp [State.setPipe, differs]

lemma Ends.sysPipe2 (pipefd : Nat) : Ends (state.sysPipe2 caller pipefd).1 := by
  rw [State.sysPipe2]
  split
  · exact ends
  split
  · exact ends
  rename_i free
  split
  · rename_i readFd writeFd _ fds
    have inside : ∀ fd, fd = readFd ∨ fd = writeFd → 3 ≤ fd ∧ fd < maxOpenFiles := by
      intro fd either
      have member : fd ∈ state.freeFds := by
        rw [fds]
        rcases either with rfl | rfl
        · exact mem_cons_self
        · exact mem_cons_of_mem _ mem_cons_self
      obtain ⟨lower, upper⟩ := mem_range'_1.1 (mem_filter.1 member).1
      refine ⟨lower, ?_⟩
      omega
    refine ends.opened free inside fun isWrite => ?_
    cases isWrite with
    | true => rfl
    | false => rfl
  · refine (ends.unopened free).setFile fun used => ?_
    cases used
  · exact ends.unopened free

lemma Ends.sysClose : Ends (state.sysClose fd).1 := by
  rw [State.sysClose]
  split
  · exact ends
  rename_i inside
  have used : (state.files fd).used := by simpa using (not_or.1 (not_or.1 inside).2).2
  have closed : Ends (state.setFile fd
      { state.files fd with pipeId := none, used := false, data := [], offset := 0 }) := by
    refine ends.setFile fun still => ?_
    cases still
  dsimp only
  split
  · exact closed
  rename_i pipe ofPipe
  refine closed.fewer fun other of isWrite opened => ⟨opened, ?_⟩
  have kept : OpenEnd (state.setFile fd
      { state.files fd with pipeId := none, used := false, data := [], offset := 0 }) other of
      isWrite := opened
  rw [openEnd_setFile] at kept
  split at kept
  · cases kept.1
  rename_i away
  by_cases here : of = pipe
  · subst here
    have kinds : isWrite ≠ (state.files fd).pipeIsWrite := by
      rintro rfl
      exact away (ends.single other fd of _ kept (openEnd_iff.2 ⟨used, ofPipe, rfl⟩))
    cases side : (state.files fd).pipeIsWrite with
    | true =>
      rw [side] at kinds
      obtain rfl : isWrite = false := by simpa using kinds
      simp [State.setPipe, State.setFile, refs]
    | false =>
      rw [side] at kinds
      obtain rfl : isWrite := by simpa using kinds
      simp [State.setPipe, State.setFile, refs]
  · simp [State.setPipe, here]

end

lemma PipeBuf.Sound.popped (sound : buf.Sound) {count : Nat} (enough : count ≤ buf.len) :
    let popped := pop count buf
    let left := { popped.1 with len := popped.1.len - count }
    left.Sound ∧ buf.pending = popped.2 ++ left.pending ∧
      ∀ isWrite, left.refs isWrite = buf.refs isWrite := by
  obtain ⟨rest, taken⟩ := pop_eq count buf sound.head
  have len := sound.len
  have tail := sound.tail
  dsimp only
  rw [rest, taken]
  refine ⟨⟨Nat.mod_lt _ (by decide), ?_, ?_⟩, ?_, fun isWrite => rfl⟩
  · show buf.tail = ((buf.head + count) % pipeBufSize + (buf.len - count)) % pipeBufSize
    rw [Nat.mod_add_mod, Nat.add_assoc, Nat.add_sub_cancel' enough]
    exact tail
  · show buf.len - count ≤ pipeBufSize
    omega
  have split : buf.len = count + (buf.len - count) := (Nat.add_sub_cancel' enough).symm
  have parts := @contents_append _ _ _ buf.cells buf.head count (buf.len - count)
  rw [← split] at parts
  refine parts.trans (congrArg _ ?_)
  exact contents_mod.symm

lemma PipeBuf.Sound.pushed (sound : buf.Sound) {count : Nat}
    (room : buf.len + count ≤ pipeBufSize) (length : bytes.length = count) :
    let pushed := bytes.foldl push buf
    let filled := { pushed with len := pushed.len + count }
    filled.Sound ∧ filled.pending = buf.pending ++ bytes ∧ filled.len = buf.len + count ∧
      ∀ isWrite, filled.refs isWrite = buf.refs isWrite := by
  subst length
  obtain ⟨head, len, reads, writes, tail, content⟩ := foldl_push buf buf.len sound.tail room
  refine ⟨⟨?_, ?_, ?_⟩, ?_, ?_, fun isWrite => ?_⟩
  · rw [head]
    exact sound.head
  · rw [tail, head, len]
  · rw [len]
    exact room
  · rw [pending, head, len]
    exact content
  · rw [len]
  · simp [refs, reads, writes]

structure Refilled (state next : State) (pipe : Nat) : Prop where
  rest : next = state.setPipe pipe (next.pipes pipe)
  sound : (next.pipes pipe).Sound
  refs : ∀ isWrite, (next.pipes pipe).refs isWrite = (state.pipes pipe).refs isWrite

lemma Refilled.same (sound : (state.pipes pipe).Sound) : Refilled state state pipe where
  rest := by simp [State.setPipe]
  sound := sound
  refs _ := rfl

lemma Refilled.set (sound : buf.Sound)
    (refs : ∀ isWrite, buf.refs isWrite = (state.pipes pipe).refs isWrite) :
    Refilled state (state.setPipe pipe buf) pipe := by
  have at' : (state.setPipe pipe buf).pipes pipe = buf := by simp [State.setPipe]
  refine ⟨?_, ?_, ?_⟩
  · rw [at']
  · rw [at']
    exact sound
  · rw [at']
    exact refs

lemma Refilled.ends (refilled : Refilled state next pipe) (ends : Ends state) : Ends next := by
  rw [refilled.rest]
  exact ends.setPipe refilled.refs

lemma Refilled.others (refilled : Refilled state next pipe) {other : Nat} (away : other ≠ pipe) :
    next.pipes other = state.pipes other := by
  rw [refilled.rest]
  simp [State.setPipe, away]

lemma pending_eq_nil (empty : buf.len = 0) : buf.pending = [] := by
  rw [pending, empty]
  rfl

structure Reads (state : State) (pipe len : Nat) (result : State × Reply) : Prop where
  refilled : Refilled state result.1 pipe
  first : (state.pipes pipe).pending = result.2.delivered ++ (result.1.pipes pipe).pending
  count : 0 < result.2.code → result.2.code = result.2.delivered.length
  ended : 0 < len → result.2.code = 0 →
    (state.pipes pipe).pending = [] ∧ (state.pipes pipe).wRefs = 0

lemma Reads.nothing {code : Int} {len : Nat} (sound : (state.pipes pipe).Sound) (failed : code ≤ 0)
    (ended : 0 < len → code = 0 → (state.pipes pipe).len = 0 ∧ (state.pipes pipe).wRefs = 0) :
    Reads state pipe len (state, { code }) where
  refilled := .same sound
  first := rfl
  count positive := absurd positive (not_lt.2 failed)
  ended some answered := (ended some answered).imp_left pending_eq_nil

lemma sysRead_pipe (buf len : Nat) (sound : (state.pipes pipe).Sound)
    (opened : OpenEnd state fd pipe isWrite) : Reads state pipe len (state.sysRead fd buf len) := by
  obtain ⟨_, ofPipe, _⟩ := openEnd_iff.1 opened
  rw [sysRead]
  split
  · rename_i none
    exact .nothing sound le_rfl fun some => absurd none some.ne'
  iterate 2
    split
    · exact .nothing sound (by decide) fun _ => by rintro ⟨⟩
  dsimp only
  rw [ofPipe]
  dsimp only
  split
  · exact .nothing sound (by decide) fun _ => by rintro ⟨⟩
  split
  · rename_i empty
    split
    · rename_i writers
      exact .nothing sound le_rfl fun _ _ => ⟨empty, writers⟩
    · exact .nothing sound (by decide) fun _ => by rintro ⟨⟩
  obtain ⟨leftSound, split, refs⟩ := sound.popped (Nat.min_le_right len (state.pipes pipe).len)
  refine ⟨.set leftSound refs, ?_, fun _ => ?_, fun _ answered => ?_⟩
  · simpa [State.setPipe] using split
  · exact congrArg Nat.cast (pop_length _ _).symm
  · have : min len (state.pipes pipe).len = 0 := Int.ofNat.inj answered
    omega

lemma sysRead_file (buf len : Nat) (other : state.pipeOf fd = none) :
    let next := (state.sysRead fd buf len).1
    next.pipes = state.pipes ∧ (Ends state → Ends next) := by
  rw [sysRead]
  iterate 3
    split
    · exact ⟨rfl, fun ends => ends⟩
  rename_i closed
  have used : (state.files fd).used := by simpa using (not_or.1 closed).2
  have plain : (state.files fd).pipeId = none := by simpa [pipeOf, used] using other
  dsimp only
  rw [plain]
  dsimp only
  split
  · exact ⟨rfl, fun ends => ends⟩
  · exact ⟨rfl, fun ends => ends.setFile fun _ _ => ⟨used, plain.symm, rfl⟩⟩

structure Writes (state : State) (pipe : Nat) (src took : List UInt8) (result : State × Reply) :
    Prop where
  refilled : Refilled state result.1 pipe
  start : took <+: src
  last : (result.1.pipes pipe).pending = (state.pipes pipe).pending ++ took
  grown : (result.1.pipes pipe).len = (state.pipes pipe).len + took.length
  code : if took = [] then result.2.code < 0 else result.2.code = took.length

lemma Writes.nothing {code : Int} {src : List UInt8} (sound : (state.pipes pipe).Sound)
    (failed : code < 0) : Writes state pipe src [] (state, { code }) where
  refilled := .same sound
  start := nil_prefix
  last := (append_nil _).symm
  grown := rfl
  code := failed

lemma sysWrite_pipe (buf : Nat) (src : List UInt8)
    (sound : (state.pipes pipe).Sound) (placed : 3 ≤ fd ∧ fd < maxOpenFiles)
    (opened : OpenEnd state fd pipe isWrite) :
    ∃ took, Writes state pipe src took (state.sysWrite fd buf src) := by
  obtain ⟨used, ofPipe, _⟩ := openEnd_iff.1 opened
  rw [sysWrite]
  rw [if_neg (by omega), if_pos ⟨placed.1, used⟩, ofPipe]
  dsimp only
  iterate 3
    split
    · exact ⟨[], .nothing sound (by decide)⟩
  have full := sound.len
  have room : (state.pipes pipe).len + min src.length (pipeBufSize - (state.pipes pipe).len) ≤
      pipeBufSize := by omega
  have length : (src.take (min src.length (pipeBufSize - (state.pipes pipe).len))).length =
      min src.length (pipeBufSize - (state.pipes pipe).len) := by
    rw [length_take]
    omega
  obtain ⟨filledSound, added, grown, refs⟩ := sound.pushed room length
  refine ⟨src.take (min src.length (pipeBufSize - (state.pipes pipe).len)),
    .set filledSound refs, take_prefix _ _, ?_, ?_, ?_⟩
  · simpa [State.setPipe] using added
  · rw [length]
    simpa [State.setPipe] using grown
  dsimp only
  split
  · rename_i none
    have zero : min src.length (pipeBufSize - (state.pipes pipe).len) = 0 :=
      length.symm.trans (congrArg List.length none)
    rw [if_pos zero]
    decide
  · rename_i some
    rw [if_neg (fun none => some (length_eq_zero_iff.1 (length.trans none))), length]

lemma sysWrite_other (buf : Nat) (src : List UInt8) (other : state.pipeOf fd = none) :
    (state.sysWrite fd buf src).1 = state := by
  rw [sysWrite]
  split
  · rfl
  split
  · rename_i used
    have plain : (state.files fd).pipeId = none := by simpa [pipeOf, used.2] using other
    rw [plain]
  · rfl

structure Kept (journal : Journal) : Prop where
  ends : Ends journal.state
  sound : ∀ pipe, (journal.state.pipes pipe).Sound
  balance : ∀ pipe, journal.accepted pipe =
    journal.delivered pipe ++ (journal.state.pipes pipe).pending

variable {journal : Journal}

lemma Ends.sysOpen (ends : Ends state) (lookup : Lookup) :
    Ends (state.sysOpen caller lookup).1 := by
  cases lookup with
  | file data | dir path => exact ends.fdAllocFile rfl
  | unreadable => exact ends
  | notUtf8 => exact ends
  | absent => exact ends

lemma sysOpen_pipes (lookup : Lookup) : (state.sysOpen caller lookup).1.pipes = state.pipes := by
  have alloc : ∀ file, (state.fdAllocFile caller file).1.pipes = state.pipes := by
    intro file
    rw [State.fdAllocFile]
    split <;> rfl
  cases lookup with
  | file data => exact alloc _
  | dir path => exact alloc _
  | unreadable => rfl
  | notUtf8 => rfl
  | absent => rfl

lemma sysLseek_kept (offset : Int) (whence : Nat) : let next := (state.sysLseek fd offset whence).1
    next.pipes = state.pipes ∧ (Ends state → Ends next) := by
  rw [sysLseek]
  split
  · exact ⟨rfl, fun ends => ends⟩
  rename_i inside
  have used : (state.files fd).used := by simpa using (not_or.1 (not_or.1 inside).2).2
  iterate 2
    split
    · exact ⟨rfl, fun ends => ends⟩
  · exact ⟨rfl, fun ends => ends.setFile fun _ _ => ⟨used, rfl, rfl⟩⟩

lemma sysClose_pipes (sound : ∀ pipe, (state.pipes pipe).Sound) (pipe : Nat) :
    let next := (state.sysClose fd).1
    (next.pipes pipe).Sound ∧ (next.pipes pipe).pending = (state.pipes pipe).pending := by
  rw [State.sysClose]
  split
  · exact ⟨sound pipe, rfl⟩
  dsimp only
  split
  · exact ⟨sound pipe, rfl⟩
  rename_i closed _
  by_cases here : pipe = closed
  · subst here
    have known := sound pipe
    rw [setPipe_pipes]
    split
    all_goals exact ⟨{ known with }, rfl⟩
  · simp only [State.setPipe, update_of_ne here]
    exact ⟨sound pipe, rfl⟩

lemma sysPipe2_pipes {pipefd : Nat} (given : pipefd ≠ 0) (free : state.freePipe = some pipe) :
    ∃ buf : PipeBuf, (state.sysPipe2 caller pipefd).1.pipes = update state.pipes pipe buf ∧
      buf.Sound ∧ buf.pending = [] := by
  have empty : ∀ rRefs wRefs, ({ state.pipes pipe with
      head := 0, tail := 0, len := 0, rRefs, wRefs } : PipeBuf).Sound := fun _ _ =>
    ⟨Nat.zero_lt_succ _, rfl, Nat.zero_le _⟩
  rw [State.sysPipe2, if_neg given, free]
  dsimp only
  split
  · exact ⟨_, rfl, empty 1 1, rfl⟩
  all_goals exact ⟨_, rfl, empty 0 0, rfl⟩

lemma sysPipe2_idle {pipefd : Nat} (none : (if pipefd = 0 then none else state.freePipe) = none) :
    (state.sysPipe2 caller pipefd).1 = state := by
  rw [State.sysPipe2]
  split at none
  · rename_i missing
    rw [if_pos missing]
  · rename_i given
    rw [if_neg given, none]

lemma pipeOf_some (found : state.pipeOf fd = some pipe) :
    OpenEnd state fd pipe (state.files fd).pipeIsWrite := ⟨found, rfl⟩

lemma take_growth {took src : List UInt8} {len : Nat} (start : took <+: src) :
    src.take (len + took.length - len) = took := by
  rw [Nat.add_sub_cancel_left]
  exact (prefix_iff_eq_take.1 start).symm

lemma perform_write {buf : Nat} {src took : List UInt8}
    (opened : OpenEnd journal.state fd pipe isWrite)
    (writes : Writes journal.state pipe src took (journal.state.sysWrite fd buf src)) :
    journal.perform caller (.write fd buf src) =
      { journal with
        state := (journal.state.sysWrite fd buf src).1
        accepted := update journal.accepted pipe (journal.accepted pipe ++ took) } := by
  rw [Journal.perform]
  simp only [perform, Journal.after, opened.1, writes.grown, take_growth writes.start]

lemma perform_read {isWrite : Bool} (buf len : Nat)
    (opened : OpenEnd journal.state fd pipe isWrite) :
    let result := journal.state.sysRead fd buf len
    journal.perform caller (.read fd buf len) =
      { journal with
        state := result.1
        delivered := update journal.delivered pipe
          (journal.delivered pipe ++ result.2.delivered) } := by
  rw [Journal.perform]
  simp [perform, Journal.after, opened.1]

section

variable (kept : Kept journal)
include kept

lemma Kept.inOrder : InOrder journal := by
  intro pipe
  have len : (journal.state.pipes pipe).pending.length ≤ pipeBufSize := by
    simpa [pending, contents] using (kept.sound pipe).len
  rw [kept.balance pipe, length_append]
  exact ⟨prefix_append _ _, by omega⟩

lemma Kept.unmoved (ends : Ends next)
    (pipes : ∀ pipe, (next.pipes pipe).Sound ∧
      (next.pipes pipe).pending = (journal.state.pipes pipe).pending) :
    Kept { journal with state := next } where
  ends := ends
  sound pipe := (pipes pipe).1
  balance pipe := by
    rw [(pipes pipe).2]
    exact kept.balance pipe

lemma Kept.samePipes (ends : Ends next)
    (pipes : next.pipes = journal.state.pipes) : Kept { journal with state := next } := by
  refine kept.unmoved ends fun pipe => ?_
  rw [pipes]
  exact ⟨kept.sound pipe, rfl⟩

lemma Kept.pipe2 (pipefd : Nat) :
    Kept (journal.perform caller (.pipe2 pipefd)) := by
  have ends := @Ends.sysPipe2 _ caller kept.ends pipefd
  rw [Journal.perform]
  simp only [perform, Journal.after]
  split
  · rename_i idle
    exact kept.samePipes ends (by rw [sysPipe2_idle idle])
  rename_i pipe found
  split at found
  · cases found
  rename_i given
  obtain ⟨_, pipes, sound, empty⟩ := @sysPipe2_pipes _ caller pipe pipefd given found
  refine ⟨ends, fun other => ?_, fun other => ?_⟩
  · dsimp only
    rw [pipes]
    by_cases here : other = pipe
    · subst here
      simpa using sound
    · rw [update_of_ne here]
      exact kept.sound other
  rw [pipes]
  by_cases here : other = pipe
  · subst here
    simp [empty]
  · simpa [update_of_ne here] using kept.balance other

lemma Kept.refilled (refilled : Refilled journal.state next pipe) {put took : List UInt8}
    (moved : (journal.state.pipes pipe).pending ++ put = took ++ (next.pipes pipe).pending) :
    Kept { state := next
           accepted := update journal.accepted pipe (journal.accepted pipe ++ put)
           delivered := update journal.delivered pipe (journal.delivered pipe ++ took) } where
  ends := refilled.ends kept.ends
  sound other := by
    by_cases here : other = pipe
    · subst here
      exact refilled.sound
    rw [refilled.others here]
    exact kept.sound other
  balance other := by
    by_cases here : other = pipe
    · subst here
      simp only [update_self]
      rw [kept.balance other, append_assoc, moved, append_assoc]
    · simp only [update_of_ne here, refilled.others here]
      exact kept.balance other

lemma Kept.writes (buf : Nat)
    (src : List UInt8) (opened : OpenEnd journal.state fd pipe isWrite) :
    ∃ took, Writes journal.state pipe src took (journal.state.sysWrite fd buf src) :=
  sysWrite_pipe buf src (kept.sound pipe) (kept.ends.placed fd pipe isWrite opened) opened

lemma Kept.write (buf : Nat) (src : List UInt8) :
    Kept (journal.perform caller (.write fd buf src)) := by
  cases found : journal.state.pipeOf fd with
  | none =>
    rw [Journal.perform]
    simp only [perform, Journal.after, found]
    rw [sysWrite_other buf src found]
    exact kept
  | some pipe =>
    have opened := pipeOf_some found
    obtain ⟨_, writes⟩ := kept.writes buf src opened
    rw [perform_write opened writes]
    have moved := @Kept.refilled _ _ _ kept writes.refilled _ [] writes.last.symm
    rw [append_nil, update_eq_self] at moved
    exact moved

lemma Kept.read (buf len : Nat) :
    Kept (journal.perform caller (.read fd buf len)) := by
  cases found : journal.state.pipeOf fd with
  | none =>
    obtain ⟨pipes, ends⟩ := sysRead_file buf len found
    rw [Journal.perform]
    simp only [perform, Journal.after, found]
    exact kept.samePipes (ends kept.ends) pipes
  | some pipe =>
    have opened := pipeOf_some found
    have reads := sysRead_pipe buf len (kept.sound pipe) opened
    rw [@perform_read caller fd pipe journal _ buf len opened]
    have moved := @Kept.refilled _ _ _ kept reads.refilled [] _ ((append_nil _).trans reads.first)
    rw [append_nil, update_eq_self] at moved
    exact moved

lemma Kept.perform (caller : Nat) (call : Call) :
    Kept (journal.perform caller call) := by
  cases call with
  | openPath lookup =>
    exact kept.samePipes (kept.ends.sysOpen lookup) (sysOpen_pipes lookup)
  | pipe2 pipefd => exact kept.pipe2 pipefd
  | read fd buf len => exact kept.read buf len
  | write fd buf src => exact kept.write buf src
  | lseek fd offset whence =>
    obtain ⟨pipes, ends⟩ := @sysLseek_kept journal.state fd offset whence
    exact kept.samePipes (ends kept.ends) pipes
  | close fd => exact kept.unmoved kept.ends.sysClose (sysClose_pipes kept.sound)
  | exit =>
    exact kept.samePipes (kept.ends.fewer fun _ _ _ opened => ⟨opened, rfl⟩) rfl

end

lemma perform_pipe2 (ends : Ends journal.state) (pipefd : Nat)
    (found : journal.state.pipeOf fd = some pipe) :
    let after := journal.perform caller (.pipe2 pipefd)
    after.state.pipes pipe = journal.state.pipes pipe ∧
      after.accepted pipe = journal.accepted pipe ∧
      after.delivered pipe = journal.delivered pipe := by
  rw [Journal.perform]
  simp only [perform, Journal.after]
  split
  · rename_i idle
    rw [sysPipe2_idle idle]
    exact ⟨rfl, rfl, rfl⟩
  rename_i other free
  split at free
  · cases free
  rename_i given
  have differs : pipe ≠ other := by
    rintro rfl
    exact freePipe_closed ends free fd _ (pipeOf_some found)
  obtain ⟨_, pipes, _⟩ := @sysPipe2_pipes _ caller other pipefd given free
  simp [pipes, update_of_ne differs]

lemma Kept.answers (kept : Kept journal) (label : Nat × Call) : Answers journal label := by
  obtain ⟨caller, call⟩ := label
  cases call with
  | write fd buf src =>
    intro pipe opened
    obtain ⟨took, writes⟩ := kept.writes buf src opened
    refine ⟨took, writes.start, ?_, writes.code⟩
    rw [perform_write opened writes]
    exact update_self _ _ _
  | read fd buf len =>
    intro pipe opened
    have reads := sysRead_pipe buf len (kept.sound pipe) opened
    refine ⟨?_, reads.count, fun some answered => ?_⟩
    · show (journal.perform caller (.read fd buf len)).delivered pipe = _
      rw [perform_read buf len opened]
      exact update_self _ _ _
    obtain ⟨empty, writers⟩ := reads.ended some answered
    refine ⟨fun other isOpen => ?_, ?_⟩
    · have counted := kept.ends.counted other pipe true isOpen
      exact absurd (counted.symm.trans writers) (by decide)
    · rw [kept.balance pipe, empty, append_nil]
  | pipe2 pipefd =>
    intro fd pipe found
    exact perform_pipe2 kept.ends pipefd found
  | openPath lookup => trivial
  | lseek fd offset whence => trivial
  | close fd => trivial
  | exit => trivial

lemma Kept.start : Kept {} where
  ends := ⟨fun _ _ _ opened => absurd opened.1 nofun, fun _ _ _ _ opened => absurd opened.1 nofun,
    fun _ _ _ opened => absurd opened.1 nofun⟩
  sound _ := ⟨Nat.zero_lt_succ _, rfl, Nat.zero_le _⟩
  balance _ := rfl

lemma Kept.step {journal next : Journal} (kept : Kept journal) {label : Nat × Call}
    (taken : observed.step journal label = some next) : Kept next := by
  simp only [observed] at taken
  split at taken
  · cases taken
  · rw [← some.inj taken]
    exact kept.perform label.1 label.2

end OsCortex.Descriptor
