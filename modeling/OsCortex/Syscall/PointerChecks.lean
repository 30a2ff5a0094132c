import OsCortex.Syscall.PointerCore

/-! No call checks that a pointer is in the lower half. -/

namespace OsCortex.UserPointer

open Access Program List Option Descriptor Reply
open Descriptor (OpenFile PipeBuf Lookup badBuffer maxOpenFiles pipeBufSize)

variable {env : Environment} {kernel : Kernel} {memory : Memory}
  {addr length offset width fd buf len path : Nat} {bytes : List UInt8}

def readLe (memory : Memory) (addr width : Nat) : Nat := ((loadLe addr width).run memory).1

def entryRanges (memory : Memory) : Nat → Nat → List (Nat × Nat)
  | 0, _ => []
  | left + 1, entry =>
    (readLe memory entry 8, readLe memory (offsetBy entry 8) 8) ::
      entryRanges memory left (offsetBy entry 16)

def stringRange (memory : Memory) (path : Nat) : List (Nat × Nat) :=
  if path = 0 then [] else [(path, stringSpan memory 4096 path)]

def Call.ranges (kernel : Kernel) (memory : Memory) : Call → List (Nat × Nat)
  | .read _ buf len | .write _ buf len | .clipboardGet buf len => [(buf.toNat, len.toNat)]
  | .clipboardSet ptr len | .engineLibraryPathRead ptr len => [(ptr.toNat, len.toNat)]
  | .openPath path len | .exec path len | .execWait path len => [(path.toNat, len.toNat)]
  | .writev _ iov count =>
    (iov.toNat, 16 * count.toNat) :: entryRanges memory count.toNat iov.toNat
  | .openat _ path | .access path => stringRange memory path.toNat
  | .fstat _ statBuf => [(statBuf.toNat, 144)]
  | .stat path statBuf | .newfstatat path statBuf =>
    (statBuf.toNat, 144) :: stringRange memory path.toNat
  | .pipe2 pipefd => [(pipefd.toNat, 8)]
  | .archPrctl _ addr => [(addr.toNat, 8)]
  | .timerfdSettime _ _ newValue => [(newValue.toNat, 32)]
  | .epollCtl _ _ _ event =>
    [(event.toNat, if kernel.ctlLog < 32 then 16 else epollEventSize)]
  | .epollWait _ eventsOut maxevents _ =>
    [(eventsOut.toNat, (asI32 maxevents.toNat).toNat * epollEventSize)]

def InUser (range : Nat × Nat) : Prop := range.1 + range.2 ≤ userTop

structure Shielded (env : Environment) (kernel : Kernel) (memory : Memory) (call : Call) :
    Prop where
  confined : (call.perform env kernel).Within (· < userTop) memory
  refuses : ¬ (∀ range ∈ call.ranges kernel memory, InUser range) →
    (call.perform env kernel).run memory = ((kernel, .error (-14)), memory)

lemma Shielded.isolated {call : Call} (shielded : Shielded env kernel memory call) :
    (∀ addr, userTop ≤ addr → ((call.perform env kernel).run memory).2 addr = memory addr) ∧
      ∀ other : Memory, (∀ addr, addr < userTop → memory addr = other addr) →
        ((call.perform env kernel).run memory).1 = ((call.perform env kernel).run other).1 :=
  ⟨fun _ above => shielded.confined.unchanged (Nat.not_lt.2 above),
    fun _ same => (shielded.confined.agree same).1⟩

def copies (kernel : Kernel) (fd : Nat) : Bool :=
  let file := kernel.descriptors.files fd
  fd < maxOpenFiles && (fd < 3 ||
    match if file.used then file.pipeId else none with
    | some _ => file.pipeIsWrite
    | none => (kernel.timers.lookup fd).isNone)

def RefusedEntry (kernel : Kernel) (memory : Memory) (fd : Nat) : Nat → Nat → Prop
  | 0, _ => False
  | left + 1, entry =>
    entry + 16 ≤ userTop ∧
      if readLe memory (offsetBy entry 8) 8 = 0 then
        RefusedEntry kernel memory fd left (offsetBy entry 16)
      else copies kernel fd = true ∧
        badBuffer (readLe memory entry 8) (readLe memory (offsetBy entry 8) 8) = true

def Call.Refused (kernel : Kernel) (memory : Memory) : Call → Prop
  | .read _ buf len => buf.toNat = 0 ∧ len.toNat ≠ 0
  | .write fd buf len => copies kernel fd.toNat = true ∧ badBuffer buf.toNat len.toNat = true
  | .writev fd iov count => iov.toNat ≠ 0 ∧ count.toNat ≤ 1024 ∧
      RefusedEntry kernel memory fd.toNat count.toNat iov.toNat
  | .openPath path len | .exec path len | .execWait path len =>
    badBuffer path.toNat len.toNat = true
  | .stat path _ | .newfstatat path _ => path.toNat = 0
  | .clipboardSet ptr len => ptr.toNat = 0 ∧ len.toNat ≠ 0 ∧ len.toNat ≤ clipboardMax
  | .engineLibraryPathRead dst len => dst.toNat = 0 ∧ engineLibraryPath.length ≤ len.toNat
  | _ => False

lemma userTop_small : userTop < addressSpace := by decide

lemma offsetBy_eq (inside : addr + offset ≤ userTop) : offsetBy addr offset = addr + offset :=
  Nat.mod_eq_of_lt (Nat.lt_of_le_of_lt inside userTop_small)

lemma fits_part (inUser : addr + length ≤ userTop) (part : offset + width ≤ length) :
    Fits userTop (offsetBy addr offset) width := by
  rw [offsetBy_eq (by omega)]
  exact .inr (by omega)

lemma fits_start (inUser : addr + length ≤ userTop) (part : width ≤ length) :
    Fits userTop addr width :=
  .inr (by omega)

@[simp] lemma within_loads :
    Within (· < userTop) (loadBytes addr length) memory ↔ Fits userTop addr length :=
  within_loadBytes userTop_small

@[simp] lemma within_stores :
    Within (· < userTop) (storeBytes addr bytes) memory ↔ Fits userTop addr bytes.length :=
  within_storeBytes userTop_small

@[simp] lemma within_scan {limit : Nat} :
    Within (· < userTop) (scanString limit addr) memory ↔
      Fits userTop addr (stringSpan memory limit addr) :=
  within_scanString userTop_small

@[simp] lemma within_loadLe :
    Within (· < userTop) (loadLe addr width) memory ↔ Fits userTop addr width := by
  simp [loadLe]

@[simp] lemma within_storeLe {value : Nat} :
    Within (· < userTop) (storeLe addr width value) memory ↔ Fits userTop addr width := by
  simp [storeLe]

@[simp] lemma run_loadLe (addr width : Nat) (memory : Memory) :
    ((loadLe addr width).run memory).2 = memory := by
  simp [loadLe]

lemma ofCode_ne {code : Int} (different : code ≠ -14) : ofCode code ≠ .error (-14) := by
  unfold ofCode
  split
  · exact fun same => different (error.inj same)
  · exact nofun

lemma badBuffer_false (nonzero : addr ≠ 0) (short : length ≤ 0x2000000) :
    badBuffer addr length = false := by
  simp [badBuffer, nonzero, short]

lemma readUserBytes_granted (granted : badBuffer buf len = false) :
    readUserBytes buf len = some (loadBytes buf len) := by
  simp [readUserBytes, granted]

lemma readUserBytes_refused (refused : badBuffer buf len) : readUserBytes buf len = none := by
  simp [readUserBytes, refused]

structure Writes (kernel : Kernel) (memory : Memory) (buf len : Nat)
    (program : Program (Kernel × Reply)) : Prop where
  within : buf + len ≤ userTop → program.Within (· < userTop) memory
  keeps : (program.run memory).2 = memory
  reply : (program.run memory).1.2 ≠ .error (-14)
  short : len ≤ 0x2000000 → ∀ written, (program.run memory).1.2 = .value written →
    0 ≤ written ∧ written ≤ 0x2000000
  files : (program.run memory).1.1.descriptors.files = kernel.descriptors.files
  timers : ∀ fd, ((program.run memory).1.1.timers.lookup fd).isNone =
    (kernel.timers.lookup fd).isNone

lemma asI64_eq (short : len ≤ 0x2000000) : asI64 len = len :=
  Int.bmod_eq_of_le_mul_two (by omega) (by omega)

lemma asI64_short (short : len ≤ 0x2000000) : 0 ≤ asI64 len ∧ asI64 len ≤ 0x2000000 := by
  rw [asI64_eq short]
  omega

lemma isNone_lookup_modify {Value : Type} (entries : List (Nat × Value)) (key : Nat)
    (change : Value → Value) (fd : Nat) :
    ((Entries.modify entries key change).lookup fd).isNone = (entries.lookup fd).isNone := by
  by_cases same : fd = key
  · rw [same, Entries.lookup_modify_self, isNone_map]
  · rw [Entries.lookup_modify_of_ne same]

lemma loadCount_keeps : ((loadCount buf len).run memory).2 = memory := by
  unfold loadCount
  split <;> simp

lemma within_loadCount (inUser : buf + len ≤ userTop) :
    Within (· < userTop) (loadCount buf len) memory := by
  unfold loadCount
  split
  · rename_i present
    exact within_loadLe.2 (fits_start inUser present.1)
  · exact within_pure 1

lemma writes_count {after : Nat → Kernel}
    (files : ∀ count, (after count).descriptors.files = kernel.descriptors.files)
    (timers : ∀ count fd, ((after count).timers.lookup fd).isNone =
      (kernel.timers.lookup fd).isNone) :
    Writes kernel memory buf len (do
      let count ← loadCount buf len
      return (after count, .value (asI64 len))) := by
  constructor
  · exact fun inUser => within_bind.2 ⟨within_loadCount inUser, within_pure _⟩
  · simp [loadCount_keeps]
  · simp
  · intro short written is
    simp only [run_bind, run_pure] at is
    rw [← value.inj is]
    exact asI64_short short
  · simp [files]
  · simp [timers]

lemma writes_timerfd : Writes kernel memory buf len (timerfdWrite kernel fd buf len) :=
  writes_count (fun _ => rfl) fun _ _ => by simp [isNone_lookup_modify]

lemma writes_eventfd : Writes kernel memory buf len (eventfdWrite kernel fd buf len) :=
  writes_count (fun _ => rfl) fun _ _ => rfl

lemma writes_pure {reply : Reply} (different : reply ≠ .error (-14))
    (short : len ≤ 0x2000000 → ∀ written, reply = .value written →
      0 ≤ written ∧ written ≤ 0x2000000) :
    Writes kernel memory buf len (pure (kernel, reply)) :=
  ⟨fun _ => within_pure _, rfl, different, short, rfl, fun _ => rfl⟩

lemma writes_pipe {pipe : Nat} (granted : badBuffer buf len = false) :
    Writes kernel memory buf len (pipeWrite kernel pipe buf len) := by
  rw [pipeWrite, readUserBytes_granted granted]
  dsimp only
  split
  · exact writes_pure nofun nofun
  constructor
  · intro inUser
    simp [fits_start inUser (Nat.min_le_left len _)]
  · simp
  · simp only [run_bind, run_pure]
    split <;> exact nofun
  · intro short written is
    simp only [run_bind, run_pure] at is
    split at is
    · cases is
    have is := value.inj is
    omega
  · simp [State.setPipe]
  · simp

lemma writes_console (granted : badBuffer buf len = false) :
    Writes kernel memory buf len (consoleWrite kernel buf len) := by
  rw [consoleWrite, readUserBytes_granted granted]
  constructor
  · intro inUser
    simp [fits_start inUser (Nat.le_refl len)]
  · simp
  · simp
  · intro short written is
    simp only [run_bind, run_pure] at is
    have is := value.inj is
    omega
  · simp
  · simp

lemma sysWrite_refused (through : copies kernel fd) (refused : badBuffer buf len) :
    sysWrite kernel fd buf len = pure (kernel, .error (-14)) := by
  have console : consoleWrite kernel buf len = pure (kernel, .error (-14)) := by
    rw [consoleWrite, readUserBytes_refused refused]
  have piped : ∀ pipe, pipeWrite kernel pipe buf len = pure (kernel, .error (-14)) := by
    intro pipe
    rw [pipeWrite, readUserBytes_refused refused]
  simp only [copies, Bool.and_eq_true, decide_eq_true_eq, Bool.or_eq_true] at through
  obtain ⟨inTable, through⟩ := through
  unfold sysWrite
  rw [if_neg (Nat.not_le.2 inTable)]
  split
  · exact console
  rename_i above
  have through := through.resolve_left above
  dsimp only
  cases found : if (kernel.descriptors.files fd).used then (kernel.descriptors.files fd).pipeId
    else none with
  | some pipe =>
    rw [found] at through
    simp [through, piped]
  | none =>
    rw [found] at through
    have noTimer : kernel.timers.lookup fd = none := isNone_iff_eq_none.1 through
    simp [noTimer, console]

lemma writes_sysWrite (goes : ¬ (copies kernel fd ∧ badBuffer buf len)) :
    Writes kernel memory buf len (sysWrite kernel fd buf len) := by
  unfold sysWrite
  split
  · split
    · exact writes_timerfd
    split
    · exact writes_eventfd
    refine writes_pure (by rintro ⟨⟩) fun short written is => ?_
    rw [← value.inj is]
    exact asI64_short short
  rename_i inTable
  have inTable : fd < maxOpenFiles := Nat.not_le.1 inTable
  split
  · rename_i standard
    refine writes_console (Bool.eq_false_iff.2 fun refused => goes ⟨?_, refused⟩)
    simp [copies, inTable, standard]
  dsimp only
  split
  · rename_i found
    split
    · exact writes_pure (by rintro ⟨⟩) (by rintro _ _ ⟨⟩)
    rename_i writeEnd
    refine writes_pipe (Bool.eq_false_iff.2 fun refused => goes ⟨?_, refused⟩)
    simp [copies, inTable, found, writeEnd]
  rename_i found
  split
  · exact writes_timerfd
  rename_i noTimer
  refine writes_console (Bool.eq_false_iff.2 fun refused => goes ⟨?_, refused⟩)
  have absent : (kernel.timers.lookup fd).isNone :=
    isNone_iff_eq_none.2 (not_isSome_iff_eq_none.1 noTimer)
  simp [copies, inTable, found, absent]

lemma copies_sysWrite (goes : ¬ (copies kernel fd ∧ badBuffer buf len)) :
    copies ((sysWrite kernel fd buf len).run memory).1.1 fd = copies kernel fd := by
  have writes : Writes kernel memory buf len _ := writes_sysWrite goes
  simp [copies, writes.files, writes.timers]

lemma within_sysWrite (inUser : buf + len ≤ userTop) :
    Within (· < userTop) (sysWrite kernel fd buf len) memory := by
  by_cases goes : copies kernel fd ∧ badBuffer buf len
  · rw [sysWrite_refused goes.1 goes.2]
    exact within_pure _
  · exact (writes_sysWrite goes).within inUser

lemma sysWrite_keeps : ((sysWrite kernel fd buf len).run memory).2 = memory := by
  by_cases goes : copies kernel fd ∧ badBuffer buf len
  · rw [sysWrite_refused goes.1 goes.2]
    rfl
  · exact (writes_sysWrite goes).keeps

lemma badBuffer_short (granted : ¬ badBuffer buf len) : len ≤ 0x2000000 := by
  simp only [badBuffer, Bool.or_eq_true, decide_eq_true_eq, not_or, Nat.not_lt] at granted
  exact granted.2

variable {left entry : Nat} {total : Int}

lemma within_writevFrom (array : entry + 16 * left ≤ userTop)
    (buffers : ∀ range ∈ entryRanges memory left entry, InUser range) :
    Within (· < userTop) (writevFrom fd kernel left entry total) memory := by
  induction left generalizing kernel entry total with
  | zero => exact within_pure _
  | succ left ih =>
    have next : offsetBy entry 16 = entry + 16 := offsetBy_eq (by omega)
    have later : ∀ kernel total,
        Within (· < userTop) (writevFrom fd kernel left (offsetBy entry 16) total) memory :=
      fun kernel total => ih (by rw [next]; omega) fun range member =>
        buffers range (mem_cons_of_mem _ member)
    have buffer : InUser (_, _) := buffers _ mem_cons_self
    have base : Fits userTop entry 8 := fits_start array (by omega)
    have lens : Fits userTop (offsetBy entry 8) 8 := fits_part array (by omega)
    simp only [writevFrom, within_bind, within_loadLe, run_loadLe]
    refine ⟨base, lens, ?_⟩
    split
    · exact later kernel total
    simp only [within_bind, sysWrite_keeps]
    refine ⟨within_sysWrite buffer, ?_⟩
    split
    · split
      · exact within_pure _
      split
      · exact within_pure _
      · exact later _ _
    · exact within_pure _

lemma writevFrom_written (positive : 0 < total)
    (small : total + left * 0x2000000 < 2 ^ 63) (through : copies kernel fd) :
    ((writevFrom fd kernel left entry total).run memory).1.2 ≠ .error (-14) := by
  induction left generalizing kernel entry total with
  | zero => exact nofun
  | succ left ih =>
    simp only [writevFrom, run_bind, run_loadLe]
    split
    · exact ih positive (by omega) through
    simp only [run_bind, sysWrite_keeps]
    split
    · rename_i written is
      split
      · simp
      split
      · exact nofun
      by_cases refused : badBuffer ((loadLe entry 8).run memory).1
          ((loadLe (offsetBy entry 8) 8).run memory).1
      · rw [sysWrite_refused through refused] at is
        cases is
      have goes : ¬ (copies kernel fd ∧ _) := fun both => refused both.2
      have short := (writes_sysWrite goes).short (badBuffer_short refused) written is
      have sum : Int.bmod (total + written) (2 ^ 64) = total + written :=
        Int.bmod_eq_of_le_mul_two (by omega) (by omega)
      refine ih ?_ ?_ ((copies_sysWrite goes).trans through)
      · omega
      · omega
    · exact nofun

lemma writevFrom_uncopied (uncopied : ¬ copies kernel fd) :
    ((writevFrom fd kernel left entry total).run memory).1.2 ≠ .error (-14) := by
  induction left generalizing kernel entry total with
  | zero => exact nofun
  | succ left ih =>
    simp only [writevFrom, run_bind, run_loadLe]
    split
    · exact ih uncopied
    have goes : ∀ base len, ¬ (copies kernel fd ∧ badBuffer base len) :=
      fun _ _ both => uncopied both.1
    simp only [run_bind, sysWrite_keeps]
    split
    · split
      · split <;> exact nofun
      split
      · exact nofun
      refine ih ?_
      rw [copies_sysWrite (goes _ _)]
      exact uncopied
    split
    · exact nofun
    · exact (writes_sysWrite (goes _ _)).reply

lemma writevFrom_refused (refused : RefusedEntry kernel memory fd left entry) :
    Within (· < userTop) (writevFrom fd kernel left entry 0) memory ∧
      (writevFrom fd kernel left entry 0).run memory = ((kernel, .error (-14)), memory) := by
  induction left generalizing entry with
  | zero => exact refused.elim
  | succ left ih =>
    obtain ⟨inUser, rest⟩ := refused
    have base : Fits userTop entry 8 := fits_start inUser (by omega)
    have lens : Fits userTop (offsetBy entry 8) 8 := fits_part inUser (by omega)
    simp only [writevFrom, within_bind, within_loadLe, run_bind, run_loadLe, base, lens, true_and]
    split at rest
    · rename_i empty
      rw [readLe] at empty
      rw [if_pos empty]
      exact ih rest
    rename_i filled
    rw [readLe] at filled
    rw [readLe, readLe] at rest
    rw [if_neg filled, sysWrite_refused rest.1 rest.2]
    exact ⟨within_pure _, rfl⟩

lemma writevFrom_exact (few : left ≤ 1024)
    (within : Within (· < userTop) (writevFrom fd kernel left entry 0) memory)
    (refused : ((writevFrom fd kernel left entry 0).run memory).1.2 = .error (-14)) :
    RefusedEntry kernel memory fd left entry := by
  induction left generalizing entry with
  | zero => cases refused
  | succ left ih =>
    simp only [writevFrom, within_bind, within_loadLe, run_bind, run_loadLe] at within refused
    obtain ⟨base, lens, rest⟩ := within
    have inUser : entry + 16 ≤ userTop := by
      have first : entry + 8 ≤ userTop := base.resolve_left (by decide)
      have second : offsetBy entry 8 + 8 ≤ userTop := lens.resolve_left (by decide)
      rw [offsetBy_eq first] at second
      omega
    refine ⟨inUser, ?_⟩
    rw [readLe, readLe]
    split at refused
    · rename_i empty
      rw [if_pos empty] at rest ⊢
      exact ih (by omega) rest refused
    rename_i filled
    rw [if_neg filled]
    by_cases stopped : copies kernel fd ∧ badBuffer ((loadLe entry 8).run memory).1
        ((loadLe (offsetBy entry 8) 8).run memory).1
    · exact stopped
    -- The entry is written, and from there on no `EFAULT` comes out.
    have writes := @writes_sysWrite kernel memory fd _ _ stopped
    exfalso
    simp only [run_bind, sysWrite_keeps] at refused
    split at refused
    · rename_i written _
      iterate 2
        split at refused
        · cases refused
      rename_i whole
      rw [ne_eq, not_not] at whole
      by_cases through : copies kernel fd
      · have short := badBuffer_short fun bad => stopped ⟨through, bad⟩
        rw [asI64_eq short] at whole
        have sum : Int.bmod (0 + written) (2 ^ 64) = written := by
          rw [Int.zero_add]
          exact Int.bmod_eq_of_le_mul_two (by omega) (by omega)
        rw [sum] at refused
        exact writevFrom_written (by omega) (by omega)
          ((copies_sysWrite stopped).trans through) refused
      refine writevFrom_uncopied ?_ refused
      rw [copies_sysWrite stopped]
      exact through
    · exact writes.reply refused

/-! What the other calls do with a range inside user memory and when they answer `EFAULT`. -/

structure Gauge (kernel : Kernel) (memory : Memory) (ranges : List (Nat × Nat)) (refused : Prop)
    (program : Program (Kernel × Reply)) : Prop where
  inside : (∀ range ∈ ranges, InUser range) → program.Within (· < userTop) memory
  stopped : refused → program.Within (· < userTop) memory ∧
    program.run memory = ((kernel, .error (-14)), memory)
  exact : program.Within (· < userTop) memory → (program.run memory).1.2 = .error (-14) →
    (∀ range ∈ ranges, InUser range) ∨ refused

variable {ranges : List (Nat × Nat)} {refused : Prop} {program : Program (Kernel × Reply)}

lemma Gauge.shielded_iff {call : Call}
    (gauge : Gauge kernel memory (call.ranges kernel memory) (call.Refused kernel memory)
      (call.perform env kernel)) :
    Shielded env kernel memory call ↔
      (∀ range ∈ call.ranges kernel memory, InUser range) ∨ call.Refused kernel memory := by
  constructor
  · intro shielded
    by_cases inUser : ∀ range ∈ call.ranges kernel memory, InUser range
    · exact .inl inUser
    · refine gauge.exact shielded.confined ?_
      rw [shielded.refuses inUser]
  rintro (inUser | refused)
  · exact ⟨gauge.inside inUser, fun outside => absurd inUser outside⟩
  · exact ⟨(gauge.stopped refused).1, fun _ => (gauge.stopped refused).2⟩

lemma inUser_single (inUser : ∀ range ∈ [(addr, length)], InUser range) : addr + length ≤ userTop :=
  inUser _ (mem_singleton_self _)

structure Quiet (inUser refused : Prop) (memory : Memory) (program : Program (Kernel × Reply)) :
    Prop where
  within : inUser → program.Within (· < userTop) memory
  reply : (program.run memory).1.2 = .error (-14) → refused

lemma quiet_pure {inUser : Prop} {result : Kernel × Reply}
    (reply : result.2 = .error (-14) → refused) : Quiet inUser refused memory (pure result) :=
  ⟨fun _ => within_pure _, reply⟩

lemma quiet_bind {inUser : Prop} {α : Type} {first : Program α}
    {rest : α → Program (Kernel × Reply)} (within : inUser → first.Within (· < userTop) memory)
    (after : Quiet inUser refused (first.run memory).2 (rest (first.run memory).1)) :
    Quiet inUser refused memory (first >>= rest) :=
  ⟨fun inUser => within_bind.2 ⟨within inUser, after.within inUser⟩, fun same =>
    after.reply (by rwa [run_bind] at same)⟩

lemma Quiet.gauge (quiet : Quiet (addr + length ≤ userTop) refused memory program)
    (stopped : refused → program.Within (· < userTop) memory ∧
      program.run memory = ((kernel, .error (-14)), memory)) :
    Gauge kernel memory [(addr, length)] refused program :=
  ⟨fun inUser => quiet.within (inUser_single inUser), stopped, fun _ same =>
    .inr (quiet.reply same)⟩

lemma Gauge.never (quiet : Quiet (addr + length ≤ userTop) False memory program) :
    Gauge kernel memory [(addr, length)] False program :=
  quiet.gauge False.elim

lemma Gauge.zero (quiet : Quiet (addr + length ≤ userTop) (addr = 0) memory program)
    (short : length ≤ userTop) : Gauge kernel memory [(addr, length)] False program := by
  refine ⟨fun inUser => quiet.within (inUser_single inUser), False.elim, ?_⟩
  intro _ same
  refine .inl fun range member => ?_
  rw [mem_singleton.1 member, InUser, quiet.reply same]
  omega

lemma gauge_sysWrite : Gauge kernel memory [(buf, len)]
    (copies kernel fd ∧ badBuffer buf len) (sysWrite kernel fd buf len) := by
  refine Quiet.gauge ⟨within_sysWrite, fun same => ?_⟩ ?_
  · by_contra goes
    exact (writes_sysWrite goes).reply same
  · rintro ⟨through, refused⟩
    rw [sysWrite_refused through refused]
    exact ⟨within_pure _, rfl⟩

lemma gauge_sysWritev {iov count : Nat} :
    Gauge kernel memory ((iov, 16 * count) :: entryRanges memory count iov)
      (iov ≠ 0 ∧ count ≤ 1024 ∧ RefusedEntry kernel memory fd count iov)
      (sysWritev kernel fd iov count) := by
  refine ⟨?_, ?_, ?_⟩
  · intro inUser
    unfold sysWritev
    split
    · exact within_pure _
    split
    · exact within_pure _
    · exact within_writevFrom (inUser _ mem_cons_self)
        fun range member => inUser range (mem_cons_of_mem _ member)
  · rintro ⟨_, few, refused⟩
    have filled : count ≠ 0 := by
      rintro rfl
      exact refused
    rw [sysWritev, if_neg (by omega), if_neg (by omega)]
    exact writevFrom_refused refused
  intro within same
  unfold sysWritev at within same
  split at same
  · cases same
  rename_i present
  rw [if_neg present] at within
  split at same
  · cases same
  rename_i few
  rw [if_neg few] at within
  exact .inr ⟨fun zero => present (.inl zero), by omega,
    writevFrom_exact (by omega) within same⟩

lemma gauge_copyIn {rest : List UInt8 → Program (Kernel × Reply)}
    (quiet : ∀ bytes memory, Quiet True False memory (rest bytes)) :
    Gauge kernel memory [(path, len)] (badBuffer path len) (match readUserBytes path len with
      | none => pure (kernel, .error (-14))
      | some bytes => bytes >>= rest) := by
  by_cases refused : badBuffer path len
  · rw [readUserBytes_refused refused]
    exact ⟨fun _ => within_pure _, fun _ => ⟨within_pure _, rfl⟩, fun _ _ => .inr refused⟩
  rw [readUserBytes_granted (Bool.eq_false_iff.2 refused)]
  refine Quiet.gauge (quiet_bind (fun inUser => ?_) ?_) fun bad => absurd bad refused
  · exact within_loads.2 (fits_start inUser (Nat.le_refl len))
  · exact ⟨fun _ => (quiet _ _).within trivial, fun same => ((quiet _ _).reply same).elim⟩

lemma resolve_readable (bytes : List UInt8) : resolve env bytes ≠ .unreadable := by
  unfold resolve
  split
  · dsimp only
    split
    · exact nofun
    · split <;> exact nofun
  · exact nofun

lemma fdAllocFile_code (state : State) (caller : Nat) (file : OpenFile) :
    (state.fdAllocFile caller file).2.code ≠ -14 := by
  unfold State.fdAllocFile
  split
  · dsimp only
    omega
  · exact nofun

lemma openPath_reply (bytes : List UInt8) : (openPath env kernel bytes).2 ≠ .error (-14) := by
  refine ofCode_ne ?_
  cases found : resolve env bytes with
  | unreadable => exact absurd found (resolve_readable bytes)
  | notUtf8 => exact nofun
  | file data | dir path => exact fdAllocFile_code _ _ _
  | absent => exact nofun

lemma gauge_sysOpen :
    Gauge kernel memory [(path, len)] (badBuffer path len) (sysOpen env kernel path len) :=
  gauge_copyIn fun bytes _ => quiet_pure (openPath_reply bytes)

lemma gauge_execWith {launch : List UInt8 → List UInt8 → Reply}
    (reply : ∀ elf bytes, launch elf bytes ≠ .error (-14)) :
    Gauge kernel memory [(path, len)] (badBuffer path len)
      (execWith env kernel path len launch) := by
  refine gauge_copyIn fun bytes memory => ?_
  split
  · exact quiet_pure nofun
  split
  · exact quiet_pure nofun
  · exact quiet_pure (reply _ _)

lemma gauge_sysExec :
    Gauge kernel memory [(path, len)] (badBuffer path len) (sysExec env kernel path len) := by
  refine gauge_execWith fun elf bytes => ?_
  split <;> exact nofun

lemma gauge_sysExecWait : Gauge kernel memory [(path, len)] (badBuffer path len)
    (sysExecWait env kernel path len) := by
  refine gauge_execWith fun elf bytes => ?_
  split
  · exact nofun
  · split <;> exact nofun

lemma stringSpan_mono {less more : Nat} (fewer : less ≤ more) :
    stringSpan memory less addr ≤ stringSpan memory more addr := by
  induction less generalizing addr more with
  | zero => exact Nat.zero_le _
  | succ less ih =>
    obtain ⟨more, rfl⟩ : ∃ rest, more = rest + 1 := ⟨more - 1, by omega⟩
    simp only [stringSpan]
    split
    · exact Nat.le_refl 1
    · exact Nat.succ_le_succ (ih (by omega))

lemma scanString_span (limit : Nat) :
    ((scanString limit addr).run memory).1 ≤ stringSpan memory limit addr := by
  induction limit generalizing addr with
  | zero => exact Nat.le_refl 0
  | succ limit ih =>
    simp only [scanString, stringSpan, run]
    split
    · exact Nat.zero_le _
    · simp only [run_bind, run_pure]
      exact Nat.succ_le_succ ih

lemma stringSpan_pos : 0 < stringSpan memory 4096 addr := by
  rw [stringSpan]
  split <;> omega

@[simp] lemma tracePath_keeps : ((tracePath path).run memory).2 = memory := by
  unfold tracePath
  split <;> simp

lemma within_tracePath (inUser : ∀ range ∈ stringRange memory path, InUser range) :
    Within (· < userTop) (tracePath path) memory := by
  unfold tracePath
  split
  · rename_i nonzero
    rw [stringRange, if_neg nonzero] at inUser
    have shorter : stringSpan memory 96 path ≤ stringSpan memory 4096 path :=
      stringSpan_mono (by decide)
    simp [fits_start (inUser_single inUser) shorter]
  · exact within_pure _

lemma stringRange_inUser (within : path ≠ 0 → Within (· < userTop) (scanString 4096 path) memory) :
    ∀ range ∈ stringRange memory path, InUser range := by
  unfold stringRange
  split
  · exact nofun
  rename_i nonzero
  intro range member
  rw [mem_singleton.1 member]
  have looked : 0 < stringSpan memory 4096 path := stringSpan_pos
  exact (within_scan.1 (within nonzero)).resolve_left (by omega)

lemma within_sysOpen (fits : path ≠ 0 → Fits userTop path len) :
    Within (· < userTop) (sysOpen env kernel path len) memory := by
  unfold sysOpen
  by_cases refused : badBuffer path len
  · rw [readUserBytes_refused refused]
    exact within_pure _
  have nonzero : path ≠ 0 := by
    rintro rfl
    exact refused rfl
  rw [readUserBytes_granted (Bool.eq_false_iff.2 refused)]
  exact within_bind.2 ⟨within_loads.2 (fits nonzero), within_pure _⟩

@[simp] lemma sysOpen_keeps : ((sysOpen env kernel path len).run memory).2 = memory := by
  unfold sysOpen
  by_cases refused : badBuffer path len
  · rw [readUserBytes_refused refused]
    rfl
  · rw [readUserBytes_granted (Bool.eq_false_iff.2 refused)]
    simp

lemma within_openUnder {absolute : Bool} {dirfd : Nat} (fits : Fits userTop path len) :
    Within (· < userTop) (openUnder env kernel absolute dirfd path len) memory := by
  unfold openUnder
  split
  · exact within_sysOpen fun _ => fits
  split
  · simp [fits]
  · exact within_sysOpen fun _ => fits

lemma gauge_openat {dirfd : Nat} : Gauge kernel memory (stringRange memory path) False
    (openat env kernel dirfd path) := by
  refine ⟨fun inUser => ?_, False.elim, fun within _ => .inl ?_⟩
  · have traced := within_tracePath inUser
    by_cases zero : path = 0
    · subst zero
      have fits : Fits userTop 0 0 := .inl rfl
      simp only [openat, within_bind, traced, tracePath_keeps, ne_eq, not_true_eq_false,
        if_false, within_pure, run_pure, true_and]
      exact within_openUnder fits
    rw [stringRange, if_neg zero] at inUser
    have inUser := inUser_single inUser
    have string : ((scanString 4096 path).run memory).1 ≤ stringSpan memory 4096 path :=
      scanString_span 4096
    have fits : Fits userTop path ((scanString 4096 path).run memory).1 := fits_start inUser string
    have scanned : Fits userTop path (stringSpan memory 4096 path) :=
      fits_start inUser (Nat.le_refl _)
    have first : Fits userTop path 1 := fits_start inUser stringSpan_pos
    simp only [openat, within_bind, traced, tracePath_keeps, ne_eq, zero, not_false_eq_true,
      if_true, within_scan, scanned, run_scanString, within_map, within_loadLe, first, run_map,
      run_loadLe, true_and]
    exact within_openUnder fits
  refine stringRange_inUser fun nonzero => ?_
  simp only [openat, within_bind, tracePath_keeps, ne_eq, nonzero, not_false_eq_true,
    if_true] at within
  exact within.2.1

section WithPath

variable {use : Kernel → Nat → Program (Kernel × Reply)}

lemma withPath_zero : Within (· < userTop) (withPath env kernel 0 use) memory ∧
    (withPath env kernel 0 use).run memory = ((kernel, .error (-14)), memory) := by
  simp [withPath, tracePath]

lemma within_withPath (inUser : ∀ range ∈ stringRange memory path, InUser range)
    (used : ∀ kernel fd, Within (· < userTop) (use kernel fd) memory) :
    Within (· < userTop) (withPath env kernel path use) memory := by
  have traced := within_tracePath inUser
  by_cases zero : path = 0
  · rw [zero]
    exact withPath_zero.1
  rw [stringRange, if_neg zero] at inUser
  have inUser := inUser_single inUser
  have string : ((scanString 4096 path).run memory).1 ≤ stringSpan memory 4096 path :=
    scanString_span 4096
  have scanned : Fits userTop path (stringSpan memory 4096 path) :=
    fits_start inUser (Nat.le_refl _)
  have opened : Within (· < userTop)
      (sysOpen env kernel path ((scanString 4096 path).run memory).1) memory :=
    within_sysOpen fun _ => fits_start inUser string
  simp only [withPath, within_bind, traced, tracePath_keeps, zero, if_false, within_scan,
    scanned, run_scanString, opened, sysOpen_keeps, true_and]
  split
  · simp [within_bind, used, within_pure]
  · exact within_pure _

lemma withPath_exact (within : Within (· < userTop) (withPath env kernel path use) memory) :
    ∀ range ∈ stringRange memory path, InUser range := by
  refine stringRange_inUser fun nonzero => ?_
  simp only [withPath, within_bind, tracePath_keeps, nonzero, if_false] at within
  exact within.2.1

lemma withPath_reply (nonzero : path ≠ 0)
    (used : ∀ kernel fd, ((use kernel fd).run memory).1.2 ≠ .error (-14)) :
    ((withPath env kernel path use).run memory).1.2 ≠ .error (-14) := by
  simp only [withPath, run_bind, tracePath_keeps, nonzero, if_false, run_scanString, sysOpen_keeps]
  split
  · simp only [run_bind, run_pure]
    exact used _ _
  have granted : badBuffer path ((scanString 4096 path).run memory).1 = false :=
    badBuffer_false nonzero (Nat.le_trans (scanString_le 4096) (by decide))
  rw [sysOpen, readUserBytes_granted granted]
  simp only [run_bind, run_pure]
  exact openPath_reply _

end WithPath

lemma within_storeStat {stat size mode : Nat} (inUser : stat + 144 ≤ userTop) :
    Within (· < userTop) (storeStat stat size mode) memory := by
  have zeros : Fits userTop stat 144 := fits_start inUser (Nat.le_refl _)
  have sized : Fits userTop (offsetBy stat 48) 8 := fits_part inUser (by decide)
  have block : Fits userTop (offsetBy stat 56) 8 := fits_part inUser (by decide)
  have blocks : Fits userTop (offsetBy stat 64) 8 := fits_part inUser (by decide)
  have moded : Fits userTop (offsetBy stat 24) 4 := fits_part inUser (by decide)
  simp [storeStat, zeros, sized, block, blocks, moded]

variable {stat : Nat} {event : Nat}

lemma quiet_sysFstat : Quiet (stat + 144 ≤ userTop) False memory (sysFstat kernel fd stat) := by
  unfold sysFstat
  dsimp only
  split
  · exact quiet_pure nofun
  split
  · exact quiet_pure nofun
  split
  · exact quiet_bind within_storeStat (quiet_pure nofun)
  · exact quiet_pure nofun

lemma gauge_sysStatPath : Gauge kernel memory
    ((stat, 144) :: stringRange memory path) (path = 0) (sysStatPath env kernel path stat) := by
  refine ⟨fun inUser => ?_, ?_, fun within same => .inr ?_⟩
  · exact within_withPath (fun range member => inUser range (mem_cons_of_mem _ member))
      fun _ _ => quiet_sysFstat.within (inUser _ mem_cons_self)
  · rintro rfl
    exact withPath_zero
  · by_contra nonzero
    exact withPath_reply nonzero (fun _ _ => quiet_sysFstat.reply) same

lemma gauge_sysAccessPath :
    Gauge kernel memory (stringRange memory path) False (sysAccessPath env kernel path) :=
  ⟨fun inUser => within_withPath inUser fun _ _ => within_pure _, False.elim,
    fun within _ => .inl (withPath_exact within)⟩

lemma sysRead_delivered (state : State) : (state.sysRead fd buf len).2.delivered.length ≤ len := by
  have popped : ∀ count pipe, (PipeBuf.pop count pipe).2.length = count := by
    intro count
    induction count with
    | zero => exact fun _ => rfl
    | succ count ih => exact fun pipe => congrArg (· + 1) (ih _)
  unfold State.sysRead
  iterate 3
    split
    · exact Nat.zero_le _
  dsimp only
  split
  · split
    · exact Nat.zero_le _
    split
    · exact Nat.zero_le _
    · simp only [popped]
      exact Nat.min_le_left _ _
  split
  · exact Nat.zero_le _
  · exact length_take_le _ _

lemma sysRead_code (state : State) (nonzero : buf ≠ 0) :
    (state.sysRead fd buf len).2.code ≠ -14 := by
  unfold State.sysRead
  split
  · exact nofun
  split
  · exact nofun
  dsimp only
  split
  · split
    · exact nofun
    split
    · split <;> exact nofun
    · dsimp only
      omega
  split
  · exact nofun
  · dsimp only
    omega

lemma gauge_sysRead :
    Gauge kernel memory [(buf, len)] (buf = 0 ∧ len ≠ 0) (sysRead env kernel fd buf len) := by
  refine Quiet.gauge ?_ ?_
  · unfold sysRead
    split
    · exact quiet_pure nofun
    rename_i filled
    split
    · rename_i zero
      exact quiet_pure fun _ => ⟨zero, filled⟩
    rename_i nonzero
    have stored : ¬ len < 8 → buf + len ≤ userTop → Fits userTop buf 8 :=
      fun wide inUser => fits_start inUser (Nat.not_lt.1 wide)
    split
    · split
      · exact quiet_pure nofun
      rename_i wide
      dsimp only
      split
      · exact quiet_bind (fun inUser => within_storeLe.2 (stored wide inUser)) (quiet_pure nofun)
      · exact quiet_pure nofun
    · split
      · exact quiet_pure nofun
      rename_i wide
      split
      · exact quiet_pure nofun
      · exact quiet_bind (fun inUser => within_storeLe.2 (stored wide inUser)) (quiet_pure nofun)
    · refine quiet_bind (fun inUser => within_stores.2 (fits_start inUser (sysRead_delivered _)))
        (quiet_pure fun same => ?_)
      exact absurd same (ofCode_ne (sysRead_code _ nonzero))
  · rintro ⟨rfl, filled⟩
    rw [sysRead, if_neg filled, if_pos rfl]
    exact ⟨within_pure _, rfl⟩

lemma sysPipe2_code (state : State) (caller : Nat) {pipefd : Nat}
    (nonzero : pipefd ≠ 0) : (state.sysPipe2 caller pipefd).2.code ≠ -14 := by
  unfold State.sysPipe2
  rw [if_neg nonzero]
  split
  · exact nofun
  · split <;> exact nofun

lemma gauge_sysPipe2 {pipefd : Nat} :
    Gauge kernel memory [(pipefd, 8)] False (sysPipe2 env kernel pipefd) := by
  have reply : ofCode (kernel.descriptors.sysPipe2 env.caller pipefd).2.code = .error (-14) →
      pipefd = 0 := fun same => by_contra fun nonzero => ofCode_ne (sysPipe2_code _ _ nonzero) same
  refine .zero ?_ (by decide)
  unfold sysPipe2
  dsimp only
  split
  · split
    · refine quiet_bind (fun inUser => ?_) (quiet_bind (fun inUser => ?_) (quiet_pure reply))
      · exact within_storeLe.2 (fits_start inUser (by decide))
      · exact within_storeLe.2 (fits_part inUser (by decide))
    · exact quiet_pure reply
  · exact quiet_pure reply

lemma gauge_sysArchPrctl {code : Nat} :
    Gauge kernel memory [(addr, 8)] False (sysArchPrctl kernel code addr) := by
  refine .zero ?_ (by decide)
  unfold sysArchPrctl
  split
  · exact quiet_pure nofun
  · split
    · rename_i zero
      exact quiet_pure fun _ => zero
    · exact quiet_bind (fun inUser => within_storeLe.2 (fits_start inUser (Nat.le_refl 8)))
        (quiet_pure nofun)
  · exact quiet_pure nofun

lemma gauge_sysTimerfdSettime {flags newValue : Nat} :
    Gauge kernel memory [(newValue, 32)] False
      (sysTimerfdSettime env kernel fd flags newValue) := by
  refine .never ?_
  unfold sysTimerfdSettime
  split
  · exact quiet_pure nofun
  refine ⟨fun inUser => ?_, by simp⟩
  have first : Fits userTop newValue 8 := fits_start inUser (by decide)
  have rest : ∀ offset, offset + 8 ≤ 32 → Fits userTop (offsetBy newValue offset) 8 :=
    fun _ => fits_part inUser
  simp [loadI64, first, rest]

@[simp] lemma traceEvent_keeps :
    ((traceEvent kernel event).run memory).2 = memory := by
  unfold traceEvent
  split <;> simp

lemma within_traceEvent (inUser : kernel.ctlLog < 32 → event + 16 ≤ userTop) :
    Within (· < userTop) (traceEvent kernel event) memory := by
  unfold traceEvent
  split
  · rename_i logged
    have inUser := inUser logged.1
    have short : Fits userTop event 4 := fits_start inUser (by decide)
    have long : Fits userTop event 16 := fits_start inUser (Nat.le_refl 16)
    simp [short, long]
  · exact within_pure _

lemma gauge_sysEpollCtl {epfd op : Nat} :
    Gauge kernel memory [(event, if kernel.ctlLog < 32 then 16 else epollEventSize)] False
      (sysEpollCtl kernel epfd op fd event) := by
  refine .never (quiet_bind (fun inUser => ?_) ?_)
  · exact within_traceEvent fun logged => by rwa [if_pos logged] at inUser
  have wide : epollEventSize ≤ if kernel.ctlLog < 32 then 16 else epollEventSize := by
    split <;> decide
  generalize (if kernel.ctlLog < 32 then 16 else epollEventSize) = size at wide ⊢
  split
  · exact quiet_pure nofun
  split
  · refine ⟨fun inUser => ?_, by simp⟩
    have whole : event + epollEventSize ≤ userTop := by omega
    have events : Fits userTop event 4 := fits_start whole (by decide)
    have data : Fits userTop (offsetBy event epollDataOff) 8 := fits_part whole (by decide)
    simp [events, data]
  · exact quiet_pure nofun

variable {maxevents : Int} {eventsOut : Nat}

lemma within_collectReady {entries : List EpollEntry}
    {count : Nat} (inUser : eventsOut + maxevents.toNat * epollEventSize ≤ userTop) :
    Within (· < userTop) (collectReady env eventsOut maxevents entries kernel count) memory := by
  induction entries generalizing kernel count memory with
  | nil => exact within_pure _
  | cons entry rest ih =>
    rw [collectReady]
    split
    · exact within_pure _
    split
    · have below : count + 1 ≤ maxevents.toNat := by omega
      have last : (count + 1) * epollEventSize ≤ maxevents.toNat * epollEventSize :=
        Nat.mul_le_mul_right _ below
      have slot : offsetBy eventsOut (count * epollEventSize) + epollEventSize ≤ userTop := by
        rw [Nat.succ_mul] at last
        rw [offsetBy_eq (by omega)]
        omega
      have events : Fits userTop (offsetBy eventsOut (count * epollEventSize)) 4 :=
        fits_start slot (by decide)
      have data := fits_part slot (show epollDataOff + 8 ≤ epollEventSize by decide)
      rw [within_bind, storeEvent, within_bind, within_storeLe, within_storeLe]
      exact ⟨⟨events, data⟩, ih⟩
    · exact ih

lemma within_epollCollectReady {epfd : Nat}
    (inUser : eventsOut + maxevents.toNat * epollEventSize ≤ userTop) :
    Within (· < userTop) (epollCollectReady env kernel epfd eventsOut maxevents) memory := by
  unfold epollCollectReady
  split
  · exact within_pure _
  · exact within_collectReady inUser

lemma epollCollectReady_room {epfd : Nat}
    (ready : 0 < ((epollCollectReady env kernel epfd eventsOut maxevents).run memory).1.2) :
    0 < maxevents := by
  unfold epollCollectReady at ready
  split at ready
  · cases ready
  · omega

lemma gauge_sysEpollWait {epfd maxevents timeout : Nat} :
    Gauge kernel memory [(eventsOut, (asI32 maxevents).toNat * epollEventSize)] False
      (sysEpollWait env kernel epfd eventsOut maxevents timeout) := by
  refine .never (quiet_bind within_epollCollectReady ?_)
  dsimp only
  split
  · rename_i ready
    refine quiet_bind (fun inUser => ?_) (quiet_pure nofun)
    have room := epollCollectReady_room ready
    have one : 1 * epollEventSize ≤ (asI32 maxevents).toNat * epollEventSize :=
      Nat.mul_le_mul_right _ (by omega)
    have first : eventsOut + epollEventSize ≤ userTop := by omega
    have events : Fits userTop eventsOut 4 := fits_start first (by decide)
    have data : Fits userTop (offsetBy eventsOut 4) 8 := fits_part first (by decide)
    unfold traceReady
    split
    · split
      · simp [events, data]
      · exact within_pure _
    · exact within_pure _
  · refine quiet_pure ?_
    split <;> exact nofun

lemma gauge_sysClipboardSet {ptr : Nat} :
    Gauge kernel memory [(ptr, len)] (ptr = 0 ∧ len ≠ 0 ∧ len ≤ clipboardMax)
      (sysClipboardSet kernel ptr len) := by
  by_cases granted : len ≠ 0 ∧ len ≤ clipboardMax
  · have copied := @gauge_copyIn kernel memory len ptr
      (fun data => pure ({ kernel with clipboard := data.take clipboardMax }, .value 0))
      fun _ _ => quiet_pure nofun
    have small : clipboardMax < 0x2000000 := by decide
    have zero : badBuffer ptr len ↔ ptr = 0 ∧ len ≠ 0 ∧ len ≤ clipboardMax := by
      simp only [badBuffer, Bool.or_eq_true, decide_eq_true_eq]
      omega
    rw [zero] at copied
    rw [sysClipboardSet, if_neg granted.1, if_neg (by omega)]
    exact copied
  have refused : ¬ (ptr = 0 ∧ len ≠ 0 ∧ len ≤ clipboardMax) := fun all => granted all.2
  unfold sysClipboardSet
  split
  · exact ⟨fun _ => within_pure _, fun all => absurd all refused, nofun⟩
  · rw [if_pos (by omega)]
    exact ⟨fun _ => within_pure _, fun all => absurd all refused, nofun⟩

lemma within_writeUserBytes (inUser : addr + length ≤ userTop) (short : bytes.length ≤ length) :
    Within (· < userTop) (writeUserBytes addr bytes) memory := by
  unfold writeUserBytes
  split
  · exact within_pure _
  · simp [fits_start inUser short]

lemma writeUserBytes_copied :
    ((writeUserBytes addr bytes).run memory).1 = !badBuffer addr bytes.length := by
  unfold writeUserBytes
  split
  · rename_i refused
    rw [refused]
    rfl
  rename_i granted
  rw [Bool.eq_false_iff.2 granted]
  simp

lemma gauge_sysClipboardGet :
    Gauge kernel memory [(buf, len)] False (sysClipboardGet kernel buf len) := by
  refine .never ?_
  unfold sysClipboardGet
  split
  · exact quiet_pure nofun
  rename_i present
  split
  · exact quiet_pure nofun
  have small : clipboardMax < 0x2000000 := by decide
  have taken := length_take_le len kernel.clipboard
  refine quiet_bind (fun inUser => within_writeUserBytes inUser taken) (quiet_pure ?_)
  rw [writeUserBytes_copied, badBuffer_false (fun zero => present (.inl zero)) (by omega)]
  exact nofun

lemma gauge_sysEngineLibraryPathRead {dst : Nat} :
    Gauge kernel memory [(dst, len)] (dst = 0 ∧ engineLibraryPath.length ≤ len)
      (sysEngineLibraryPathRead kernel dst len) := by
  refine Quiet.gauge ?_ ?_
  · unfold sysEngineLibraryPathRead
    split
    · exact quiet_pure nofun
    rename_i narrow
    have room := Nat.not_lt.1 narrow
    refine quiet_bind (fun inUser => within_writeUserBytes inUser room) (quiet_pure fun same => ?_)
    refine ⟨by_contra fun nonzero => ?_, room⟩
    rw [writeUserBytes_copied, badBuffer_false nonzero (by decide)] at same
    cases same
  · rintro ⟨rfl, room⟩
    rw [sysEngineLibraryPathRead, if_neg (Nat.not_lt.2 room)]
    exact ⟨within_pure _, rfl⟩

def oneFile : Kernel :=
  { descriptors := { files := fun fd => if fd = 3 then { data := [65], used := true } else {} } }

def emptyDisk : Environment where
  caller := 1
  now := 0
  validUtf8 := fun _ => true
  lookup := fun _ => none
  isDir := fun _ => false
  spawn := fun _ _ => none

def kernelBase : UInt64 := 0xFFFF800000000000

end OsCortex.UserPointer
