import OsCortex.Syscall.PointerCore

/-! The calls that take a descriptor number, for every 64-bit number. -/

namespace OsCortex.UserPointer

open Access Program
open Descriptor (maxOpenFiles)

variable (env : Environment) (kernel : Kernel) (memory : Memory)

def Kernel.Denotes (fd : Nat) : Prop :=
  fd < 3 ∨ fd < maxOpenFiles ∧ (kernel.descriptors.files fd).used ∨
    fd < 2 ^ 32 ∧ ((kernel.timers.lookup fd).isSome ∨ (kernel.eventfds.lookup fd).isSome)

inductive NumberCall where
  | read (fd buf len : UInt64)
  | write (fd buf len : UInt64)
  | writev (fd iov count : UInt64)
  | lseek (fd offset whence : UInt64)
  | fstat (fd statBuf : UInt64)
  | close (fd : UInt64)
  | dirPath (fd : UInt64)

def NumberCall.fd : NumberCall → Nat
  | .read fd _ _ | .write fd _ _ | .writev fd _ _ | .lseek fd _ _ | .fstat fd _ | .close fd
  | .dirPath fd => fd.toNat

/-- `fd_dir_path` has one error, `None`. -/
def NumberCall.reply : NumberCall → Reply
  | .read fd buf len => ((sysRead env kernel fd.toNat buf.toNat len.toNat).run memory).1.2
  | .write fd buf len => ((sysWrite kernel fd.toNat buf.toNat len.toNat).run memory).1.2
  | .writev fd iov count => ((sysWritev kernel fd.toNat iov.toNat count.toNat).run memory).1.2
  | .lseek fd offset whence =>
    .ofCode (kernel.descriptors.sysLseek fd.toNat (asI64 offset.toNat) whence.toNat).2.code
  | .fstat fd statBuf => ((sysFstat kernel fd.toNat statBuf.toNat).run memory).1.2
  | .close fd => .ofCode (kernel.descriptors.sysClose fd.toNat).2.code
  | .dirPath fd => match fdDirPath env kernel fd.toNat with
    | some path => .value path.length
    | none => .error (-9)

/-- The timers and events are looked up under the low half of the number. -/
def NumberCall.Handled : NumberCall → Prop
  | .read fd buf len => kernel.Denotes fd.toNat ∨ len ≠ 0 ∧ buf ≠ 0 ∧
      kernel.timers.lookup (fd.toNat % 2 ^ 32) = none ∧
      kernel.eventfds.lookup (fd.toNat % 2 ^ 32) = none
  | .write fd _ _ | .writev fd _ _ | .close fd => kernel.Denotes fd.toNat
  | .fstat fd _ => fd.toNat < maxOpenFiles
  | .lseek _ _ _ | .dirPath _ => True

def Kernel.Shut (fd : Nat) : Prop :=
  maxOpenFiles ≤ fd ∨ (kernel.descriptors.files fd).used = false

variable {env kernel memory} {fd buf len : Nat}

lemma ofCode_ne_panic (code : Int) : Reply.ofCode code ≠ .panic := by
  unfold Reply.ofCode
  split <;> nofun

lemma consoleWrite_reply :
    ((consoleWrite kernel buf len).run memory).1 = (kernel, .error (-14)) ∨
      ((consoleWrite kernel buf len).run memory).1 = (kernel, .value len) := by
  simp only [consoleWrite]
  split
  · exact .inl rfl
  · exact .inr (by simp)

lemma pipeWrite_reply (pipe : Nat) :
    ((pipeWrite kernel pipe buf len).run memory).1.2 ≠ .panic := by
  simp only [pipeWrite]
  split
  · simp
  split
  · simp
  · simp only [run_bind, run_pure]
    split <;> simp

lemma sysWrite_reply :
    let result := ((sysWrite kernel fd buf len).run memory).1
    result.2 ≠ .panic ∧ (kernel.Shut fd →
      result.1.descriptors = kernel.descriptors ∧ result.2 ≠ .error (-9)) := by
  simp only [sysWrite]
  split
  · split
    · simp [timerfdWrite]
    split <;> simp [eventfdWrite]
  rename_i small
  have console := @consoleWrite_reply kernel memory buf len
  split
  · rcases console with same | same <;> simp [same]
  split
  · rename_i pipe isPipe
    refine ⟨?_, fun shut => ?_⟩
    · split
      · simp
      · exact pipeWrite_reply pipe
    · simp [shut.resolve_left small] at isPipe
  split
  · simp [timerfdWrite]
  · rcases console with same | same <;> simp [same]

lemma writevFrom_reply (Good : Reply → Prop) (Keeps : Kernel → Prop)
    (values : ∀ count, Good (.value count))
    (writes : ∀ kernel memory base len, Keeps kernel →
      let result := ((sysWrite kernel fd base len).run memory).1
      Keeps result.1 ∧ Good result.2)
    (left entry : Nat) (total : Int) (kept : Keeps kernel) :
    Good ((writevFrom fd kernel left entry total).run memory).1.2 := by
  induction left generalizing kernel memory entry total with
  | zero => exact values total
  | succ left ih =>
    simp only [writevFrom, run_bind]
    split
    · exact ih _ _ kept
    rw [run_bind]
    have written := fun memory base len => writes kernel memory base len kept
    split
    · split
      · simp only [run_pure]
        split <;> exact values _
      · split
        · exact values _
        · exact ih _ _ (written _ _ _).1
    · simp only [run_pure]
      split
      · exact values _
      · exact (written _ _ _).2

lemma sysWritev_reply {iov count : Nat} :
    let reply := ((sysWritev kernel fd iov count).run memory).1.2
    reply ≠ .panic ∧ (kernel.Shut fd → reply ≠ .error (-9)) := by
  simp only [sysWritev]
  split
  · simp
  split
  · simp
  refine ⟨?_, fun shut => ?_⟩
  · exact writevFrom_reply (· ≠ .panic) (fun _ => True) nofun
      (fun _ _ _ _ _ => ⟨trivial, sysWrite_reply.1⟩) _ _ _ trivial
  · refine writevFrom_reply (· ≠ .error (-9))
      (fun later => later.descriptors = kernel.descriptors) nofun ?_ _ _ _ rfl
    intro later memory base len same
    have written := (@sysWrite_reply later memory fd base len).2 (by rwa [Kernel.Shut, same])
    exact ⟨written.1.trans same, written.2⟩

lemma sysRead_reply :
    let reply := ((sysRead env kernel fd buf len).run memory).1.2
    reply ≠ .panic ∧ (kernel.Shut fd →
      (reply = .error (-9) ↔ len ≠ 0 ∧ buf ≠ 0 ∧ kernel.timers.lookup (fd % 2 ^ 32) = none ∧
        kernel.eventfds.lookup (fd % 2 ^ 32) = none)) := by
  simp only [sysRead]
  split
  · simp [*]
  split
  · simp [*]
  rename_i some located
  split
  iterate 2
    rename_i kind
    simp only [kind]
    split
    · simp
    split <;> simp
  · rename_i untimed uncounted
    refine ⟨by simpa using ofCode_ne_panic _, fun shut => ?_⟩
    refine iff_of_true ?_ ⟨some, located, untimed, uncounted⟩
    simp [Descriptor.State.sysRead, some, located, show _ ∨ _ from shut, Reply.ofCode]

/-- Every number is handled: the call does not index outside its table, and refuses a number that
denotes nothing. -/
theorem number_handled_iff (env : Environment) (kernel : Kernel) (memory : Memory)
    (call : NumberCall) :
    (call.reply env kernel memory ≠ .panic ∧ (¬ kernel.Denotes call.fd →
      call.reply env kernel memory = .error (-9))) ↔ call.Handled kernel := by
  have shut : ¬ kernel.Denotes call.fd → kernel.Shut call.fd := by
    simp only [Kernel.Denotes, Kernel.Shut, not_or, not_and, Bool.not_eq_true]
    exact fun unknown => or_iff_not_imp_left.2 fun small => unknown.2.1 (not_le.1 small)
  cases call with
  | read fd buf len =>
    have reads := @sysRead_reply env kernel memory fd.toNat buf.toNat len.toNat
    have zero : ∀ word : UInt64, word.toNat ≠ 0 ↔ word ≠ 0 := fun word => by
      simp [← UInt64.toNat_inj]
    simp only [zero] at reads
    refine ⟨fun right => or_iff_not_imp_left.2 fun unknown => ?_, fun handled => ⟨reads.1, ?_⟩⟩
    · exact (reads.2 (shut unknown)).1 (right.2 unknown)
    · exact fun unknown => (reads.2 (shut unknown)).2 (handled.resolve_left unknown)
  | write fd buf len =>
    refine ⟨fun right => by_contra fun unknown => ?_, fun known => ⟨sysWrite_reply.1, absurd known⟩⟩
    exact (sysWrite_reply.2 (shut unknown)).2 (right.2 unknown)
  | writev fd iov count =>
    refine ⟨fun right => by_contra fun unknown => ?_, fun known => ⟨sysWritev_reply.1, absurd known⟩⟩
    exact sysWritev_reply.2 (shut unknown) (right.2 unknown)
  | lseek fd offset whence =>
    refine ⟨fun _ => trivial, fun _ => ⟨ofCode_ne_panic _, fun unknown => ?_⟩⟩
    have bad : kernel.Shut fd.toNat := shut unknown
    unfold Kernel.Shut at bad
    simp [NumberCall.reply, Descriptor.State.sysLseek, bad, Reply.ofCode]
  | fstat fd statBuf =>
    simp only [NumberCall.reply, NumberCall.Handled, NumberCall.fd, sysFstat] at shut ⊢
    split
    · simp [*]
    rename_i small
    refine ⟨fun _ => not_le.1 small, fun _ => ?_⟩
    split
    · simp
    rename_i used
    refine ⟨by split <;> simp, fun unknown => absurd ((shut unknown).resolve_left small) ?_⟩
    have high : ¬ fd.toNat < 3 := fun low => unknown (.inl low)
    simpa [fileToStat, high] using used
  | close fd =>
    have zero : (kernel.descriptors.sysClose fd.toNat).2.code = 0 := by
      unfold Descriptor.State.sysClose
      split
      · rfl
      dsimp only
      split <;> rfl
    simp [NumberCall.reply, NumberCall.Handled, NumberCall.fd, zero, Reply.ofCode]
  | dirPath fd =>
    refine ⟨fun _ => trivial, fun _ => ?_⟩
    simp only [NumberCall.reply]
    split
    · rename_i found
      refine ⟨nofun, fun unknown => ?_⟩
      simp only [fdDirPath, Option.ite_none_right_eq_some] at found
      have closed := (shut unknown).resolve_left (not_le.2 found.1.1)
      simp [NumberCall.fd, found.1.2.1] at closed
    · exact ⟨nofun, fun _ => rfl⟩

/-- `fstat` indexes its table with 64, a write and a close of 5 succeed, and number `2 ^ 32 + 64`
is read as the timer 64. -/
theorem unknown_numbers : ∃ (env : Environment) (kernel : Kernel),
    (NumberCall.fstat 64 0).reply env kernel (fun _ => 0) = .panic ∧
    ¬ kernel.Denotes 5 ∧ (NumberCall.write 5 1 1).reply env kernel (fun _ => 0) = .value 1 ∧
    (NumberCall.close 5).reply env kernel (fun _ => 0) = .value 0 ∧
    ¬ kernel.Denotes (2 ^ 32 + 64) ∧
    (NumberCall.read (2 ^ 32 + 64) 1 8).reply env kernel (fun _ => 0) = .value 8 := by
  refine ⟨⟨1, 0, fun _ => true, fun _ => none, fun _ => false, fun _ _ => none⟩,
    { timers := [(64, ⟨0, 0, 1⟩)] }, ?_⟩
  refine ⟨rfl, ?_, rfl, rfl, ?_, rfl⟩
  all_goals simp [Kernel.Denotes, maxOpenFiles]

end OsCortex.UserPointer
