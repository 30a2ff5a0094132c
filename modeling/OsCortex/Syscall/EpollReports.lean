import OsCortex.Syscall.PointerCore

/-!
What `epoll_wait` reports. `epoll_collect_ready` expires each timer as it comes to it, which does
not change what is ready.
-/

namespace OsCortex.UserPointer

open Access Program List Entries Timerfd

variable (env : Environment) (kernel : Kernel) (eventsOut : Nat)

def Kernel.readable (now : Nat) (entry : EpollEntry) : Bool :=
  match kernel.timers.lookup entry.fd with
  | some timer => 0 < timer.pending || timer.due now
  | none => 0 < (kernel.eventfds.lookup entry.fd).getD 0 || kernel.pipeReadableForFd entry.fd

def reported (epfd : Nat) (maxevents : Int) : List EpollEntry :=
  if eventsOut = 0 then []
  else ((kernel.watched epfd).filter (kernel.readable env.now)).take maxevents.toNat

def storeEvents : Nat → List EpollEntry → Program Unit
  | _, [] => pure ()
  | index, entry :: rest => do
      storeEvent (offsetBy eventsOut (index * epollEventSize)) entry.data
      storeEvents (index + 1) rest

structure CtlCall where
  epfd : UInt64
  op : UInt64
  fd : UInt64
  event : UInt64
  memory : Memory

def Kernel.control (call : CtlCall) : Kernel :=
  ((sysEpollCtl kernel call.epfd.toNat call.op.toNat call.fd.toNat call.event.toNat).run
    call.memory).1.1

variable {env kernel eventsOut} {now : Nat} (small : now < 2 ^ 64)

section

include small

lemma expire_pending (timer : TimerState) :
    0 < (timer.expire now).pending ↔ 0 < timer.pending ∨ timer.due now := by
  unfold TimerState.expire
  split
  · rename_i due
    refine iff_of_true ?_ (.inr due)
    simp only [TimerState.due, Bool.and_eq_true, bne_iff_ne, decide_eq_true_eq] at due
    split
    · rw [TimerState.elapsedPeriods]
      have few := Nat.div_le_self (now - timer.deadlineNs) timer.periodNs
      generalize (now - timer.deadlineNs) / timer.periodNs = periods at few ⊢
      rw [Nat.mod_eq_of_lt (by omega)]
      exact lt_min (by omega) (by decide)
    · exact lt_min (by omega) (by decide)
  · simp [*]

lemma ready_expire_eq (entry : EpollEntry) :
    (kernel.expire entry.fd now).ready entry.fd = kernel.readable now entry := by
  simp only [Kernel.ready, Kernel.readable, Kernel.expire, lookup_modify_self]
  cases kernel.timers.lookup entry.fd with
  | none => rfl
  | some timer =>
    refine Bool.eq_iff_iff.2 ?_
    simp only [Option.map_some, Bool.or_eq_true, decide_eq_true_iff]
    exact expire_pending small timer

lemma readable_expire (fd : Nat) :
    (kernel.expire fd now).readable now = kernel.readable now := by
  funext entry
  by_cases same : entry.fd = fd
  · subst same
    simp only [Kernel.readable, Kernel.expire, lookup_modify_self]
    cases kernel.timers.lookup entry.fd with
    | none => rfl
    | some timer =>
      by_cases due : timer.due now
      · have pending := (expire_pending small timer).2 (.inr due)
        simp [pending, due]
      · simp [TimerState.expire, due]
  · simp only [Kernel.readable, Kernel.expire, lookup_modify_of_ne same]
    rfl

end

lemma collectReady_reports (small : env.now < 2 ^ 64) (maxevents : Int)
    (entries : List EpollEntry) (count : Nat) (memory : Memory) :
    let result := (collectReady env eventsOut maxevents entries kernel count).run memory
    let events := (entries.filter (kernel.readable env.now)).take (maxevents - count).toNat
    result.1.2 = count + events.length ∧
      result.2 = ((storeEvents eventsOut count events).run memory).2 := by
  induction entries generalizing kernel count memory with
  | nil => simp [collectReady, storeEvents]
  | cons entry rest ih =>
    have later := fun count memory => @ih (kernel.expire entry.fd env.now) count memory
    simp only [readable_expire small] at later
    dsimp only
    rw [collectReady, ready_expire_eq small]
    split
    · rw [show (maxevents - count).toNat = 0 by omega]
      simp [storeEvents]
    split
    · rename_i ready
      obtain ⟨left, more⟩ : ∃ left, (maxevents - count).toNat = left + 1 :=
        ⟨(maxevents - count).toNat - 1, by omega⟩
      rw [filter_cons_of_pos ready, more, take_succ_cons, run_bind, storeEvents, run_bind]
      have stored := later (count + 1)
      rw [show (maxevents - (count + 1 : Nat)).toNat = left by omega] at stored
      refine ⟨(stored _).1.trans ?_, (stored _).2⟩
      rw [length_cons]
      omega
    · rename_i idle
      rw [filter_cons_of_neg idle]
      exact later count memory

lemma setEntry_nodup {entries : List EpollEntry} (unique : (entries.map (·.fd)).Nodup)
    (entry : EpollEntry) : ((setEntry entry entries).map (·.fd)).Nodup := by
  unfold setEntry
  split
  · have same : ∀ other : EpollEntry, (if other.fd = entry.fd then entry else other).fd = other.fd :=
      fun other => by split <;> simp [*]
    simpa [Function.comp_def, same] using unique
  · rename_i absent
    rw [map_append, nodup_append]
    simpa [unique] using absent

lemma control_unique (call : CtlCall) (unique : ∀ epfd, ((kernel.watched epfd).map (·.fd)).Nodup)
    (epfd : Nat) : (((kernel.control call).watched epfd).map (·.fd)).Nodup := by
  have watched : ∀ {after : Kernel} {entries : List EpollEntry},
      after.epolls = Entries.insert kernel.epolls (call.epfd.toNat % 2 ^ 32) entries →
      (entries.map (·.fd)).Nodup → ((after.watched epfd).map (·.fd)).Nodup := by
    intro after entries same listed
    simp only [Kernel.watched, same]
    by_cases this : epfd % 2 ^ 32 = call.epfd.toNat % 2 ^ 32
    · rw [this, lookup_insert_self]
      exact listed
    · rw [lookup_insert_of_ne this]
      exact unique epfd
  simp only [Kernel.control, sysEpollCtl, run_bind]
  split
  · exact watched rfl ((unique _).sublist (filter_sublist.map _))
  split
  · exact watched rfl (setEntry_nodup (unique _) _)
  · exact watched rfl (unique _)

end OsCortex.UserPointer

namespace OsCortex.Epoll

/-! `sys_epoll_wait_real` with a finite timeout and nothing ready. -/

/-- A pass of the loop: how long until it looks at the clock and, if the thread is then switched
out, until the call is executed again. -/
structure Pass where
  run : Nat
  away : Option Nat

/-- Each execution takes its own `start`. -/
def Pass.restart (pass : Pass) (start now : Nat) : Nat := pass.away.elim start (now + ·)

def Pass.resume (pass : Pass) (now : Nat) : Nat := now + pass.away.getD 0

variable (timeoutMs : Nat)

def expired (start now : Nat) : Bool := timeoutMs ≤ (now - start) / 1000000

/-- When the call returns 0. -/
def waitEnds (start clock : Nat) : List Pass → Option Nat
  | [] => none
  | pass :: rest =>
    let now := clock + pass.run
    if expired timeoutMs start now then some now
    else waitEnds (pass.restart start now) (pass.resume now) rest

/-- The first pass that finds the time since the call over. -/
def timeUp (called clock : Nat) : List Pass → Option Nat
  | [] => none
  | pass :: rest =>
    let now := clock + pass.run
    if expired timeoutMs called now then some now else timeUp called (pass.resume now) rest

/-- At that pass the time is also over since the call was last executed again. -/
def Undisturbed (called start clock : Nat) : List Pass → Prop
  | [] => True
  | pass :: rest =>
    let now := clock + pass.run
    if expired timeoutMs called now then expired timeoutMs start now = true
    else Undisturbed called (pass.restart start now) (pass.resume now) rest

variable {timeoutMs} {called start clock : Nat} {passes : List Pass}

lemma Pass.restart_early (pass : Pass) (early : ¬expired timeoutMs start clock) :
    ¬expired timeoutMs (pass.restart start clock) (pass.resume clock) := by
  unfold restart resume
  cases pass.away with
  | none => exact early
  | some away =>
    simp only [expired, decide_eq_true_eq, Option.elim_some, Option.getD_some, Nat.sub_self] at early ⊢
    omega

lemma waitEnds_later (early : ¬expired timeoutMs start clock) {ends : Nat}
    (ended : waitEnds timeoutMs start clock passes = some ends) : clock < ends := by
  induction passes generalizing start clock with
  | nil => exact absurd ended (by simp [waitEnds])
  | cons pass rest ih =>
    simp only [waitEnds] at ended
    split at ended
    · case isTrue due =>
      obtain rfl := Option.some.inj ended
      refine Nat.lt_add_of_pos_right (Nat.pos_of_ne_zero fun still => early ?_)
      rwa [still] at due
    · case isFalse due =>
      have := ih (pass.restart_early due) ended
      unfold Pass.resume at this
      omega

lemma waitEnds_eq_iff (order : called ≤ start) (begun : start ≤ clock) :
    waitEnds timeoutMs start clock passes = timeUp timeoutMs called clock passes ↔
      Undisturbed timeoutMs called start clock passes := by
  induction passes generalizing start clock with
  | nil => simp [waitEnds, timeUp, Undisturbed]
  | cons pass rest ih =>
    simp only [waitEnds, timeUp, Undisturbed]
    by_cases due : expired timeoutMs start (clock + pass.run)
    · have up : expired timeoutMs called (clock + pass.run) := by
        simp only [expired, decide_eq_true_eq] at due ⊢
        exact due.trans (Nat.div_le_div_right (Nat.sub_le_sub_left order _))
      simp [due, up]
    · rw [if_neg due]
      split
      · -- the call goes on, and it returns later if at all
        refine iff_of_false (fun same => ?_) due
        have := waitEnds_later (pass.restart_early due) same
        unfold Pass.resume at this
        omega
      · refine ih ?_ ?_
        all_goals unfold Pass.restart
        · cases pass.away <;> simp only [Option.elim] <;> omega
        · unfold Pass.resume
          cases pass.away <;> simp only [Option.elim, Option.getD] <;> omega

/-- A call that is switched out waits its whole time again. -/
theorem timeout_kept_iff (timeoutMs called : Nat) (passes : List Pass) :
    waitEnds timeoutMs called called passes = timeUp timeoutMs called called passes ↔
      Undisturbed timeoutMs called called called passes :=
  waitEnds_eq_iff le_rfl le_rfl

theorem timeout_starts_again : timeUp 1 0 0 [⟨0, some 1000000⟩, ⟨0, none⟩] = some 1000000 ∧
    waitEnds 1 0 0 [⟨0, some 1000000⟩, ⟨0, none⟩] = none := by
  decide

end OsCortex.Epoll
