import OsCortex.Process.TableChecks
import OsCortex.Syscall.EpollCore

/-!
When a thread parked in `epoll_wait` is registered and has nothing ready, once the wake-ups in
progress are through.
-/

namespace OsCortex.Epoll

open List Function Option State Table Entries Subset
open Timerfd (TimerState)

variable {state next : State} {pid other epfd fd : Nat} {call : Call}

def Call.waitsOn : Call → Option Nat
  | .collecting args false _ | .locking args false _ _ _ | .scanning args false _ _ _ _
  | .deciding args _ | .parked args => some args.epfd
  | _ => none

def Call.notices (fd : Nat) : Call → Bool
  | .collecting _ _ _ => true
  | .locking _ _ _ rest _ => decide (fd ∈ rest)
  | .scanning _ _ _ rest _ count => decide (fd ∈ rest) || decide (0 < count)
  | _ => false

def Call.collects : Call → Option Args
  | .locking args _ _ _ _ | .scanning args _ _ _ _ _ => some args
  | _ => none

structure Relies (state : State) (pid epfd fd : Nat) : Prop where
  registered : (pid, epfd) ∈ state.epollBlocked
  blocked : state.table.isBlocked pid = true
  waits : (state.calls pid).waitsOn = some epfd
  passed : (state.calls pid).notices fd = false

def Careful (state : State) : Label → Prop
  | .advance pid .mark => ∀ args start, state.calls pid = .marking args start →
      (pid, args.epfd) ∈ state.epollBlocked
  | .advance pid (.collect _) => ∀ args start, state.calls pid = .collecting args false start →
      args.eventsOut ≠ 0 ∧ 0 < args.maxevents
  | .advance pid .scan => ∀ args fast start fd rest now count timer,
      state.calls pid = .scanning args fast start (fd :: rest) now count →
      state.timers.lookup fd = some timer → timer.due now = true → timer.pending = 0 →
      ∀ other, other ≠ pid → ∀ epfd, fd ∈ state.watched epfd → ¬ Relies state other epfd fd
  | .giveUp (.fd fd _) => ∀ pid epfd, fd ∈ state.watched epfd → state.ready fd = true →
      ¬ Relies state pid epfd fd
  | .giveUp (.watching epfds _) => ∀ pid epfd fd, epfd ∈ epfds → fd ∈ state.watched epfd →
      state.ready fd = true → ¬ Relies state pid epfd fd
  | .epollCtl epfd op fd _ => op ≠ 2 → fd ∉ state.watched epfd → state.ready fd = true →
      ∀ pid, ¬ Relies state pid epfd fd
  | _ => True

def Called (wakers : List Waker) (pendingWakes : List Nat) (pid : Nat) : Prop :=
  (∃ pids, Waker.waking pids ∈ wakers ∧ pid ∈ pids) ∨ idxOf pid ∈ pendingWakes

def Due (wakers : List Waker) (epfd fd : Nat) : Prop :=
  (∃ tryOnly, Waker.fd fd tryOnly ∈ wakers) ∨
    ∃ epfds tryOnly, Waker.watching epfds tryOnly ∈ wakers ∧ epfd ∈ epfds

structure Own (state : State) (pid : Nat) : Prop where
  nonzero : state.calls pid ≠ .user → pid ≠ 0
  limited : ∀ args, (state.calls pid).collects = some args → 0 < args.maxevents
  seated : ∀ epfd, (state.calls pid).waitsOn = some epfd → state.table.isBlocked pid = true →
    (pid, epfd) ∈ state.epollBlocked ∨ Called state.wakers state.pendingWakes pid
  told : ∀ epfd fd, Relies state pid epfd fd → fd ∈ state.watched epfd → state.ready fd = true →
    Due state.wakers epfd fd

def Kept (state : State) : Prop := ∀ pid, Own state pid

variable {wakers more : List Waker}

lemma Called.mono {bits moreBits : List Nat}
    (called : Called wakers bits pid) (subset : wakers ⊆ more) (bitSubset : bits ⊆ moreBits) :
    Called more moreBits pid := by
  rcases called with ⟨pids, waking, listed⟩ | pending
  · exact .inl ⟨pids, subset waking, listed⟩
  · exact .inr (bitSubset pending)

lemma Due.mono (due : Due wakers epfd fd) (subset : wakers ⊆ more) : Due more epfd fd := by
  rcases due with ⟨tryOnly, raised⟩ | ⟨epfds, tryOnly, watching, listed⟩
  · exact .inl ⟨tryOnly, subset raised⟩
  · exact .inr ⟨epfds, tryOnly, subset watching, listed⟩

lemma Own.of_call (is : next.calls pid = call) (nonzero : call ≠ .user → pid ≠ 0)
    (limited : ∀ args, call.collects = some args → 0 < args.maxevents)
    (seated : ∀ epfd, call.waitsOn = some epfd → next.table.isBlocked pid →
      (pid, epfd) ∈ next.epollBlocked ∨ Called next.wakers next.pendingWakes pid)
    (told : ∀ epfd fd, call.waitsOn = some epfd → call.notices fd = false →
      (pid, epfd) ∈ next.epollBlocked → next.table.isBlocked pid →
      fd ∈ next.watched epfd → next.ready fd → Due next.wakers epfd fd) :
    Own next pid := by
  subst is
  exact ⟨nonzero, limited, seated, fun epfd fd relies =>
    told epfd fd relies.waits relies.passed relies.registered relies.blocked⟩

lemma Own.idle (is : next.calls pid = call) (nonzero : call ≠ .user → pid ≠ 0)
    (idle : call.waitsOn = none) (fresh : call.collects = none) : Own next pid := by
  refine .of_call is nonzero ?_ ?_ ?_
  · rw [fresh]
    exact nofun
  all_goals
    rw [idle]
    exact nofun

lemma Own.frame (own : Own state pid) (calls : next.calls pid = state.calls pid)
    (blocked : next.table.isBlocked pid → state.table.isBlocked pid)
    (entries : ∀ epfd, (pid, epfd) ∈ next.epollBlocked → (pid, epfd) ∈ state.epollBlocked)
    (seated : ∀ epfd, next.table.isBlocked pid →
      (pid, epfd) ∈ state.epollBlocked ∨ Called state.wakers state.pendingWakes pid →
      (pid, epfd) ∈ next.epollBlocked ∨ Called next.wakers next.pendingWakes pid)
    (told : ∀ epfd fd, Relies state pid epfd fd → (pid, epfd) ∈ next.epollBlocked →
      fd ∈ next.watched epfd → next.ready fd → Due next.wakers epfd fd) :
    Own next pid := by
  refine .of_call calls own.nonzero own.limited ?_ ?_
  · intro epfd waits isBlocked
    exact seated epfd isBlocked (own.seated epfd waits (blocked isBlocked))
  · intro epfd fd waits passed entry isBlocked
    exact told epfd fd ⟨entries epfd entry, blocked isBlocked, waits, passed⟩ entry

lemma Kept.thread (kept : Kept state)
    (calls : ∀ other, other ≠ pid → next.calls other = state.calls other)
    (blocked : ∀ other, other ≠ pid → next.table.isBlocked other → state.table.isBlocked other)
    (entries : ∀ other, other ≠ pid → ∀ epfd,
      (other, epfd) ∈ next.epollBlocked ↔ (other, epfd) ∈ state.epollBlocked)
    (epolls : next.epolls = state.epolls) (wakers : next.wakers = state.wakers)
    (bits : next.pendingWakes = state.pendingWakes)
    (ready : ∀ other, other ≠ pid → ∀ epfd fd, Relies state other epfd fd →
      fd ∈ state.watched epfd → next.ready fd → state.ready fd)
    (own : Own next pid) : Kept next := by
  intro other
  by_cases same : other = pid
  · rw [same]
    exact own
  have watched : ∀ epfd, next.watched epfd = state.watched epfd := fun epfd => by
    rw [State.watched, epolls, State.watched]
  refine (kept other).frame (calls other same) (blocked other same)
    (fun epfd => (entries other same epfd).1) ?_ ?_
  · intro epfd _ seat
    rw [entries other same epfd, wakers, bits]
    exact seat
  intro epfd fd relies _ watches isReady
  rw [watched] at watches
  rw [wakers]
  exact (kept other).told epfd fd relies watches (ready other same epfd fd relies watches isReady)

structure SameThreads (state next : State) : Prop where
  table : next.table = state.table
  epollBlocked : next.epollBlocked = state.epollBlocked
  calls : next.calls = state.calls
  pendingWakes : next.pendingWakes = state.pendingWakes
  epolls : next.epolls = state.epolls

lemma Kept.raised (kept : Kept state) (same : SameThreads state next)
    (wakers : state.wakers ⊆ next.wakers)
    (ready : ∀ fd, next.ready fd →
      state.ready fd ∨ ∃ tryOnly, Waker.fd fd tryOnly ∈ next.wakers) : Kept next := by
  intro pid
  refine (kept pid).frame (by rw [same.calls]) (by rw [same.table]; exact id)
    (by rw [same.epollBlocked]; exact fun _ => id) ?_ ?_
  · intro epfd _ seat
    rw [same.epollBlocked, same.pendingWakes]
    exact seat.imp_right fun called => called.mono wakers (refl _)
  intro epfd fd relies _ watches isReady
  rw [State.watched, same.epolls] at watches
  rcases ready fd isReady with before | raised
  · exact ((kept pid).told epfd fd relies watches before).mono wakers
  · exact .inl raised

lemma ready_congr (timers : next.timers.lookup fd = state.timers.lookup fd)
    (eventfds : next.eventfds.lookup fd = state.eventfds.lookup fd)
    (pipes : next.pipeReadableForFd fd = state.pipeReadableForFd fd) :
    next.ready fd = state.ready fd := by
  unfold ready
  rw [timers, eventfds, pipes]

lemma ready_of_le (timers : next.timers.lookup fd = state.timers.lookup fd)
    (eventfds : (next.eventfds.lookup fd).getD 0 ≤ (state.eventfds.lookup fd).getD 0)
    (pipes : next.pipeReadableForFd fd → state.pipeReadableForFd fd) (isReady : next.ready fd) :
    state.ready fd := by
  unfold ready at isReady ⊢
  rw [timers] at isReady
  split at isReady
  · exact isReady
  simp only [Bool.or_eq_true, decide_eq_true_eq] at isReady ⊢
  exact isReady.imp (fun filled => Nat.lt_of_lt_of_le filled eventfds) pipes

lemma ready_raise (state : State) (fds : List Nat) (tryOnly : Bool) :
    (state.raise fds tryOnly).ready fd = state.ready fd :=
  ready_congr rfl rfl rfl

lemma raise_subset (state : State) (fds : List Nat) (tryOnly : Bool) :
    state.wakers ⊆ (state.raise fds tryOnly).wakers :=
  subset_append_left _ _

variable {fds : List Nat}

lemma raised_of_mem (listed : fd ∈ fds) (tryOnly : Bool) :
    Waker.fd fd tryOnly ∈ (state.raise fds tryOnly).wakers :=
  mem_append_right _ (mem_map.2 ⟨fd, listed, rfl⟩)

section

variable (kept : Kept state)
include kept

lemma Kept.raise {changed : State} {tryOnly : Bool}
    (ready : ∀ fd, fd ∉ fds → changed.ready fd = state.ready fd)
    (same : SameThreads state changed) (wakers : changed.wakers = state.wakers) :
    Kept (changed.raise fds tryOnly) := by
  refine kept.raised { same with }
    (wakers ▸ raise_subset changed fds tryOnly) fun fd isReady => ?_
  by_cases listed : fd ∈ fds
  · exact .inr ⟨tryOnly, raised_of_mem listed tryOnly⟩
  · rw [ready_raise, ready fd listed] at isReady
    exact .inl isReady

lemma Kept.lower (same : SameThreads state next) (wakers : next.wakers = state.wakers)
    (ready : ∀ fd, next.ready fd → state.ready fd) : Kept next :=
  kept.raised same (wakers ▸ refl _) fun fd isReady => .inl (ready fd isReady)

lemma Kept.checkTimerfds (now : Nat) (tryOnly : Bool) : Kept (state.checkTimerfds now tryOnly) := by
  refine kept.raise (fun fd quiet => ready_congr ?_ rfl rfl) ⟨rfl, rfl, rfl, rfl, rfl⟩ rfl
  rw [lookup_map fun timer : TimerState => timer.expire now]
  cases found : state.timers.lookup fd with
  | none => rfl
  | some timer =>
    have early : ¬ timer.due now := fun due =>
      quiet (mem_keysWhere_of_lookup found due)
    rw [map_some, TimerState.expire, if_neg early]

lemma Kept.settime (fd flags : Nat) (spec : Timerfd.Itimerspec) (now : Nat) :
    Kept (state.settime fd flags spec now) := by
  refine kept.raise (fun other unlisted => ready_congr ?_ rfl rfl) ⟨rfl, rfl, rfl, rfl, rfl⟩ rfl
  exact lookup_insert_of_ne (ne_of_not_mem_cons unlisted)

lemma Kept.addPending (fd count : Nat) : Kept (state.addPending fd count) := by
  refine kept.raise (fun other unlisted => ready_congr ?_ rfl rfl) ⟨rfl, rfl, rfl, rfl, rfl⟩ rfl
  rw [lookup_modify_of_ne (ne_of_not_mem_cons unlisted)]

lemma Kept.timerfdWrite (fd count : Nat) : Kept (state.timerfdWrite fd count) := by
  unfold State.timerfdWrite
  split
  · exact kept.addPending fd (max count 1)
  · exact kept

lemma Kept.eventfdWrite (fd val : Nat) : Kept (state.eventfdWrite fd val) := by
  unfold State.eventfdWrite
  split
  · refine kept.raise (fun other unlisted => ready_congr rfl ?_ rfl) ⟨rfl, rfl, rfl, rfl, rfl⟩ rfl
    rw [lookup_modify_of_ne (ne_of_not_mem_cons unlisted)]
  · exact kept

lemma Kept.timerfdRead (fd now : Nat) : Kept (state.timerfdRead fd now) := by
  refine kept.lower ⟨rfl, rfl, rfl, rfl, rfl⟩ rfl fun other isReady => ?_
  have unchanged : (state.timerfdRead fd now).timers.lookup other = state.timers.lookup other →
      state.ready other := fun same => ready_congr same rfl rfl ▸ isReady
  by_cases same : other = fd
  · subst same
    cases found : state.timers.lookup other with
    | none => exact unchanged (by rw [State.timerfdRead, lookup_modify_self, found]; rfl)
    | some timer =>
      simp [ready, State.timerfdRead, lookup_modify_self, found] at isReady
  · exact unchanged (by rw [State.timerfdRead, lookup_modify_of_ne same])

lemma Kept.eventfdRead (fd : Nat) : Kept (state.eventfdRead fd) := by
  refine kept.lower ⟨rfl, rfl, rfl, rfl, rfl⟩ rfl fun other => ready_of_le rfl ?_ id
  rw [State.eventfdRead]
  by_cases same : other = fd
  · rw [same, lookup_modify_self]
    cases state.eventfds.lookup fd <;> exact Nat.zero_le _
  · rw [lookup_modify_of_ne same]

lemma Kept.pipeWrite (pipe len : Nat) : Kept (state.pipeWrite pipe len) := by
  unfold State.pipeWrite
  dsimp only
  split
  · exact kept
  refine kept.raise (fun fd unlisted => ready_congr rfl rfl ?_) ⟨rfl, rfl, rfl, rfl, rfl⟩ rfl
  simp only [mem_filter, mem_range, decide_eq_true_eq, not_and] at unlisted
  unfold pipeReadableForFd
  by_cases inTable : fd < maxOpenFiles
  · cases readEnd : state.readEnds fd with
    | none => rfl
    | some its =>
      have different : its ≠ pipe := fun same => unlisted inTable (same ▸ readEnd)
      simp [update_of_ne different]
  · simp [inTable]

end

lemma pipeReadableForFd_iff : state.pipeReadableForFd fd ↔
    fd < maxOpenFiles ∧ ∃ pipe, state.readEnds fd = some pipe ∧ 0 < state.pipeLen pipe := by
  simp [pipeReadableForFd, Option.any_eq_true]

lemma become_self (state : State) (pid : Nat) (call : Call) :
    (state.become pid call).calls pid = call :=
  update_self ..

lemma become_other (different : other ≠ pid) (call : Call) :
    (state.become pid call).calls other = state.calls other :=
  update_of_ne different ..

variable {epollBlocked : List (Nat × Nat)}

variable {args : Args} {fast : Bool}

lemma collected_waitsOn {start now count : Nat}
    (waits : (Call.collected args fast start now count).waitsOn = some epfd) :
    fast = false ∧ count = 0 ∧ args.epfd = epfd := by
  unfold Call.collected at waits
  split at waits
  · split at waits <;> cases waits
  rename_i slow
  split at waits
  · cases waits
  · rename_i none
    exact ⟨Bool.eq_false_iff.2 slow, Nat.eq_zero_of_not_pos none, some.inj waits⟩

lemma collected_collects (args : Args) (fast : Bool) (start now count : Nat) :
    (Call.collected args fast start now count).collects = none := by
  unfold Call.collected
  split <;> split <;> rfl

lemma ready_expire_other (different : other ≠ fd) (now : Nat) :
    (state.expire fd now).ready other = state.ready other :=
  ready_congr (by rw [expire, lookup_modify_of_ne different]) rfl rfl

lemma ready_expire (now : Nat) (isReady : (state.expire fd now).ready fd) :
    state.ready fd ∨ ∃ timer, state.timers.lookup fd = some timer ∧
      timer.due now ∧ timer.pending = 0 := by
  have unchanged : (state.expire fd now).timers.lookup fd = state.timers.lookup fd →
      state.ready fd := fun same => ready_congr same rfl rfl ▸ isReady
  rw [expire, lookup_modify_self] at unchanged
  cases found : state.timers.lookup fd with
  | none => exact .inl (unchanged (by rw [found]; rfl))
  | some timer =>
    by_cases due : timer.due now
    · by_cases pending : timer.pending = 0
      · exact .inr ⟨timer, rfl, due, pending⟩
      refine .inl ?_
      rw [ready, found]
      exact decide_eq_true (Nat.pos_of_ne_zero pending)
    · exact .inl (unchanged (by rw [found, map_some, TimerState.expire, if_neg due]))

variable {rest : List Nat}

lemma mem_register {entries : List (Nat × Nat)} (different : other ≠ pid) :
    (other, epfd) ∈ erase entries pid ++ [(pid, fd)] ↔ (other, epfd) ∈ entries := by
  simp [Entries.mem_erase, different]

lemma mem_erase_or {waker : Waker} (done : Waker) (listed : waker ∈ wakers)
    (subset : wakers.erase done ⊆ more) : waker = done ∨ waker ∈ more := by
  by_cases same : waker = done
  · exact .inl same
  · exact .inr (subset ((mem_erase_of_ne same).2 listed))

lemma mem_watchers (watches : fd ∈ state.watched epfd) : epfd ∈ state.watchers fd := by
  unfold State.watched at watches
  cases found : state.epolls.lookup epfd with
  | none =>
    rw [found] at watches
    cases watches
  | some fds =>
    rw [found] at watches
    exact mem_keysWhere_of_lookup found (decide_eq_true watches)

lemma mem_registered {epfds : List Nat} (entry : (pid, epfd) ∈ state.epollBlocked)
    (listed : epfd ∈ epfds) : pid ∈ state.registered epfds :=
  mem_map.2 ⟨(pid, epfd), mem_filter.2 ⟨entry, decide_eq_true listed⟩, rfl⟩

lemma isBlocked_wakeSlots {table : Table} {slots : List Nat} (nonzero : pid ≠ 0)
    (blocked : (slots.foldl wakeSlot table).isBlocked pid) :
    table.isBlocked pid ∧ idxOf pid ∉ slots := by
  induction slots generalizing table with
  | nil => exact ⟨blocked, not_mem_nil⟩
  | cons idx rest ih =>
    obtain ⟨later, unlisted⟩ := ih blocked
    rw [isBlocked_iff, slotOf, wakeSlot] at later
    split at later
    · by_cases here : idxOf pid = idx
      · rw [here, update_self] at later
        cases later.2
      · rw [update_of_ne here] at later
        exact ⟨isBlocked_iff.2 later, not_mem_cons_of_ne_of_not_mem here unlisted⟩
    rename_i asleep
    refine ⟨isBlocked_iff.2 later, not_mem_cons_of_ne_of_not_mem ?_ unlisted⟩
    rintro rfl
    exact asleep ⟨fun zero => nonzero (later.1.symm.trans zero), later.2⟩

lemma mem_epollCtlList {op eventPtr changed : Nat}
    (listed : fd ∈ epollCtlList op changed eventPtr fds) :
    fd ∈ fds ∨ (op ≠ 2 ∧ fd = changed ∧ changed ∉ fds) := by
  unfold epollCtlList at listed
  split at listed
  · exact .inl (mem_filter.1 listed).1
  all_goals
    first
    | exact .inl listed
    | split at listed
      · exact .inl listed
      rename_i added
      rcases mem_append.1 listed with old | new
      · exact .inl old
      · exact .inr ⟨by decide, mem_singleton.1 new, fun old => added (.inr old)⟩

lemma withTimers_some {changed : State} (taken : state.withTimers changed = some next) :
    next = changed := by
  unfold withTimers at taken
  split at taken
  · exact (some.inj taken).symm
  · cases taken

section

variable (kept : Kept state)
include kept

lemma Kept.pipeRead (pipe len : Nat) : Kept (state.pipeRead pipe len) := by
  have left : ∀ its, (state.pipeRead pipe len).pipeLen its ≤ state.pipeLen its := by
    intro its
    simp only [State.pipeRead, update_apply]
    split
    · rename_i same
      rw [same]
      exact Nat.sub_le _ _
    · exact Nat.le_refl _
  refine kept.lower ⟨rfl, rfl, rfl, rfl, rfl⟩ rfl fun fd => ready_of_le rfl (Nat.le_refl _) ?_
  rw [pipeReadableForFd_iff, pipeReadableForFd_iff]
  rintro ⟨inTable, its, readEnd, filled⟩
  exact ⟨inTable, its, readEnd, Nat.lt_of_lt_of_le filled (left its)⟩

lemma Kept.become (lock : Option Nat) (nonzero : call ≠ .user → pid ≠ 0)
    (limited : ∀ args, call.collects = some args → 0 < args.maxevents)
    (waits : ∀ epfd, call.waitsOn = some epfd → (state.calls pid).waitsOn = some epfd)
    (passed : ∀ epfd fd, call.waitsOn = some epfd → fd ∈ state.watched epfd →
      call.notices fd = false → (state.calls pid).notices fd = false) :
    Kept { state.become pid call with timerLock := lock } := by
  refine kept.thread (fun _ different => become_other different call) (fun _ _ blocked => blocked)
    (fun _ _ _ => Iff.rfl) rfl rfl rfl (fun _ _ _ _ _ _ isReady => isReady) ?_
  refine .of_call (become_self state pid call) nonzero limited ?_ ?_
  · exact fun epfd waiting => (kept pid).seated epfd (waits epfd waiting)
  intro epfd fd waiting gone entry blocked watches
  exact (kept pid).told epfd fd
    ⟨entry, blocked, waits epfd waiting, passed epfd fd waiting watches gone⟩ watches

lemma Kept.idle {table : Table}
    (nonzero : call ≠ .user → pid ≠ 0) (idle : call.waitsOn = none := by rfl)
    (fresh : call.collects = none := by rfl)
    (blocked : ∀ other, other ≠ pid → table.isBlocked other → state.table.isBlocked other := by
      exact fun _ _ blocked => blocked)
    (entries : ∀ other, other ≠ pid → ∀ epfd, (other, epfd) ∈ epollBlocked ↔
      (other, epfd) ∈ state.epollBlocked := by exact fun _ _ _ => Iff.rfl) :
    Kept { state.become pid call with table, epollBlocked } := by
  exact kept.thread (fun _ different => become_other different call) blocked entries rfl rfl rfl
    (fun _ _ _ _ _ _ isReady => isReady) (.idle (become_self state pid call) nonzero idle fresh)

lemma Kept.collect {start : Nat} (now : Nat)
    (collecting : state.calls pid = .collecting args fast start)
    (valid : fast = false → args.eventsOut ≠ 0 ∧ 0 < args.maxevents) :
    Kept (state.collect pid args fast start now) := by
  have nonzero : pid ≠ 0 := (kept pid).nonzero (by rw [collecting]; exact nofun)
  unfold State.collect
  split
  · refine kept.idle (fun _ => nonzero) ?_ (collected_collects ..)
    cases waits : (Call.collected args fast start now 0).waitsOn with
    | none => rfl
    | some epfd =>
      obtain ⟨slow, -, -⟩ := collected_waitsOn waits
      have := valid slow
      omega
  refine kept.become state.timerLock (fun _ => nonzero) ?_ ?_ ?_
  · rintro _ ⟨⟩
    omega
  · rw [collecting]
    cases fast <;> exact fun _ waits => waits
  intro epfd fd waits watches passed
  cases fast with
  | true => cases waits
  | false =>
    cases waits
    simp [Call.notices, watches] at passed

lemma Kept.scanEntry {start now count : Nat}
    (scanning : state.calls pid = .scanning args fast start (fd :: rest) now count)
    (alone : ∀ timer, state.timers.lookup fd = some timer → timer.due now →
      timer.pending = 0 → ∀ other, other ≠ pid → ∀ epfd, fd ∈ state.watched epfd →
      ¬ Relies state other epfd fd) :
    Kept ((state.expire fd now).become pid (.scanning args fast start rest now
      (if (state.expire fd now).ready fd then count + 1 else count))) := by
  refine kept.thread (fun _ different => become_other different _) (fun _ _ blocked => blocked)
    (fun _ _ _ => Iff.rfl) rfl rfl rfl ?_ ?_
  · intro other different epfd fd' relies watches isReady
    by_cases same : fd' = fd
    · subst same
      rcases ready_expire now isReady with before | ⟨timer, found, due, pending⟩
      · exact before
      · exact absurd relies (alone timer found due pending other different epfd watches)
    · exact ready_expire_other same now ▸ isReady
  have nonzero : pid ≠ 0 := (kept pid).nonzero (by rw [scanning]; exact nofun)
  have limited : 0 < args.maxevents := (kept pid).limited args (by rw [scanning]; rfl)
  have waits : ∀ epfd count, (Call.scanning args fast start rest now count).waitsOn = some epfd →
      (state.calls pid).waitsOn = some epfd := by
    rw [scanning]
    cases fast <;> exact fun _ _ waits => waits
  generalize counted : (if (state.expire fd now).ready fd then count + 1 else count) = total
  refine .of_call (become_self _ pid _) (fun _ => nonzero) ?_ ?_ ?_
  · rintro _ ⟨⟩
    exact limited
  · exact fun epfd waiting => (kept pid).seated epfd (waits epfd total waiting)
  intro epfd fd' waiting passed entry blocked watches isReady
  simp only [Call.notices, Bool.or_eq_false_iff, decide_eq_false_iff_not] at passed
  obtain ⟨unlisted, _⟩ := passed
  have other : fd' ≠ fd := by
    rintro rfl
    have isReady : (state.expire fd' now).ready fd' := isReady
    rw [if_pos isReady] at counted
    omega
  have zero : ¬ 0 < count := by
    split at counted <;> omega
  refine (kept pid).told epfd fd' ⟨entry, blocked, waits epfd total waiting, ?_⟩ watches
    (ready_expire_other other now ▸ isReady)
  rw [scanning]
  simp [Call.notices, unlisted, other, zero]

lemma Kept.scanEnd {start now count : Nat}
    (scanning : state.calls pid = .scanning args fast start rest now count)
    (ended : rest = [] ∨ args.maxevents ≤ count) :
    Kept { state.become pid (Call.collected args fast start now count) with
      timerLock := none } := by
  have nonzero : pid ≠ 0 := (kept pid).nonzero (by rw [scanning]; exact nofun)
  have limited : 0 < args.maxevents := (kept pid).limited args (by rw [scanning]; rfl)
  refine kept.become none (fun _ => nonzero) ?_ ?_ ?_
  · rw [collected_collects]
    exact nofun
  · intro epfd waits
    obtain ⟨rfl, -, rfl⟩ := collected_waitsOn waits
    rw [scanning]
    rfl
  intro epfd fd waits _ _
  obtain ⟨-, rfl, -⟩ := collected_waitsOn waits
  have through : rest = [] := by
    rcases ended with through | _
    · exact through
    · omega
  rw [scanning, through]
  rfl

lemma Kept.scan {start now count : Nat}
    (scanning : state.calls pid = .scanning args fast start rest now count)
    (careful : Careful state (.advance pid .scan)) :
    Kept (state.scan pid args fast start now count rest) := by
  cases rest with
  | nil => exact kept.scanEnd scanning (.inl rfl)
  | cons fd rest =>
    rw [scan]
    split
    · rename_i enough
      exact kept.scanEnd scanning (.inr enough)
    · exact kept.scanEntry scanning fun timer => careful args fast start fd rest now count timer
        scanning

lemma Kept.mark {start : Nat} (marking : state.calls pid = .marking args start)
    (registered : (pid, args.epfd) ∈ state.epollBlocked) :
    Kept { state.become pid (.collecting args false start) with
      table := state.table.setState pid .blocked } := by
  refine kept.thread (fun _ different => become_other different _) ?_ (fun _ _ _ => Iff.rfl) rfl
    rfl rfl (fun _ _ _ _ _ _ isReady => isReady) ?_
  · intro other different blocked
    rwa [setState_isBlocked_other _ different] at blocked
  have nonzero : pid ≠ 0 := (kept pid).nonzero (by rw [marking]; exact nofun)
  refine .of_call (become_self state pid _) (fun _ => nonzero) nofun ?_ nofun
  rintro _ ⟨⟩ _
  exact .inl registered

lemma Kept.advance {input : Input}
    (careful : Careful state (.advance pid input))
    (taken : state.advance pid input = some next) : Kept next := by
  have inside : ∀ {call : Call}, state.calls pid = call → call ≠ .user → pid ≠ 0 :=
    fun is notUser => (kept pid).nonzero (is ▸ notUser)
  unfold State.advance at taken
  split at taken <;> try cases taken
  · obtain ⟨runs, rfl⟩ := of_guard taken
    have nonzero : pid ≠ 0 := by
      simp only [State.runs, Bool.and_eq_true, bne_iff_ne] at runs
      exact runs.1.1
    exact kept.idle fun _ => nonzero
  · rename_i args fast start now collecting
    exact kept.collect now collecting fun slow => careful args start (slow ▸ collecting)
  · rename_i args fast start _ now locking
    obtain ⟨-, rfl⟩ := of_guard taken
    refine kept.become (some pid) (fun _ => inside locking nofun) ?_ ?_ ?_
    · rintro _ ⟨⟩
      exact (kept pid).limited args (by rw [locking]; rfl)
    · rw [locking]
      cases fast <;> exact fun _ waits => waits
    intro epfd fd _ _ passed
    rw [locking]
    simpa [Call.notices] using passed
  · rename_i scanning
    exact kept.scan scanning careful
  · rename_i args start registering
    exact kept.idle (fun _ => inside registering nofun) rfl rfl (fun _ _ blocked => blocked)
      fun _ different _ => mem_register different
  · rename_i args start marking
    exact kept.mark marking (careful args start marking)
  · rename_i deciding
    obtain ⟨-, rfl⟩ := of_guard taken
    exact kept.idle fun _ => inside deciding nofun
  · rename_i deciding
    refine kept.become state.timerLock (fun _ => inside deciding nofun) nofun ?_ nofun
    rw [deciding]
    exact fun _ waits => waits
  · rename_i deciding
    refine kept.become state.timerLock (fun _ => inside deciding nofun) nofun ?_ ?_
    · rw [deciding]
      exact fun _ waits => waits
    · rw [deciding]
      exact fun _ _ _ _ _ => rfl
  · rename_i deciding
    exact kept.idle fun _ => inside deciding nofun
  · rename_i unregistering
    refine kept.idle (fun _ => inside unregistering nofun) rfl rfl (fun _ _ blocked => blocked)
      fun other different epfd => ?_
    rw [Entries.mem_erase]
    exact and_iff_left different
  · refine kept.idle (fun notUser => absurd rfl notUser) rfl rfl ?_
    exact fun _ _ blocked => (Table.setState_running_isBlocked.1 blocked).2
  · rename_i parked
    obtain ⟨-, rfl⟩ := of_guard taken
    exact kept.idle fun _ => inside parked nofun

lemma Kept.rewake (done : Waker) {pendingWakes : List Nat}
    (entries : epollBlocked ⊆ state.epollBlocked) (bits : state.pendingWakes ⊆ pendingWakes)
    (others : state.wakers.erase done ⊆ wakers)
    (seated : ∀ pid epfd, (pid, epfd) ∈ state.epollBlocked →
      (pid, epfd) ∈ epollBlocked ∨ Called wakers pendingWakes pid)
    (called : ∀ pid pids, done = .waking pids → pid ∈ pids → Called wakers pendingWakes pid)
    (told : ∀ pid epfd fd, Relies state pid epfd fd → (pid, epfd) ∈ epollBlocked →
      fd ∈ state.watched epfd → state.ready fd → Due [done] epfd fd → Due wakers epfd fd) :
    Kept { state with epollBlocked, pendingWakes, wakers } := by
  intro pid
  refine (kept pid).frame rfl id (fun _ entry => entries entry) ?_ ?_
  · rintro epfd _ (entry | ⟨pids, waking, listed⟩ | pending)
    · exact seated pid epfd entry
    · rcases mem_erase_or done waking others with same | left
      · exact .inr (called pid pids same.symm listed)
      · exact .inr (.inl ⟨pids, left, listed⟩)
    · exact .inr (.inr (bits pending))
  intro epfd fd relies entry watches isReady
  have told := told pid epfd fd relies entry watches isReady
  rcases (kept pid).told epfd fd relies watches isReady with
    ⟨tried, raised⟩ | ⟨epfds, tried, watching, listed⟩
  · rcases mem_erase_or done raised others with same | left
    · exact told (.inl ⟨tried, mem_singleton.2 same⟩)
    · exact .inl ⟨tried, left⟩
  · rcases mem_erase_or done watching others with same | left
    · exact told (.inr ⟨epfds, tried, mem_singleton.2 same, listed⟩)
    · exact .inr ⟨epfds, tried, left, listed⟩

lemma Kept.wakeFd (fd : Nat) (tryOnly : Bool) :
    Kept (state.wake (.fd fd tryOnly)) := by
  refine kept.rewake (.fd fd tryOnly) (refl _) (refl _) ?_
    (fun _ _ entry => .inl entry) nofun ?_
  · split
    · exact refl _
    · exact subset_cons_self _ _
  intro pid epfd fd' _ _ watches _ due
  obtain rfl : fd' = fd := by simpa [Due] using due
  have arrived := mem_watchers watches
  rw [if_neg (ne_nil_of_mem arrived)]
  exact .inr ⟨_, tryOnly, mem_cons_self, arrived⟩

lemma Kept.wakeWatching (epfds : List Nat) (tryOnly : Bool) :
    Kept (state.wake (.watching epfds tryOnly)) := by
  refine kept.rewake (.watching epfds tryOnly) filter_sublist.subset (refl _)
    (subset_cons_self _ _) ?_ nofun ?_
  · intro pid epfd entry
    by_cases taken : pid ∈ state.registered epfds
    · exact .inr (.inl ⟨_, mem_cons_self, taken⟩)
    · exact .inl (mem_filter.2 ⟨entry, decide_eq_true taken⟩)
  intro pid epfd fd relies entry _ _ due
  have untaken : pid ∉ state.registered epfds := of_decide_eq_true (mem_filter.1 entry).2
  have listed : epfd ∈ epfds := by simpa [Due] using due
  exact absurd (mem_registered relies.registered listed) untaken

lemma Kept.wakeWaking (pids : List Nat) : Kept (state.wake (.waking pids)) := by
  have told : ∀ {pids : List Nat} {epfd fd}, ¬ Due [.waking pids] epfd fd := by simp [Due]
  cases pids with
  | nil =>
    refine kept.rewake (.waking []) (refl _) (refl _) (refl _)
      (fun _ _ entry => .inl entry) ?_ fun _ _ _ _ _ _ _ due => absurd due told
    rintro pid _ ⟨⟩ ⟨⟩
  | cons first rest =>
    refine kept.rewake (.waking (first :: rest)) (refl _) (subset_cons_self _ _)
      (subset_cons_self _ _) (fun _ _ entry => .inl entry) ?_
      fun _ _ _ _ _ _ _ due => absurd due told
    rintro pid _ ⟨⟩ listed
    rcases mem_cons.1 listed with rfl | later
    · exact .inr mem_cons_self
    · exact .inl ⟨rest, mem_cons_self, later⟩

lemma Kept.wake (waker : Waker) : Kept (state.wake waker) := by
  cases waker with
  | fd fd tryOnly => exact kept.wakeFd fd tryOnly
  | watching epfds tryOnly => exact kept.wakeWatching epfds tryOnly
  | waking pids => exact kept.wakeWaking pids

lemma Kept.giveUp {waker : Waker} (mayFail : waker.mayFail)
    (careful : Careful state (.giveUp waker)) :
    Kept { state with wakers := state.wakers.erase waker } := by
  refine kept.rewake waker (refl _) (refl _) (refl _)
    (fun _ _ entry => .inl entry) ?_ ?_
  · rintro pid _ rfl
    cases mayFail
  rintro pid epfd fd relies _ watches isReady (⟨tried, raised⟩ | ⟨_, tried, watching, listed⟩)
  · obtain rfl := mem_singleton.1 raised
    exact absurd relies (careful pid epfd watches isReady)
  · obtain rfl := mem_singleton.1 watching
    exact absurd relies (careful pid epfd fd listed watches isReady)

lemma Kept.handlePendingWakes :
    Kept { state with
      table := state.pendingWakes.foldl wakeSlot state.table
      pendingWakes := [] } := by
  intro pid
  by_cases user : state.calls pid = .user
  · -- Nothing is asked of a thread outside `epoll_wait`.
    exact .idle user (absurd rfl) rfl rfl
  have nonzero := (kept pid).nonzero user
  refine (kept pid).frame rfl (fun blocked => (isBlocked_wakeSlots nonzero blocked).1)
    (fun _ entry => entry) ?_ fun epfd fd relies _ => (kept pid).told epfd fd relies
  rintro epfd blocked (entry | waking | pending)
  · exact .inl entry
  · exact .inr (.inl waking)
  · exact absurd pending (isBlocked_wakeSlots nonzero blocked).2

lemma Kept.forceWake (thread : Nat) :
    Kept { state with table := state.table.setState thread .running } := fun pid =>
  (kept pid).frame rfl (fun blocked => (Table.setState_running_isBlocked.1 blocked).2)
    (fun _ entry => entry) (fun _ _ seat => seat)
    fun epfd fd relies _ => (kept pid).told epfd fd relies

lemma Kept.epollCtl {epfd op fd eventPtr : Nat}
    (careful : Careful state (.epollCtl epfd op fd eventPtr)) :
    Kept (state.epollCtl epfd op fd eventPtr) := by
  intro pid
  refine (kept pid).frame rfl id (fun _ entry => entry) (fun _ _ seat => seat) ?_
  intro other watched relies _ watches isReady
  by_cases same : other = epfd
  · subst same
    rw [State.watched, State.epollCtl, lookup_insert_self] at watches
    rcases mem_epollCtlList watches with old | ⟨adds, rfl, new⟩
    · exact (kept pid).told other watched relies old isReady
    · exact absurd relies (careful adds new isReady pid)
  · rw [State.watched, State.epollCtl, lookup_insert_of_ne same] at watches
    exact (kept pid).told other watched relies watches isReady

lemma Kept.step {label : Label} (careful : Careful state label)
    (taken : state.step label = some next) : Kept next := by
  cases label with try cases taken
  | advance pid input => exact kept.advance careful taken
  | wake waker =>
    obtain ⟨-, rfl⟩ := of_guard taken
    exact kept.wake waker
  | giveUp waker =>
    simp only [State.step] at taken
    obtain ⟨failed, rfl⟩ := of_guard taken
    exact kept.giveUp failed.2 careful
  | handlePendingWakes => exact kept.handlePendingWakes
  | forceWake pid => exact kept.forceWake pid
  | checkTimerfds now tryOnly => exact withTimers_some taken ▸ kept.checkTimerfds now tryOnly
  | settime fd flags spec now => exact withTimers_some taken ▸ kept.settime fd flags spec now
  | timerfdRead fd now => exact withTimers_some taken ▸ kept.timerfdRead fd now
  | timerfdWrite fd count => exact withTimers_some taken ▸ kept.timerfdWrite fd count
  | bootstrap => exact withTimers_some taken ▸ kept.addPending 73 1
  | eventfdWrite fd val => exact kept.eventfdWrite fd val
  | eventfdRead fd => exact kept.eventfdRead fd
  | pipeWrite pipe len => exact kept.pipeWrite pipe len
  | pipeRead pipe len => exact kept.pipeRead pipe len
  | epollCtl epfd op fd eventPtr => exact kept.epollCtl careful

end

lemma Kept.start (begun : system.start state) : Kept state := by
  obtain ⟨_, _, _, _, calls⟩ := begun
  exact fun pid => .idle (congrFun calls pid) (absurd rfl) rfl rfl

lemma reachable_kept (reached : system.Reachable Careful state) : Kept state :=
  Runs.Machine.Reachable.invariant (fun _ => Kept.start)
    (fun _ _ _ kept careful taken => kept.step careful taken) reached

def Quiet (state : State) : Prop := state.wakers = [] ∧ state.pendingWakes = []

instance (state : State) : Decidable (Quiet state) := inferInstanceAs (Decidable (_ ∧ _))

theorem waiter_not_forgotten (reached : system.Reachable Careful state) (quiet : Quiet state)
    {args : Args} (parked : state.calls pid = .parked args)
    (blocked : state.table.isBlocked pid = true) :
    (pid, args.epfd) ∈ state.epollBlocked ∧
      ∀ fd ∈ state.watched args.epfd, state.ready fd = false := by
  obtain ⟨wakers, bits⟩ := quiet
  have own := reachable_kept reached pid
  have waits : (state.calls pid).waitsOn = some args.epfd := by rw [parked]; rfl
  have registered : (pid, args.epfd) ∈ state.epollBlocked := by
    refine (own.seated args.epfd waits blocked).resolve_right ?_
    rw [wakers, bits]
    rintro (⟨_, waking, _⟩ | pending)
    · cases waking
    · cases pending
  refine ⟨registered, fun fd watches => Bool.eq_false_iff.2 fun isReady => ?_⟩
  have passed : (state.calls pid).notices fd = false := by rw [parked]; rfl
  have due := own.told args.epfd fd ⟨registered, blocked, waits, passed⟩ watches isReady
  rw [wakers] at due
  rcases due with ⟨_, raised⟩ | ⟨_, _, watching, _⟩
  · cases raised
  · cases watching

lemma advance_reachable (pid : Nat) (input : Input) (reached : system.Reachable Careful state)
    (careful : Careful state (.advance pid input)) (taken : state.advance pid input = some next) :
    system.Reachable Careful next :=
  .step reached careful taken

def sample : State where
  table idx := if idx = 2 ∨ idx = 3 then { pid := idx, state := .running } else {}
  timers := [(65, ⟨100, 0, 0⟩)]
  eventfds := [(66, 0)]
  epolls := [(64, [65]), (67, [65]), (68, [])]

lemma sample_start : system.start sample := ⟨rfl, rfl, rfl, rfl, rfl⟩

def forever (epfd : Nat) : Args where
  epfd
  eventsOut := 0x1000
  maxevents := 8
  timeoutMs := 2 ^ 64 - 1

theorem waiter_not_forgotten_sample : ∃ state, system.Reachable Careful state ∧
    state.calls 2 = .parked (forever 64) ∧ (2, 64) ∈ state.epollBlocked ∧
    ∀ fd ∈ state.watched 64, state.ready fd = false := by
  have begun : system.Reachable Careful sample := .start sample_start
  have entered := advance_reachable 2 (.call (forever 64)) begun (by trivial) rfl
  have copied := advance_reachable 2 (.collect 0) entered (by rintro _ _ ⟨⟩) rfl
  have locked := advance_reachable 2 .lock copied (by trivial) rfl
  have looked := advance_reachable 2 .scan locked
    (by rintro _ _ _ _ _ _ _ _ ⟨⟩ ⟨⟩ due; cases due) rfl
  have missed := advance_reachable 2 .scan looked (by rintro _ _ _ _ _ _ _ _ ⟨⟩) rfl
  have registered := advance_reachable 2 .register missed (by trivial) rfl
  have marked := advance_reachable 2 .mark registered
    (by rintro _ _ ⟨⟩; exact mem_singleton_self _) rfl
  have copiedAgain := advance_reachable 2 (.collect 0) marked
    (by rintro _ _ ⟨⟩; exact ⟨by decide, by decide⟩) rfl
  have lockedAgain := advance_reachable 2 .lock copiedAgain (by trivial) rfl
  have lookedAgain := advance_reachable 2 .scan lockedAgain
    (by rintro _ _ _ _ _ _ _ _ ⟨⟩ ⟨⟩ due; cases due) rfl
  have decided := advance_reachable 2 .scan lookedAgain (by rintro _ _ _ _ _ _ _ _ ⟨⟩) rfl
  have parked := advance_reachable 2 .park decided (by trivial) rfl
  obtain ⟨state, reached, quiet, here, blocked⟩ : ∃ state, system.Reachable Careful state ∧
      Quiet state ∧ state.calls 2 = .parked (forever 64) ∧ state.table.isBlocked 2 = true :=
    ⟨_, parked, ⟨rfl, rfl⟩, rfl, rfl⟩
  exact ⟨state, reached, here, waiter_not_forgotten reached quiet here blocked⟩

def Forgets (state : State) (pid : Nat) (args : Args) (fd : Nat) : Prop :=
  Quiet state ∧ state.calls pid = .parked args ∧ state.table.isBlocked pid = true ∧
    fd ∈ state.watched args.epfd ∧ state.ready fd = true

instance (state : State) (pid : Nat) (args : Args) (fd : Nat) :
    Decidable (Forgets state pid args fd) :=
  inferInstanceAs (Decidable (_ ∧ _))

lemma forgets_of_run {labels : List Label} {entries : List (Nat × Nat)}
    (ran : (system.run sample labels).map (fun state =>
      (decide (Forgets state pid args fd), state.epollBlocked)) = some (true, entries)) :
    ∃ state, system.Reachable Runs.anyStep state ∧ Forgets state pid args fd ∧
      state.epollBlocked = entries := by
  obtain ⟨state, reached, shows⟩ := Runs.Machine.run_view _ sample_start ran
  obtain ⟨forgets, registered⟩ := Prod.mk.inj shows
  exact ⟨state, reached, of_decide_eq_true forgets, registered⟩

def collectSteps (pid length : Nat) : List Label :=
  [.advance pid (.collect 0), .advance pid .lock] ++
    List.replicate (length + 1) (.advance pid .scan)

def registerSteps (pid : Nat) (args : Args) (length : Nat) : List Label :=
  [.advance pid (.call args)] ++ collectSteps pid length ++ [.advance pid .register]

def parkSteps (pid length : Nat) : List Label :=
  [.advance pid .mark] ++ collectSteps pid length ++ [.advance pid .park]

def writeSteps (fd : Nat) (epfds pids : List Nat) : List Label :=
  [.eventfdWrite fd 1, .wake (.fd fd false), .wake (.watching epfds false)] ++
    (pids.tails.map fun rest => .wake (.waking rest)) ++ [.handlePendingWakes]

def noEvents : Args := { forever 68 with maxevents := 0 }

theorem waiter_forgotten :
    (∃ state, system.Reachable Runs.anyStep state ∧ Forgets state 2 (forever 64) 65 ∧
      state.epollBlocked = [(2, 64)]) ∧
    (∃ state, system.Reachable Runs.anyStep state ∧ Forgets state 2 (forever 68) 66 ∧
      state.epollBlocked = [(2, 68)]) ∧
    (∃ state, system.Reachable Runs.anyStep state ∧ Forgets state 2 (forever 68) 66 ∧
      state.epollBlocked = []) ∧
    (∃ state, system.Reachable Runs.anyStep state ∧ Forgets state 2 (forever 64) 65 ∧
      state.epollBlocked = [(2, 64)]) ∧
    ∃ state, system.Reachable Runs.anyStep state ∧ Forgets state 2 noEvents 66 ∧
      state.epollBlocked = [(2, 68)] := by
  refine ⟨?_, ?_, ?_, ?_, ?_⟩
  · refine @forgets_of_run 2 65 (forever 64) (registerSteps 2 (forever 64) 1 ++ parkSteps 2 1 ++
      [.checkTimerfds 100 true, .giveUp (.fd 65 true)]) _ ?_
    decide +kernel
  · refine @forgets_of_run 2 66 (forever 68) (registerSteps 2 (forever 68) 0 ++ parkSteps 2 0 ++
      [.eventfdWrite 66 1, .wake (.fd 66 false), .epollCtl 68 1 66 0x1000]) _ ?_
    decide +kernel
  · refine @forgets_of_run 2 66 (forever 68) ([.epollCtl 68 1 66 0x1000] ++
      registerSteps 2 (forever 68) 1 ++ writeSteps 66 [68] [2] ++ [.eventfdRead 66] ++
      parkSteps 2 1 ++ writeSteps 66 [68] []) _ ?_
    decide +kernel
  · refine @forgets_of_run 2 65 (forever 64) (registerSteps 2 (forever 64) 1 ++ parkSteps 2 1 ++
      [.advance 3 (.call (forever 67)), .advance 3 (.collect 100), .advance 3 .lock,
        .advance 3 .scan, .advance 3 .scan]) _ ?_
    decide +kernel
  refine @forgets_of_run 2 66 noEvents ([.epollCtl 68 1 66 0x1000] ++ writeSteps 66 [68] [] ++
    [.advance 2 (.call noEvents), .advance 2 (.collect 0), .advance 2 .register,
      .advance 2 .mark, .advance 2 (.collect 0), .advance 2 .park]) _ ?_
  decide +kernel

end OsCortex.Epoll
