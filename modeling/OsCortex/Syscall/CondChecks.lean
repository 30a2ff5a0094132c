import OsCortex.Syscall.CondCore

/-!
Who was told that it holds a mutex holds it, and nobody else was told so, in runs whose labels are
`Careful`.
-/

namespace OsCortex.Cond

open Function Option State Entries
open Ownership (Ledger)
open Futex (futexWaiterPresent)

def State.careful (leader : Nat → Nat) (state : State) : Label → Bool
  | .advance pid input =>
    match state.phase pid, input with
    | .entering (.lock mutex), _ => 0x1000 ≤ mutex
    | .exchanging lock, _ => state.word leader pid lock.mutex = 0 || pid ≠ 0
    | .storing release _, _ => state.ledger.locker (leader pid, release.mutex) = some pid
    | .yielding (.wait ..), .switch => false
    | .working _ _ (.bump addr :: _), _ =>
      state.ledger.Harmless (leader pid, addr) (state.word leader pid addr + 1)
    | .working _ _ (.put words :: _), _ =>
      words.all fun (addr, value) => state.ledger.Harmless (leader pid, addr) value
    | _, _ => true
  | .finish cpu _ =>
    match state.isr cpu with
    | .finishing space pid mutex =>
      state.ledger.word (space, mutex) ≠ 0 ||
        (state.condWaitState.lookup pid = some (.acquiringMutex mutex true) &&
          space = leader pid)
    | _ => true
  | _ => true

def CondWaitState.mutex : CondWaitState → Nat
  | .waiting wait _ => wait.mutex
  | .acquiringMutex mutex _ => mutex

def Wait.Proper (args : Wait) : Prop := 0x1000 ≤ args.cond ∧ 0x1000 ≤ args.mutex

def Context.waits : Context → Option Wait
  | .retry (.wait args) => some args
  | _ => none

def Locking.waits : Locking → Option Wait
  | .call _ => none
  | .wait args .. => some args

def Releasing.waits : Releasing → Option Wait
  | .call _ => none
  | .wait args _ => some args

def Phase.waits : Phase → Option Wait
  | .user | .lost | .working .. => none
  | .parked context => context.waits
  | .entering (.wait args) => some args
  | .entering _ => none
  | .exchanging lock | .queueing lock | .handing lock | .spinning lock | .halted lock
  | .dequeueing lock => lock.waits
  | .releasing release | .storing release _ | .waking release _ | .preferring release _ _
  | .yielding release => release.waits
  | .loading args | .enlisting args _ | .inserting args _ | .matching args _
  | .forgetting args _ => some args
  | .timing arm | .removing arm _ | .turning arm _ | .adding arm | .offering arm | .looping arm _
  | .polling arm _ | .resting arm _ | .rechecking arm _ | .reloading arm _ | .retiming arm _ =>
    some arm.args

def Locking.Fits : Locking → Prop
  | .call _ => True
  | .wait args mutex _ => mutex = args.mutex ∧ args.Proper

def Releasing.Fits : Releasing → Prop
  | .call _ => True
  | .wait args _ => args.Proper

def Arm.Fits (arm : Arm) : Prop := arm.saved.mutex = arm.args.mutex ∧ arm.args.Proper

def Phase.Fits : Phase → Prop
  | .user | .lost | .working .. | .parked _ | .entering _ => True
  | .exchanging lock | .queueing lock | .handing lock | .spinning lock | .halted lock
  | .dequeueing lock => lock.Fits
  | .releasing release | .storing release _ | .waking release _ | .preferring release _ _
  | .yielding release => release.Fits
  | .loading args | .enlisting args _ | .inserting args _ | .forgetting args _ => args.Proper
  | .matching args state => state.mutex = args.mutex ∧ args.Proper
  | .timing arm | .removing arm _ | .turning arm _ | .adding arm | .offering arm => arm.Fits
  | .looping arm state | .polling arm state | .resting arm state | .rechecking arm state
  | .reloading arm state | .retiming arm state => arm.Fits ∧ state.mutex = arm.args.mutex

def Phase.forgets : Phase → Option Wait
  | .forgetting args _ => some args
  | _ => none

structure Kept (leader : Nat → Nat) (state : State) : Prop where
  sound : state.ledger.Sound
  granted : ∀ pid args, (state.phase pid).forgets = some args →
    state.ledger.Granted (leader pid, args.mutex) pid
  fits : ∀ pid, (state.phase pid).Fits
  waits : ∀ pid wait, state.condWaitState.lookup pid = some wait →
    ∃ args, (state.phase pid).waits = some args ∧ wait.mutex = args.mutex ∧ args.Proper

variable {wait : CondWaitState} {mutex : Nat} {args : Wait} {timedOut : Bool} {release : Releasing}
    {call : Call}

section Steps

variable {leader : Nat → Nat} {state : State} {pid : Nat} {phase : Phase}

section

variable (kept : Kept leader state)
include kept

lemma Kept.unlisted (outside : (state.phase pid).waits = none) :
    state.condWaitState.lookup pid = none := by
  cases found : state.condWaitState.lookup pid with
  | none => rfl
  | some wait =>
    obtain ⟨_, inside, _⟩ := kept.waits pid wait found
    rw [outside] at inside
    cases inside

lemma Kept.change {next : State} (phases : next.phase = update state.phase pid phase)
    (table : ∀ other, other ≠ pid →
      next.condWaitState.lookup other = state.condWaitState.lookup other)
    (entry : ∀ wait, next.condWaitState.lookup pid = some wait →
      ∃ args, phase.waits = some args ∧ wait.mutex = args.mutex ∧ args.Proper)
    (sound : next.ledger.Sound)
    (others : ∀ key other, other ≠ pid → state.ledger.Granted key other →
      next.ledger.Granted key other)
    (fits : phase.Fits)
    (granted : ∀ args, phase.forgets = some args →
      next.ledger.Granted (leader pid, args.mutex) pid) : Kept leader next where
  sound := sound
  granted := by
    intro other args forgets
    rw [phases] at forgets
    by_cases own : other = pid
    · subst own
      rw [update_self] at forgets
      exact granted args forgets
    · rw [update_of_ne own] at forgets
      exact others _ other own (kept.granted other args forgets)
  fits := by
    intro other
    rw [phases]
    by_cases own : other = pid
    · subst own
      rwa [update_self]
    · rw [update_of_ne own]
      exact kept.fits other
  waits := by
    intro other wait found
    rw [phases]
    by_cases own : other = pid
    · subst own
      rw [update_self]
      exact entry wait found
    rw [update_of_ne own]
    rw [table other own] at found
    exact kept.waits other wait found

lemma Kept.entry (same : phase.waits = (state.phase pid).waits ∨ (state.phase pid).waits = none)
    (found : state.condWaitState.lookup pid = some wait) :
    ∃ args, phase.waits = some args ∧ wait.mutex = args.mutex ∧ args.Proper := by
  rcases same with same | outside
  · rw [same]
    exact kept.waits pid wait found
  · rw [kept.unlisted outside] at found
    cases found

lemma Kept.move {futexWaiters : List (Nat × Nat)} {isr : Nat → Isr} (fits : phase.Fits)
    (same : phase.waits = (state.phase pid).waits ∨ (state.phase pid).waits = none)
    (calm : phase.forgets = none) :
    Kept leader ({ state with futexWaiters, isr }.become pid phase) := by
  refine kept.change rfl (fun _ _ => rfl) ?_ kept.sound (fun _ _ _ granted => granted) fits ?_
  · exact fun wait found => kept.entry same found
  intro args forgets
  rw [calm] at forgets
  cases forgets

lemma Kept.lock_returns
    (outside : (state.phase pid).waits = none) (zero : state.word leader pid mutex = 0) :
    Kept leader ((state.take leader pid mutex).ret leader pid (.lock mutex) 0) := by
  have taken : (state.ledger.take (leader pid, mutex) pid).Granted (leader pid, mutex) pid :=
    Ledger.granted_take zero kept.sound
  refine kept.change rfl (fun _ _ => rfl) ?_ ((kept.sound.take zero pid).tell taken) ?_ trivial
    nofun
  · exact fun wait found => kept.entry (.inr outside) found
  · exact fun key other different granted => (granted.take kept.sound zero).tell taken different

lemma Kept.wait_locks (inside : (state.phase pid).waits = some args) (proper : args.Proper)
    (zero : state.word leader pid args.mutex = 0) :
    Kept leader ((state.take leader pid args.mutex).become pid (.forgetting args timedOut)) := by
  refine kept.change rfl (fun _ _ => rfl) ?_ (kept.sound.take zero pid) ?_ proper ?_
  · intro wait found
    rw [Phase.waits, ← inside]
    exact kept.waits pid wait found
  · exact fun key other _ granted => granted.take kept.sound zero
  · rintro _ ⟨⟩
    exact Ledger.granted_take zero kept.sound

lemma Kept.wait_returns (here : state.phase pid = .forgetting args timedOut) :
    Kept leader ((state.removeWait pid).ret leader pid (.wait args)
      (if timedOut then 110 else 0)) := by
  have granted := kept.granted pid args (by rw [here]; rfl)
  have told : Call.grants (.wait args) (if timedOut then 110 else 0) = some args.mutex := by
    cases timedOut <;> rfl
  simp only [State.ret, State.complete, told]
  refine kept.change rfl ?_ ?_ (kept.sound.tell granted) ?_ trivial nofun
  · exact fun other different => lookup_erase_of_ne different
  · intro wait found
    have gone : (erase state.condWaitState pid).lookup pid = none :=
      lookup_erase_self
    cases gone.symm.trans found
  · exact fun key other different others => others.tell granted different

lemma Kept.store {waiter : Option Nat} (here : state.phase pid = .storing release waiter)
    (owned : state.ledger.locker (leader pid, release.mutex) = some pid) :
    Kept leader ((state.store leader pid release.mutex).become pid (.waking release waiter)) := by
  have fits : (Phase.storing release waiter).Fits := here ▸ kept.fits pid
  refine kept.change rfl (fun _ _ => rfl) ?_ (kept.sound.giveBack _) ?_ fits nofun
  · exact fun wait found => kept.entry (.inl (by rw [here]; rfl)) found
  · exact fun key other different granted => granted.giveBack owned different

lemma Kept.insertWait
    (inside : phase.waits = some args) (same : wait.mutex = args.mutex) (proper : args.Proper)
    (fits : phase.Fits) (calm : phase.forgets = none) :
    Kept leader ((state.insertWait pid wait).become pid phase) := by
  refine kept.change rfl ?_ ?_ kept.sound (fun _ _ _ granted => granted) fits ?_
  · exact fun other different => lookup_insertOrdered_of_ne _ different
  · intro found isFound
    have inserted : (state.insertWait pid wait).condWaitState.lookup pid = some wait :=
      lookup_insertOrdered_self _
    cases inserted.symm.trans isFound
    exact ⟨args, inside, same, proper⟩
  intro args forgets
  rw [calm] at forgets
  cases forgets

lemma Kept.write {addr : Nat} {value : BitVec 32}
    (harmless : state.ledger.Harmless (leader pid, addr) value) :
    Kept leader (state.write leader pid addr value) where
  sound := kept.sound.write harmless
  granted := kept.granted
  fits := kept.fits
  waits := kept.waits

lemma Kept.put {words : List (Nat × BitVec 32)}
    (harmless : ∀ entry ∈ words, state.ledger.Harmless (leader pid, entry.1) entry.2) :
    Kept leader (put leader pid state words) ∧
      (put leader pid state words).phase = state.phase := by
  induction words generalizing state with
  | nil => exact ⟨kept, rfl⟩
  | cons entry words ih =>
    have first := kept.write (harmless entry (List.mem_cons_self ..))
    exact ih first fun later member => harmless later (List.mem_cons_of_mem _ member)

lemma Kept.ret {value : Nat}
    (ungranted : call.grants value = none) (outside : state.condWaitState.lookup pid = none) :
    Kept leader (state.ret leader pid call value) := by
  simp only [State.ret, State.complete, ungranted]
  refine kept.change rfl (fun _ _ => rfl) ?_ kept.sound (fun _ _ _ granted => granted) trivial nofun
  intro wait found
  cases outside.symm.trans found

lemma Kept.parkReturning {value : Nat}
    (ungranted : call.grants value = none) (outside : (state.phase pid).waits = none) :
    Kept leader (state.parkReturning leader pid call value) := by
  simp only [State.parkReturning, State.complete, ungranted]
  exact kept.move trivial (.inr outside) rfl

lemma Kept.exchange {lock : Locking} (here : state.phase pid = .exchanging lock)
    (real : state.word leader pid lock.mutex = 0 ∨ pid ≠ 0) :
    Kept leader (state.exchange leader pid lock) := by
  have fits : lock.Fits := (here ▸ kept.fits pid : (Phase.exchanging lock).Fits)
  unfold State.exchange
  split
  · rename_i zero
    cases lock with
    | call mutex => exact kept.lock_returns (by rw [here]; rfl) zero
    | wait args mutex timedOut =>
      obtain ⟨rfl, proper⟩ := fits
      exact kept.wait_locks (by rw [here]; rfl) proper zero
  rename_i nonzero
  rw [if_neg (real.resolve_left nonzero)]
  exact kept.move fits (.inl (by rw [here]; rfl)) rfl

lemma Kept.acquire (inside : (state.phase pid).waits = some args) (same : mutex = args.mutex)
    (proper : args.Proper) : Kept leader (state.acquire leader pid args mutex timedOut) := by
  subst same
  unfold acquire
  split
  · rename_i zero
    exact kept.wait_locks inside proper zero
  have valid : ¬ (Locking.wait args args.mutex timedOut).mutex < 0x1000 := Nat.not_lt.2 proper.2
  rw [lock, if_neg valid]
  exact kept.move ⟨rfl, proper⟩ (.inl inside.symm) rfl

lemma Kept.matchState (here : state.phase pid = .matching args wait) :
    Kept leader (state.matchState leader pid args wait) := by
  obtain ⟨same, proper⟩ : (Phase.matching args wait).Fits := here ▸ kept.fits pid
  have inside : (state.phase pid).waits = some args := by rw [here]; rfl
  cases wait with
  | waiting saved seq =>
    simp only [matchState]
    split
    all_goals exact kept.move ⟨same, proper⟩ (.inl inside.symm) rfl
  | acquiringMutex mutex timedOut => exact kept.acquire inside same proper

lemma Kept.released (fits : release.Fits) (inside : (state.phase pid).waits = release.waits) :
    Kept leader (state.released leader pid release) := by
  cases release with
  | call mutex => exact kept.ret rfl (kept.unlisted inside)
  | wait args seq => exact kept.move fits (.inl inside.symm) rfl

lemma Kept.prefer (fits : release.Fits)
    (inside : (state.phase pid).waits = release.waits) (waiter : Option Nat) (woke : Nat)
    (running : List Nat) : Kept leader (state.prefer leader pid release waiter woke running) := by
  unfold State.prefer
  generalize (state.acqmutexWaiterFor pid release.mutex running).or _ = next
  dsimp only
  split
  · exact kept.move fits (.inl inside.symm) rfl
  · exact kept.released fits inside

lemma Kept.enter (here : state.phase pid = .entering call)
    (real : ∀ mutex, call = .lock mutex → 0x1000 ≤ mutex) :
    Kept leader (state.enter leader pid call) := by
  cases call with
  | lock mutex =>
    have valid : ¬ (Locking.call mutex).mutex < 0x1000 := Nat.not_lt.2 (real mutex rfl)
    rw [enter, lock, if_neg valid]
    exact kept.move trivial (.inl (by rw [here]; rfl)) rfl
  | unlock mutex | signal cond | broadcast cond =>
    simp only [enter]
    split
    · exact kept.ret rfl (kept.unlisted (by rw [here]; rfl))
    · exact kept.move trivial (.inl (by rw [here]; rfl)) rfl
  | wait args =>
    have inside : (state.phase pid).waits = some args := by rw [here]; rfl
    simp only [enter]
    split
    · rename_i improper
      refine kept.ret rfl ?_
      -- an entry is only there for arguments that passed this check
      cases found : state.condWaitState.lookup pid with
      | none => rfl
      | some wait =>
        obtain ⟨_, isArgs, _, proper⟩ := kept.waits pid wait found
        cases inside.symm.trans isArgs
        rcases improper with low | low
        · exact absurd proper.1 (Nat.not_le.2 low)
        · exact absurd proper.2 (Nat.not_le.2 low)
    rename_i proper
    have proper : args.Proper := by
      rw [not_or, Nat.not_lt, Nat.not_lt] at proper
      exact proper
    split
    · rename_i wait found
      obtain ⟨_, isArgs, same, _⟩ := kept.waits pid wait found
      cases inside.symm.trans isArgs
      exact kept.move ⟨same, proper⟩ (.inl inside.symm) rfl
    · exact kept.move proper (.inl inside.symm) rfl

end

variable {after : State} {input : Input}

lemma Kept.work (kept : Kept leader state) {signal : Signal} {woke : Nat} {job : Job}
    {rest : List Job} (here : state.phase pid = .working signal woke (job :: rest))
    (careful : state.careful leader (.advance pid input))
    (stepped : state.work leader pid signal woke rest job input = some after) :
    Kept leader after := by
  have outside : (state.phase pid).waits = none := by rw [here]; rfl
  unfold State.work at stepped
  split at stepped <;> simp only [some.injEq, reduceCtorEq] at stepped <;> subst stepped
  case h_1 addr =>
    have harmless : state.ledger.Harmless (leader pid, addr) (state.word leader pid addr + 1) := by
      simpa [State.careful, here] using careful
    exact (kept.write harmless).move trivial (.inr outside) rfl
  case h_4 words =>
    have harmless : ∀ entry ∈ words, state.ledger.Harmless (leader pid, entry.1) entry.2 := by
      simpa [State.careful, here] using careful
    obtain ⟨written, phases⟩ := kept.put harmless
    exact written.move trivial (.inr (by rw [phases]; exact outside)) rfl
  all_goals exact kept.move trivial (.inr outside) rfl

lemma waits_origin (lock : Locking) : (Phase.parked (.retry lock.origin)).waits = lock.waits := by
  cases lock <;> rfl

lemma Kept.found (kept : Kept leader state) {found : CondWaitState}
    {test : CondWaitState → Bool} (inside : (state.phase pid).waits = some args)
    (isFound : (state.condWaitState.lookup pid).filter test = some found) :
    found.mutex = args.mutex := by
  obtain ⟨_, isArgs, same, _⟩ := kept.waits pid found (filter_eq_some_iff.1 isFound).1
  cases inside.symm.trans isArgs
  exact same

lemma Kept.advance (kept : Kept leader state) (careful : state.careful leader (.advance pid input))
    (stepped : state.advance leader pid input = some after) : Kept leader after := by
  have fits := kept.fits pid
  unfold State.advance at stepped
  split at stepped
  all_goals rename_i here
  all_goals try rw [here] at fits
  all_goals try simp only [some.injEq] at stepped
  all_goals try subst stepped
  -- the thread calls and resumes
  case h_1 | h_3 => exact kept.move trivial (.inr (by rw [here]; rfl)) rfl
  case h_2 call =>
    refine kept.move trivial (.inl ?_) rfl
    rw [here]
    cases call <;> rfl
  case h_4 call =>
    refine kept.enter here ?_
    rintro mutex rfl
    simpa [State.careful, here] using careful
  -- lock
  case h_5 => exact kept.exchange here (by simpa [State.careful, here] using careful)
  case h_7 lock | h_10 lock =>
    exact kept.move trivial (.inl (by rw [here]; exact waits_origin lock)) rfl
  case h_9 | h_29 =>
    split at stepped
    all_goals cases stepped
    all_goals exact kept.move fits (.inl (by rw [here]; rfl)) rfl
  -- unlock
  case h_14 => exact kept.store here (by simpa [State.careful, here] using careful)
  case h_16 => exact kept.prefer fits (by rw [here]; rfl) _ _ _
  case h_17 release =>
    cases release with
    | call mutex => exact kept.parkReturning rfl (by rw [here]; rfl)
    | wait args seq => simp [State.careful, here] at careful
  case h_18 => exact kept.released fits (by rw [here]; rfl)
  -- wait
  case h_20 | h_23 =>
    split
    all_goals exact kept.move fits (.inl (by rw [here]; rfl)) rfl
  case h_21 => exact kept.insertWait rfl rfl fits ⟨rfl, fits⟩ rfl
  case h_22 => exact kept.matchState here
  case h_25 => exact kept.insertWait rfl fits.1 fits.2 fits rfl
  case h_26 =>
    split at stepped <;> cases stepped
    · exact kept.move ⟨fits, fits.1⟩ (.inl (by rw [here]; rfl)) rfl
    · exact kept.move fits (.inl (by rw [here]; rfl)) rfl
  case h_27 | h_31 => exact kept.move trivial (.inl (by rw [here]; rfl)) rfl
  case h_28 => exact kept.move ⟨fits, fits.1⟩ (.inl (by rw [here]; rfl)) rfl
  case h_30 arm wait =>
    have inside : (state.phase pid).waits = some arm.args := by rw [here]; rfl
    split at stepped <;> cases stepped
    · rename_i found isFound
      have same := kept.found inside isFound
      exact kept.move ⟨fits.1, same⟩ (.inl inside.symm) rfl
    · exact kept.move fits (.inl inside.symm) rfl
  case h_33 arm wait =>
    have inside : (state.phase pid).waits = some arm.args := by rw [here]; rfl
    split at stepped <;> cases stepped
    · rename_i found isFound
      have same := kept.found inside isFound
      exact kept.move ⟨same, fits.1.2⟩ (.inl inside.symm) rfl
    · exact kept.move fits (.inl inside.symm) rfl
  case h_34 =>
    split
    · exact kept.move fits (.inl (by rw [here]; rfl)) rfl
    · exact kept.move fits.1 (.inl (by rw [here]; rfl)) rfl
  case h_35 =>
    split
    · exact kept.move fits.1 (.inl (by rw [here]; rfl)) rfl
    · exact kept.move ⟨fits.2, fits.1.2⟩ (.inl (by rw [here]; rfl)) rfl
  case h_36 => exact kept.wait_returns here
  -- signal and broadcast
  case h_37 => exact kept.work here careful stepped
  case h_38 signal _ =>
    refine kept.parkReturning ?_ (by rw [here]; rfl)
    simp only [Signal.call]
    split <;> rfl
  case h_39 signal _ =>
    refine kept.ret ?_ (kept.unlisted (by rw [here]; rfl))
    simp only [Signal.call]
    split <;> rfl
  case h_40 => cases stepped
  -- the other steps only move on within a lock, an unlock or a wait
  all_goals exact kept.move fits (.inl (by rw [here]; rfl)) rfl

lemma mutex_expire (now : Nat) (wait : CondWaitState) : (wait.expire now).mutex = wait.mutex := by
  cases wait with
  | waiting wait seq =>
    simp only [CondWaitState.expire]
    split <;> rfl
  | acquiringMutex => rfl

section

variable (kept : Kept leader state)
include kept

lemma Kept.expire (cpu space now : Nat) : Kept leader (state.expire cpu space now) where
  sound := kept.sound
  granted := kept.granted
  fits := kept.fits
  waits := by
    intro pid wait found
    rw [State.expire, lookup_map, map_eq_some_iff] at found
    obtain ⟨before, isBefore, rfl⟩ := found
    rw [mutex_expire]
    exact kept.waits pid before isBefore

lemma Kept.queues (futexWaiters : List (Nat × Nat))
    (isr : Nat → Isr) : Kept leader { state with futexWaiters, isr } :=
  { kept with }

lemma Kept.finish (waiting : state.condWaitState.lookup pid = some (.acquiringMutex mutex true))
    (zero : state.ledger.word (leader pid, mutex) = 0) :
    Kept leader ((advanceContext leader
      { state with ledger := state.ledger.take (leader pid, mutex) pid } pid).removeWait pid) := by
  obtain ⟨args, inside, same, _⟩ := kept.waits pid _ waiting
  subst same
  have taken : (state.ledger.take (leader pid, args.mutex) pid).Granted
      (leader pid, args.mutex) pid :=
    Ledger.granted_take zero kept.sound
  have sound := kept.sound.take zero pid
  have others : ∀ other, other ≠ pid → (erase state.condWaitState pid).lookup other =
      state.condWaitState.lookup other := fun other => lookup_erase_of_ne
  have gone : (erase state.condWaitState pid).lookup pid = none := lookup_erase_self
  have noEntry : ∀ wait (phase : Phase),
      (erase state.condWaitState pid).lookup pid = some wait →
        ∃ args, phase.waits = some args ∧ wait.mutex = args.mutex ∧ args.Proper := by
    intro wait phase found
    cases gone.symm.trans found
  unfold advanceContext
  split
  · rename_i call here
    obtain rfl : call = .wait args := by
      rw [here] at inside
      cases call <;> cases inside
      rfl
    refine kept.change rfl others (fun wait => noEntry wait _) (sound.tell taken) ?_ trivial nofun
    exact fun key other different granted => (granted.take kept.sound zero).tell taken different
  · rename_i here
    rw [here] at inside
    cases inside
  refine kept.change (update_eq_self pid state.phase).symm others
    (fun wait => noEntry wait _) sound ?_ (kept.fits pid) ?_
  · exact fun key other _ granted => granted.take kept.sound zero
  · exact fun args forgets => (kept.granted pid args forgets).take kept.sound zero

lemma Kept.step {label : Label} (careful : state.careful leader label)
    (stepped : state.step leader label = some after) : Kept leader after := by
  cases label with
  | advance pid input => exact kept.advance careful stepped
  | wake caller addr count =>
    cases stepped
    exact kept.queues _ _
  | tick cpu space now =>
    simp only [State.step] at stepped
    split at stepped <;> cases stepped
    exact kept.expire cpu space now
  | unlist cpu contended =>
    simp only [State.step] at stepped
    split at stepped <;> cases stepped
    · exact kept.queues _ _
    · cases contended
      all_goals exact kept.queues _ _
  | find cpu contended =>
    simp only [State.step] at stepped
    split at stepped
    · split at stepped <;> cases stepped
      all_goals exact kept.queues _ _
    · cases stepped
  | finish cpu contended =>
    simp only [State.step] at stepped
    split at stepped <;> cases stepped
    rename_i space pid mutex serving
    refine Kept.queues ?_ _ _
    cases contended with
    | true => exact kept
    | false =>
      simp only [finishCondTimedoutReturn, Bool.false_eq_true, if_false]
      split
      · exact kept
      rename_i free
      rw [not_or, not_not] at free
      have met : state.condWaitState.lookup pid = some (.acquiringMutex mutex true) ∧
          space = leader pid := by
        simpa [State.careful, serving, free.2] using careful
      obtain ⟨waiting, rfl⟩ := met
      exact kept.finish waiting free.2

end

end Steps

theorem mutex_held_on_return (leader : Nat → Nat) {state : State}
    (reached : (system leader).Reachable (fun state label => state.careful leader label = true)
      state) : state.ledger.Exclusive := by
  suffices kept : Kept leader state from kept.sound.exclusive
  refine reached.invariant ?_ fun state label next kept careful stepped => kept.step careful stepped
  rintro _ ⟨_, rfl⟩
  exact ⟨⟨nofun, fun _ => .inl rfl⟩, nofun, fun _ => trivial, nofun⟩

def twoThreads : State :=
  { ledger := { word := fun _ => 0, locker := fun _ => none, returned := fun _ => [] } }

lemma twoThreads_start : (system fun _ => 2).start twoThreads := ⟨fun _ => 0, rfl⟩

def steps (pid : Nat) (inputs : List Input) : List Label := inputs.map (.advance pid)

def timedRun : List Label :=
  steps 2 [.call (.lock 0x2000), .go, .go] ++
  steps 2 [.call (.wait ⟨0x3000, 0x2000, 5⟩), .go, .go, .go, .go, .go, .go, .running [], .go, .go,
    .time 1, .go, .switch] ++
  steps 3 [.call (.lock 0x2000), .go, .go] ++
  steps 3 [.call (.unlock 0x2000), .go, .go, .go, .go, .running []] ++
  [.tick 0 2 7, .unlist 0 false, .unlist 0 false, .find 0 false, .finish 0 false] ++
  steps 2 [.resume]

theorem timed_wait_holds : ∃ state, (system fun _ => 2).Reachable
    (fun state label => state.careful (fun _ => 2) label = true) state ∧
      state.ledger.returned (2, 0x2000) = [2] ∧ state.ledger.Exclusive := by
  have ran : ((system fun _ => 2).run twoThreads timedRun).map
      (fun state => state.ledger.returned (2, 0x2000)) = some [2] := by
    decide +kernel
  obtain ⟨state, ran, told⟩ := map_eq_some_iff.1 ran
  have reached := Runs.Machine.Obeys.reachable (.start twoThreads_start)
    (by decide +kernel : (system fun _ => 2).Obeys
      (fun state label => state.careful (fun _ => 2) label = true) twoThreads timedRun) ran
  exact ⟨state, reached, told, mutex_held_on_return (fun _ => 2) reached⟩

def handoverRun : List Label :=
  steps 2 [.call (.lock 0x2000), .go, .go] ++
  steps 3 [.call (.lock 0x2000), .go, .go, .go, .switch] ++
  steps 2 [.call (.wait ⟨0x3000, 0x2000, 0⟩), .go, .go, .go, .go, .go, .go, .running [], .switch] ++
  steps 3 [.resume, .go, .go]

theorem wait_returns_in_unlock : ∃ state,
    (system fun _ => 2).Reachable Runs.anyStep state ∧
      state.ledger.returned (2, 0x2000) = [2, 3] ∧ state.ledger.locker (2, 0x2000) = some 3 := by
  have ran : ((system fun _ => 2).run twoThreads handoverRun).map
      (fun state => (state.ledger.returned (2, 0x2000), state.ledger.locker (2, 0x2000))) =
        some ([2, 3], some 3) := by
    decide +kernel
  obtain ⟨state, reached, seen⟩ := Runs.Machine.run_view _ twoThreads_start ran
  exact ⟨state, reached, congrArg Prod.fst seen, congrArg Prod.snd seen⟩

end OsCortex.Cond
