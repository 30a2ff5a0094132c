import OsCortex.Lib.Runs
import OsCortex.Lib.Circular

/-!
The mailbox of `cortex/ipc.rs` with its three locks; one step takes or releases one of them.
`posted` and `dispatched` record the messages.
-/

namespace OsCortex.Ipc

open Function

structure IpcMsg where
  kind : UInt8
  arg0 : UInt64
  arg1 : UInt64
  deriving DecidableEq

inductive Lock where
  | head
  | tail
  | mailbox
  deriving DecidableEq

structure Party where
  cpu : Nat
  handler : Bool
  deriving DecidableEq

inductive Pc where
  | idle
  | posting (msg : IpcMsg)
  | readTail (msg : IpcMsg)
  | checkFull (msg : IpcMsg) (tail : Nat)
  | writeCell (msg : IpcMsg)
  | moveHead (msg : IpcMsg)
  | drain
  | handling
  | readHead
  | checkEmpty (head : Nat)
  | readCell
  | moveTail (msg : IpcMsg)
  | dispatch (msg : IpcMsg)
  deriving DecidableEq

def Pc.holds : Pc → List Lock
  | .posting _ | .checkFull .. | .moveHead _ => [.head]
  | .readTail _ => [.head, .tail]
  | .writeCell _ => [.head, .mailbox]
  | .handling | .checkEmpty _ | .moveTail _ => [.tail]
  | .readHead => [.tail, .head]
  | .readCell => [.tail, .mailbox]
  | .idle | .drain | .dispatch _ => []

def mailboxCap : Nat := 32

instance mailboxCap_pos : NeZero mailboxCap := ⟨by decide⟩

structure State where
  head : Nat := 0
  tail : Nat := 0
  mailbox : Fin mailboxCap → IpcMsg := fun _ => ⟨0, 0, 0⟩
  pcs : Party → Pc := fun _ => .idle
  posted : List IpcMsg := []
  dispatched : List IpcMsg := []

variable (cpuCount : Nat)

def State.goto (state : State) (party : Party) (pc : Pc) : State :=
  { state with pcs := Function.update state.pcs party pc }

def State.free (state : State) (lock : Lock) : Bool :=
  (List.range cpuCount).all fun cpu =>
    lock ∉ (state.pcs ⟨cpu, false⟩).holds ∧ lock ∉ (state.pcs ⟨cpu, true⟩).holds

def State.acquire (state : State) (party : Party) (lock : Lock) (pc : Pc) : Option State :=
  if state.free cpuCount lock then some (state.goto party pc) else none

def State.advance (state : State) (party : Party) : Option State :=
  match state.pcs party with
  | .idle => none
  -- `post`
  | .posting msg => state.acquire cpuCount party .tail (.readTail msg)
  | .readTail msg => some (state.goto party (.checkFull msg state.tail))
  | .checkFull msg tail =>
    if (state.head + 1) % mailboxCap = tail then some (state.goto party .idle)
    else state.acquire cpuCount party .mailbox (.writeCell msg)
  | .writeCell msg =>
    some { state.goto party (.moveHead msg) with
      mailbox := Function.update state.mailbox (Circular.slot _ state.head) msg }
  | .moveHead msg =>
    some { state.goto party .idle with
      head := (state.head + 1) % mailboxCap
      posted := state.posted ++ [msg] }
  -- `handle_ipc_interrupt`
  | .drain => state.acquire cpuCount party .tail .handling
  | .handling => state.acquire cpuCount party .head .readHead
  | .readHead => some (state.goto party (.checkEmpty state.head))
  | .checkEmpty head =>
    if state.tail = head then some (state.goto party .idle)
    else state.acquire cpuCount party .mailbox .readCell
  | .readCell =>
    some (state.goto party (.moveTail (state.mailbox (Circular.slot _ state.tail))))
  | .moveTail msg =>
    some { state.goto party (.dispatch msg) with tail := (state.tail + 1) % mailboxCap }
  | .dispatch msg =>
    some { state.goto party .drain with dispatched := state.dispatched ++ [msg] }

inductive Label where
  | post (cpu : Nat) (msg : IpcMsg)
  | interrupt (cpu : Nat)
  | advance (party : Party)

/-- A post stands still while the handler runs on its CPU. -/
def State.step (state : State) : Label → Option State
  | .post cpu msg =>
    if cpu < cpuCount ∧ state.pcs ⟨cpu, false⟩ = .idle ∧ state.pcs ⟨cpu, true⟩ = .idle then
      state.acquire cpuCount ⟨cpu, false⟩ .head (.posting msg)
    else none
  | .interrupt cpu =>
    if cpu < cpuCount ∧ state.pcs ⟨cpu, true⟩ = .idle then
      some (state.goto ⟨cpu, true⟩ .drain)
    else none
  | .advance party =>
    if party.handler ∨ state.pcs ⟨party.cpu, true⟩ = .idle then state.advance cpuCount party
    else none

def system : Runs.Machine State Label where
  start state := state = {}
  step := State.step cpuCount

def Pc.wants : Pc → Option Lock
  | .posting _ | .drain => some .tail
  | .handling => some .head
  | .checkFull .. | .checkEmpty _ => some .mailbox
  | _ => none

def Waits (state : State) (party other : Party) : Prop :=
  party ≠ other ∧ ((∃ lock ∈ (state.pcs other).holds, (state.pcs party).wants = some lock) ∨
    state.pcs party ≠ .idle ∧ state.pcs other ≠ .idle ∧ other = ⟨party.cpu, true⟩)

def queued (state : State) : List IpcMsg :=
  Circular.contents state.mailbox state.tail
    ((state.head + mailboxCap - state.tail) % mailboxCap)

def Pc.carried : Pc → List IpcMsg
  | .dispatch msg => [msg]
  | _ => []

/-- A post takes its first lock, or the handler starts, while nobody else is in a call. -/
def Alone (state : State) : Label → Prop
  | .post .. | .interrupt _ => ∀ party, state.pcs party = .idle
  | .advance _ => True

def Seen (state : State) : Pc → Prop
  | .checkFull _ tail => tail = state.tail
  | .writeCell _ => (state.head + 1) % mailboxCap ≠ state.tail
  | .moveHead msg => (state.head + 1) % mailboxCap ≠ state.tail
      ∧ state.mailbox (Circular.slot _ state.head) = msg
  | .checkEmpty head => head = state.head
  | .readCell => state.tail ≠ state.head
  | .moveTail msg => state.tail ≠ state.head ∧ state.mailbox (Circular.slot _ state.tail) = msg
  | _ => True

structure Kept (state : State) (party : Party) : Prop where
  others : ∀ other, other ≠ party → state.pcs other = .idle
  head : state.head < mailboxCap
  tail : state.tail < mailboxCap
  seen : Seen state (state.pcs party)
  flow : state.posted = state.dispatched ++ (state.pcs party).carried ++ queued state

variable {cpuCount : Nat} {state next : State} {party : Party} {lock : Lock} {pc : Pc} {msg : IpcMsg}

lemma queued_moveHead (head : state.head < mailboxCap) (tail : state.tail < mailboxCap)
    (room : (state.head + 1) % mailboxCap ≠ state.tail)
    (written : state.mailbox (Circular.slot _ state.head) = msg) :
    Circular.contents state.mailbox state.tail
      (((state.head + 1) % mailboxCap + mailboxCap - state.tail) % mailboxCap)
        = queued state ++ [msg] := by
  have longer : ((state.head + 1) % mailboxCap + mailboxCap - state.tail) % mailboxCap
      = (state.head + mailboxCap - state.tail) % mailboxCap + 1 := by
    simp only [mailboxCap] at *
    omega
  have place : Circular.slot mailboxCap
      (state.tail + (state.head + mailboxCap - state.tail) % mailboxCap)
        = Circular.slot mailboxCap state.head := by
    rw [Circular.slot_eq]
    simp only [mailboxCap] at *
    omega
  rw [longer, Circular.contents_succ, place, written]
  rfl

lemma queued_moveTail (head : state.head < mailboxCap) (tail : state.tail < mailboxCap)
    (filled : state.tail ≠ state.head) :
    queued state = state.mailbox (Circular.slot _ state.tail)
      :: queued { state with tail := (state.tail + 1) % mailboxCap } := by
  have longer : (state.head + mailboxCap - state.tail) % mailboxCap
      = (state.head + mailboxCap - (state.tail + 1) % mailboxCap) % mailboxCap + 1 := by
    simp only [mailboxCap] at *
    omega
  rw [queued, longer, Circular.contents_cons, ← Circular.contents_mod]
  rfl

lemma queued_writeCell (head : state.head < mailboxCap) : queued { state with
    mailbox := update state.mailbox (Circular.slot _ state.head) msg } = queued state := by
  refine Circular.contents_congr fun off inside => update_of_ne (fun same => ?_) ..
  rw [Circular.slot_eq] at same
  simp only [mailboxCap] at *
  omega

section

variable (kept : Kept state party)
include kept

lemma Kept.goto (pcs : next.pcs = update state.pcs party pc)
    (head : next.head < mailboxCap) (tail : next.tail < mailboxCap) (seen : Seen next pc)
    (flow : next.posted = next.dispatched ++ pc.carried ++ queued next) : Kept next party := by
  have here : next.pcs party = pc := by rw [pcs, update_self]
  refine ⟨fun other different => ?_, head, tail, here ▸ seen, here ▸ flow⟩
  rw [pcs, update_of_ne different, kept.others other different]

lemma Kept.acquire (taken : state.acquire cpuCount party lock pc = some next) (seen : Seen state pc)
    (carried : pc.carried = (state.pcs party).carried) : Kept next party := by
  obtain ⟨-, rfl⟩ := of_guard taken
  exact kept.goto rfl kept.head kept.tail seen (carried ▸ kept.flow)

lemma Kept.advance (taken : state.advance cpuCount party = some next) : Kept next party := by
  have wraps (i : Nat) : i % mailboxCap < mailboxCap := Nat.mod_lt _ (by decide)
  have ⟨_, head, tail, seen, flow⟩ := kept
  cases pc : state.pcs party <;> simp only [State.advance, pc, reduceCtorEq] at taken <;>
    simp only [pc, Seen, Pc.carried] at seen flow
  case posting | drain | handling => exact kept.acquire taken trivial (by rw [pc]; rfl)
  case readTail | readHead | readCell =>
    cases taken
    exact kept.goto rfl head tail (by simp [Seen, State.goto, seen]) flow
  case checkFull | checkEmpty =>
    split at taken
    · cases taken
      exact kept.goto rfl head tail trivial flow
    · rename_i other
      exact kept.acquire taken (fun same => other (same.trans seen.symm)) (by rw [pc]; rfl)
  case writeCell msg =>
    cases taken
    refine kept.goto rfl head tail ⟨seen, by simp [State.goto]⟩ ?_
    exact flow.trans (congrArg _ (queued_writeCell head).symm)
  case moveHead msg =>
    cases taken
    refine kept.goto rfl (wraps _) tail trivial ?_
    have longer := queued_moveHead head tail seen.1 seen.2
    simp [flow, queued, State.goto, longer, Pc.carried]
  case moveTail msg =>
    cases taken
    refine kept.goto rfl head (wraps _) trivial ?_
    rw [queued_moveTail head tail seen.1, seen.2, List.append_nil, List.append_cons] at flow
    exact flow
  case dispatch msg =>
    cases taken
    exact kept.goto rfl head tail trivial (flow.trans (by simp [Pc.carried]; rfl))

lemma Kept.start (idle : ∀ party, state.pcs party = .idle)
    (starter : Party) : Kept state starter := by
  have flow := kept.flow
  rw [idle] at flow
  exact ⟨fun other _ => idle other, kept.head, kept.tail, idle starter ▸ trivial,
    idle starter ▸ flow⟩

lemma Kept.step {label : Label} (alone : Alone state label)
    (taken : (system cpuCount).step state label = some next) : ∃ party, Kept next party := by
  cases label with
  | post cpu msg =>
    simp only [system, State.step] at taken
    split at taken
    · exact ⟨_, (kept.start alone _).acquire taken trivial (by rw [alone]; rfl)⟩
    · cases taken
  | interrupt cpu =>
    obtain ⟨-, rfl⟩ := of_guard taken
    have start := kept.start alone ⟨cpu, true⟩
    have flow := start.flow
    rw [alone] at flow
    exact ⟨_, start.goto rfl start.head start.tail trivial flow⟩
  | advance other =>
    simp only [system, State.step] at taken
    split at taken
    · by_cases same : other = party
      · exact ⟨party, kept.advance (same ▸ taken)⟩
      · simp [State.advance, kept.others other same] at taken
    · cases taken

end

def ping : IpcMsg := ⟨0, 1, 2⟩

def pong : IpcMsg := ⟨0, 3, 4⟩

def steps (party : Party) (count : Nat) : List Label := List.replicate count (.advance party)

end OsCortex.Ipc
