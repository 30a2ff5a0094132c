import OsCortex.Lib.Runs
import OsCortex.Lib.Scan
import OsCortex.Lib.Bytes

/-!
The mailbox of `platform_channel/mod.rs` and its system calls, one critical section each. `replies`
and `acks` record the replies taken and handed out.
-/

namespace OsCortex.PlatformChannel

open List Option

structure PlatformMsg where
  seq : Nat
  senderPid : Nat
  channel : List UInt8
  payload : List UInt8
  reply : Option (List UInt8) := none

structure State where
  msgs : List PlatformMsg := []
  nextSeq : Nat := 1
  alive : Nat → Bool := fun _ => true
  replies : List (Nat × List UInt8) := []
  acks : List (Nat × List UInt8) := []

def maxPending : Nat := 32
def maxPayload : Nat := 32 * 1024

def post (state : State) (senderPid : Nat) (channel payload : List UInt8) : State × Int :=
  if maxPayload < payload.length then (state, -27)
  else if maxPending ≤ state.msgs.length then (state, -11)
  else
    ({ state with
      msgs := state.msgs ++ [{ seq := state.nextSeq, senderPid, channel, payload }]
      nextSeq := max ((state.nextSeq + 1) % 2 ^ 64) 1 }, state.nextSeq)

def PlatformMsg.total (msg : PlatformMsg) : Nat :=
  8 + 2 + 4 + msg.channel.length + msg.payload.length

def pending (state : State) : Option PlatformMsg := state.msgs.find? fun msg => msg.reply.isNone

def recvInto (state : State) (bufLen : Nat) : List UInt8 :=
  match pending state with
  | none => []
  | some msg =>
    if bufLen < msg.total then []
    else
      Bytes.leBytes 8 msg.seq ++ Bytes.leBytes 2 msg.channel.length
        ++ Bytes.leBytes 4 msg.payload.length ++ msg.channel ++ msg.payload

def reply (state : State) (seq : Nat) (data : List UInt8) : State × Int :=
  match Scan.updateFirst (fun msg => msg.seq == seq)
      (fun msg : PlatformMsg => { msg with reply := some data }) state.msgs with
  | some (_, msgs) => ({ state with msgs, replies := (seq, data) :: state.replies }, 0)
  | none => (state, -3)

def answers (seq : Nat) (msg : PlatformMsg) : Bool := msg.seq == seq && msg.reply.isSome

def ack (state : State) (seq bufLen : Nat) : State × List UInt8 :=
  match (state.msgs.find? (answers seq)).bind PlatformMsg.reply with
  | none => (state, [])
  | some data =>
    ({ state with
      msgs := state.msgs.eraseP (answers seq)
      acks := (seq, data.take bufLen) :: state.acks }, data.take bufLen)

/-- Buffers that `read_user_bytes` refuses are `none`. -/
inductive Call where
  | post (pid : Nat) (channel data : Option (List UInt8))
  | recv (bufPtr bufLen : Nat)
  | reply (seq : Nat) (data : Option (List UInt8))
  | ack (seq bufPtr bufLen : Nat)
  | exit (pid : Nat)

def perform (state : State) : Call → State × Int
  | .post pid (some channel) (some data) => post state pid channel data
  | .post .. => (state, -14)
  | .recv bufPtr bufLen =>
    if bufPtr = 0 ∨ bufLen = 0 then (state, -14) else (state, (recvInto state bufLen).length)
  | .reply seq (some data) => reply state seq data
  | .reply _ none => (state, -14)
  | .ack seq bufPtr bufLen =>
    if bufPtr = 0 ∨ bufLen = 0 then (state, -14)
    else ((ack state seq bufLen).1, (ack state seq bufLen).2.length)
  | .exit pid => ({ state with alive := Function.update state.alive pid false }, 0)

/-- Only a process that runs posts. -/
def system : Runs.Machine State Call where
  start state := state = {}
  step state call :=
    match call with
    | .post pid _ _ => if state.alive pid then some (perform state call).1 else none
    | _ => some (perform state call).1

/-- Zero means that there is nothing to receive, or that the reply is still to come. -/
def Honest (state : State) (call : Call) : Prop :=
  (perform state call).2 = 0 → match call with
    | .recv .. => ∀ msg ∈ state.msgs, msg.reply.isSome = true
    | .ack seq .. => ∀ data, (seq, data) ∉ state.replies
    | _ => True

structure Sound (state : State) : Prop where
  once : (state.acks.map Prod.fst).Nodup
  own : ∀ answer ∈ state.acks, ∃ data, (answer.1, data) ∈ state.replies ∧ answer.2 <+: data
  alive : ∀ msg ∈ state.msgs, state.alive msg.senderPid = true

def Handled (state : State) : Call → Prop
  | .post .. => state.nextSeq + 1 < 2 ^ 64
  | .recv _ bufLen => ∀ msg, pending state = some msg → msg.total ≤ bufLen
  | .reply _ data => data ≠ some []
  | .ack seq _ _ => seq ∉ state.acks.map Prod.fst
  | .exit pid => ∀ msg ∈ state.msgs, msg.senderPid ≠ pid

def known (state : State) : List Nat := state.acks.map Prod.fst ++ state.msgs.map PlatformMsg.seq

structure Kept (state : State) : Prop where
  issued : (known state).Nodup
  below : ∀ seq ∈ known state, seq < state.nextSeq
  own : ∀ answer ∈ state.acks, ∃ data, (answer.1, data) ∈ state.replies ∧ answer.2 <+: data
  stored : ∀ msg ∈ state.msgs, ∀ data, msg.reply = some data →
    (msg.seq, data) ∈ state.replies ∧ data ≠ []
  arrived : ∀ answer ∈ state.replies, answer.1 ∈ state.acks.map Prod.fst ∨
    ∃ msg ∈ state.msgs, answers answer.1 msg = true
  alive : ∀ msg ∈ state.msgs, state.alive msg.senderPid = true

variable {state : State} {seq : Nat}

section

variable (kept : Kept state)
include kept

lemma Kept.post {pid : Nat} (runs : state.alive pid)
    (room : state.nextSeq + 1 < 2 ^ 64) (channel payload : List UInt8) :
    Kept (PlatformChannel.post state pid channel payload).1 := by
  unfold PlatformChannel.post
  split
  · exact kept
  split
  · exact kept
  have next : max ((state.nextSeq + 1) % 2 ^ 64) 1 = state.nextSeq + 1 := by omega
  have fresh : state.nextSeq ∉ known state := fun old => lt_irrefl _ (kept.below _ old)
  obtain ⟨issued, below, own, _, _, _⟩ := kept
  simp only [known] at issued below fresh
  constructor
  · simp only [known, map_append, ← append_assoc]
    exact issued.append (nodup_singleton _) (by simpa using fresh)
  · grind [known]
  · exact own
  · grind
  · grind
  · grind

lemma Kept.reply (seq : Nat) {data : List UInt8} (filled : data ≠ []) :
    Kept (PlatformChannel.reply state seq data).1 := by
  unfold PlatformChannel.reply
  split
  · rename_i old msgs updated
    obtain ⟨named, before, after, split, rfl, -⟩ := Scan.updateFirst_some updated
    have same : known { state with msgs := before ++ { old with reply := some data } :: after }
        = known state := by simp [known, split]
    obtain ⟨issued, below, _, _, arrived, _⟩ := kept
    refine ⟨same ▸ issued, same ▸ below, ?_, ?_, ?_, ?_⟩
    · grind
    · grind
    · intro answer member
      by_cases here : answer.1 = seq
      · exact .inr ⟨{ old with reply := some data }, by simp, by simpa [answers, here] using named⟩
      · have before := arrived answer
        grind [answers]
    · grind
  · exact kept

lemma Kept.ack (seq bufLen : Nat) : Kept (PlatformChannel.ack state seq bufLen).1 := by
  unfold PlatformChannel.ack
  split
  · exact kept
  rename_i found
  obtain ⟨msg, first, _⟩ := bind_eq_some_iff.mp found
  obtain ⟨hit, before, after, split, missed⟩ := find?_eq_some_iff_append.mp first
  have erased : state.msgs.eraseP (answers seq) = before ++ after := by
    rw [split, eraseP_append_right _ (by simpa using missed), eraseP_cons_of_pos hit]
  have named : msg.seq = seq := by
    simp only [answers, Bool.and_eq_true, beq_iff_eq] at hit
    exact hit.1
  obtain ⟨issued, below, _, _, _, _⟩ := kept
  rw [erased]
  have same : (known state).Perm (seq :: (state.acks.map Prod.fst ++ 
      (before ++ after).map PlatformMsg.seq)) := by
    simp only [known, split, map_append, map_cons, named, ← append_assoc]
    exact perm_middle
  refine ⟨same.nodup_iff.mp issued, fun seq member => below seq (same.mem_iff.mpr member),
    ?_, ?_, ?_, ?_⟩
  · grind
  · grind
  · grind [answers]
  · grind

lemma Kept.step {call : Call} (handled : Handled state call) {next : State}
    (taken : system.step state call = some next) : Kept next := by
  cases call with try cases taken
  | post pid channel data =>
    simp only [system] at taken
    obtain ⟨runs, rfl⟩ := of_guard taken
    cases channel with
    | none => exact kept
    | some channel =>
      cases data with
      | none => exact kept
      | some data => exact kept.post runs handled channel data
  | recv bufPtr bufLen =>
    simp only [perform]
    split <;> exact kept
  | reply seq data =>
    cases data with
    | none => exact kept
    | some data => exact kept.reply seq fun empty => handled (congrArg some empty)
  | ack seq bufPtr bufLen =>
    simp only [perform]
    split
    · exact kept
    · exact kept.ack seq bufLen
  | exit pid =>
    refine ⟨kept.issued, kept.below, kept.own, kept.stored, kept.arrived, fun msg member => ?_⟩
    simp [perform, Function.update_of_ne (handled msg member), kept.alive msg member]

lemma Kept.honest {call : Call} (handled : Handled state call) : Honest state call := by
  intro zero
  cases call with
  | recv bufPtr bufLen =>
    simp only [perform] at zero
    split at zero
    · cases zero
    cases first : pending state with
    | none => simpa [pending, isSome_iff_ne_none] using first
    | some msg =>
      have room := handled msg first
      simp [recvInto, first, Nat.not_lt.mpr room] at zero
      omega
  | ack seq bufPtr bufLen =>
    intro data taken
    simp only [perform] at zero
    split at zero
    · cases zero
    have queued := (kept.arrived _ taken).resolve_left handled
    obtain ⟨msg, first⟩ := isSome_iff_exists.mp (find?_isSome.mpr queued)
    have hit := find?_some first
    simp only [answers, Bool.and_eq_true] at hit
    obtain ⟨full, has⟩ := isSome_iff_exists.mp hit.2
    have filled := (kept.stored msg (mem_of_find?_eq_some first) full has).2
    rw [← length_pos_iff] at filled
    simp only [PlatformChannel.ack, first, bind_some, has, length_take] at zero
    omega
  | _ => trivial

end

theorem platform_channel_answers {state : State} (reached : system.Reachable Handled state) :
    Sound state ∧ ∀ call, Handled state call → Honest state call := by
  have kept : Kept state := by
    refine reached.invariant ?_ ?_
    · rintro _ rfl
      constructor <;> simp [known]
    · exact fun _ _ _ kept handled taken => kept.step handled taken
  exact ⟨⟨kept.issued.of_append_left, kept.own, kept.alive⟩, fun _ => kept.honest⟩

def posted : State := (perform {} (.post 2 (some []) (some [7]))).1

theorem posted_answers : Sound posted ∧ Honest posted (.recv 4096 15) := by
  have reached : system.Reachable Handled posted :=
    .step (.start rfl) (show Handled {} (.post 2 (some []) (some [7])) by simp [Handled]) rfl
  refine (platform_channel_answers reached).imp id fun honest => honest _ fun msg first => ?_
  cases first
  decide

theorem platform_channel_misleads : ∃ state, system.Reachable Runs.anyStep state ∧ ¬ Sound state
    ∧ ¬ Honest state (.recv 4096 8)
    ∧ ¬ Honest (perform state (.reply 1 (some []))).1 (.ack 1 4096 8) := by
  have ran : system.run {} [.post 2 (some []) (some [7]), .exit 2]
      = some (perform posted (.exit 2)).1 := rfl
  refine ⟨_, Runs.Machine.run_reachable (.start rfl) ran, fun sound => ?_, fun honest => ?_,
    fun honest => ?_⟩
  · cases sound.alive _ mem_cons_self
  · cases honest rfl _ mem_cons_self
  · exact honest rfl [] mem_cons_self

end OsCortex.PlatformChannel
