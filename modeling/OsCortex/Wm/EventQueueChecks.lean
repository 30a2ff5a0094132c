import OsCortex.Wm.EventList

/-!
The ring of events refines the bounded list, over every run of `push`, `push_front` and `pop_for`.
-/

namespace OsCortex.Wm

open Circular List Function EventList Entry EventQueue Circular

variable {q : EventQueue} {list : EventList} {ev : WmEvent} {owner pid : Nat}

namespace EventQueue

def contents (q : EventQueue) : List Entry := Circular.contents q.cells q.head q.len

lemma cells_write (idx : Fin eventCap) (entry : Entry) :
    (q.write idx entry).cells = update q.cells idx entry := by
  funext i
  by_cases same : i = idx
  · subst same
    simp [cells, write]
  · simp [cells, write, same]

lemma cells_change (idx : Fin eventCap) (ev : WmEvent) :
    { q with buf := update q.buf idx ev }.cells = update q.cells idx ⟨ev, q.ownerPid idx⟩ := by
  funext i
  by_cases same : i = idx
  · subst same
    simp [cells]
  · simp [cells, same]

lemma scan_eq (hit : Entry → Bool) : q.scan hit = q.contents.findIdx? hit := find?_offsets hit

lemma findFor_eq (pid : Nat) : q.findFor pid = choice pid q.contents := by
  simp [findFor, choice, scan_eq]

lemma shiftLeft_eq (count : Nat) (q : EventQueue) (off : Nat) :
    (q.shiftLeft off count).cells = shift q.cells q.head off count ∧
      ∃ buf ownerPid, q.shiftLeft off count = { q with buf, ownerPid } := by
  induction count generalizing q off with
  | zero => exact ⟨rfl, q.buf, q.ownerPid, rfl⟩
  | succ count ih =>
    obtain ⟨moved, buf, ownerPid, same⟩ := ih (q.write (slot eventCap (q.head + off))
      (q.cells (slot eventCap (q.head + (off + 1))))) (off + 1)
    rw [cells_write] at moved
    exact ⟨moved, buf, ownerPid, same⟩

end EventQueue

structure Refines (q : EventQueue) (list : EventList) : Prop where
  entries : q.contents = list.entries
  head : q.head < eventCap
  tail : q.tail = (q.head + q.len) % eventCap
  nextSeq : q.nextSeq = list.nextSeq
  dropped : q.dropped = list.dropped % 2 ^ 64

section

variable (refines : Refines q list)
include refines

lemma Refines.length : list.entries.length = q.len := by
  rw [← refines.entries, EventQueue.contents, length_contents]

lemma Refines.len_le : q.len ≤ eventCap := refines.length ▸ list.bounded

lemma Refines.tailIdx (some : 0 < q.len) : q.tailIdx = slot eventCap (q.head + (q.len - 1)) := by
  rw [EventQueue.tailIdx, refines.tail, Nat.add_sub_assoc (by decide), slot_mod_add,
    show q.head + q.len + (eventCap - 1) = q.head + (q.len - 1) + eventCap by
      have : 0 < eventCap := by decide
      omega, slot_add_cap]

lemma Refines.getLast? (some : 0 < q.len) : list.entries.getLast? = .some (q.cells q.tailIdx) := by
  rw [getLast?_eq_getElem?, refines.length, ← refines.entries, refines.tailIdx some]
  exact getElem?_contents (by omega)

lemma Refines.bump : Refines { q with nextSeq := seqAfter q.nextSeq }
      { list with nextSeq := seqAfter list.nextSeq } :=
  { refines with nextSeq := congrArg seqAfter refines.nextSeq }

lemma dropOldest_refines : Refines q.dropOldest list.dropOldest := by
  have cap : 0 < eventCap := by decide
  have length := refines.length
  have bound := refines.len_le
  by_cases full : q.len = eventCap
  · have excess : list.excess = 1 := by rw [excess]; omega
    rw [EventQueue.dropOldest, if_pos full]
    refine ⟨?_, Nat.mod_lt _ cap, ?_, by simpa using refines.nextSeq, ?_⟩
    · rw [entries_dropOldest, excess]
      show contents q.cells ((q.head + 1) % eventCap) (q.len - 1) = list.entries.drop 1
      rw [contents_mod, ← refines.entries, EventQueue.contents,
        show q.len = q.len - 1 + 1 by omega, contents_cons]
      simp
    · dsimp only
      rw [refines.tail, Nat.mod_add_mod, show q.head + 1 + (q.len - 1) = q.head + q.len by omega]
    · dsimp only
      rw [dropped_dropOldest, excess, refines.dropped, Nat.mod_add_mod]
  have excess : list.excess = 0 := by rw [excess]; omega
  rw [EventQueue.dropOldest, if_neg full]
  refine ⟨?_, refines.head, refines.tail, by simpa using refines.nextSeq, ?_⟩
  · rw [entries_dropOldest, excess]
    exact refines.entries
  · rw [dropped_dropOldest, excess]
    exact refines.dropped

lemma dropNewest_refines : Refines q.dropNewest list.dropNewest := by
  have cap : 0 < eventCap := by decide
  have length := refines.length
  have bound := refines.len_le
  by_cases full : q.len = eventCap
  · have excess : list.excess = 1 := by rw [excess]; omega
    rw [EventQueue.dropNewest, if_pos full]
    refine ⟨?_, refines.head, ?_, by simpa using refines.nextSeq, ?_⟩
    · show contents q.cells q.head (q.len - 1) = list.entries.take (eventCap - 1)
      have last : q.len = q.len - 1 + 1 := by omega
      rw [show eventCap - 1 = q.len - 1 by rw [full], ← refines.entries, EventQueue.contents, last,
        contents_succ, Nat.add_sub_cancel, take_left' (by simp)]
    · show (q.tail + eventCap - 1) % eventCap = (q.head + (q.len - 1)) % eventCap
      rw [refines.tail, Nat.add_sub_assoc cap, Nat.mod_add_mod,
        show q.head + q.len + (eventCap - 1) = q.head + (q.len - 1) + eventCap by omega,
        Nat.add_mod_right]
    · show (q.dropped + 1) % 2 ^ 64 = (list.dropped + list.excess) % 2 ^ 64
      rw [refines.dropped, excess, Nat.mod_add_mod]
  have excess : list.excess = 0 := by rw [excess]; omega
  rw [EventQueue.dropNewest, if_neg full]
  refine ⟨?_, refines.head, refines.tail, by simpa using refines.nextSeq, ?_⟩
  · show q.contents = list.entries.take (eventCap - 1)
    rw [take_of_length_le (by omega)]
    exact refines.entries
  show q.dropped = (list.dropped + list.excess) % 2 ^ 64
  rw [excess]
  exact refines.dropped

lemma append_refines (entry : Entry) (room : list.entries.length < eventCap) :
    Refines (q.append entry) (list.append entry room) := by
  have cells : (q.append entry).cells = update q.cells (slot eventCap (q.head + q.len)) entry := by
    rw [← slot_mod, ← refines.tail]
    exact cells_write ..
  refine { refines with entries := ?_, tail := ?_ }
  · rw [EventQueue.contents, cells]
    refine (contents_write_last (refines.length ▸ room)).trans ?_
    exact congrArg (· ++ [entry]) refines.entries
  · show (q.tail + 1) % eventCap = (q.head + (q.len + 1)) % eventCap
    rw [refines.tail, Nat.mod_add_mod, Nat.add_assoc]

lemma prepend_refines (entry : Entry) (room : list.entries.length < eventCap) :
    Refines (q.prepend entry) (list.prepend entry room) := by
  have cap : 0 < eventCap := by decide
  have cells : (q.prepend entry).cells =
      update q.cells (slot eventCap (q.head + eventCap - 1)) entry := by
    rw [← slot_mod]
    exact cells_write ..
  refine ⟨?_, Nat.mod_lt _ cap, ?_, refines.nextSeq, refines.dropped⟩
  · rw [EventQueue.contents, cells]
    refine (contents_mod.trans (contents_write_first (refines.length ▸ room))).trans ?_
    exact congrArg (entry :: ·) refines.entries
  show q.tail = ((q.head + eventCap - 1) % eventCap + (q.len + 1)) % eventCap
  rw [refines.tail, Nat.mod_add_mod,
    show q.head + eventCap - 1 + (q.len + 1) = q.head + q.len + eventCap by omega,
    Nat.add_mod_right]

lemma modify_refines {off : Nat} (inside : off < q.len) {change : Entry → Entry} {ev : WmEvent}
    (changed : change (q.cells (slot eventCap (q.head + off))) =
      ⟨ev, q.ownerPid (slot eventCap (q.head + off))⟩) :
    { q with buf := update q.buf (slot eventCap (q.head + off)) ev }.contents =
      list.entries.modify off change := by
  rw [EventQueue.contents, EventQueue.cells_change, contents_write inside refines.len_le,
    ← changed, modify_eq_set_getElem?, ← refines.entries, EventQueue.contents,
    getElem?_contents inside]
  rfl

lemma target_eq (entry : Entry) : target entry list.entries =
      (q.pendingTick entry).or (if q.continuesPointer entry then some (q.len - 1) else none) := by
  rw [pendingTick, target, scan_eq, refines.entries]
  cases tick : entry.isTick with
  | true =>
    have other : entry.isPointer = false := by
      simp only [isTick, Bool.and_eq_true, beq_iff_eq] at tick
      simp [isPointer, tick.1, evVsync, evPointer]
    simp [continuesPointer, other]
  | false =>
    by_cases some : 0 < q.len
    · simp [continuesPointer, refines.getLast? some, some, refines.length, Bool.and_assoc]
    have empty : list.entries = [] := by
      rw [← length_eq_zero_iff, refines.length]
      omega
    simp [continuesPointer, empty, some]

lemma accept_refines (entry : Entry) : Refines (q.accept entry) (list.accept entry) := by
  have target := target_eq refines entry
  rw [EventQueue.accept, EventList.accept, target]
  cases pending : q.pendingTick entry with
  | some off =>
    -- a tick: its new time goes into the one that waits
    have tick : entry.isTick := by
      by_contra other
      simp [pendingTick, other] at pending
    have inside : off < q.len := by
      rw [pendingTick, if_pos tick] at pending
      exact mem_range.1 (mem_of_find?_eq_some pending)
    refine { refines with entries := ?_ }
    exact modify_refines refines inside (by rw [merged, if_pos tick]; rfl)
  | none =>
    cases continues : q.continuesPointer entry with
    | false => exact append_refines (dropOldest_refines refines) entry _
    | true =>
      have facts := continues
      simp only [continuesPointer, Bool.and_eq_true, decide_eq_true_eq] at facts
      obtain ⟨⟨⟨⟨pointer, some⟩, _⟩, _⟩, _⟩ := facts
      have other : ¬ entry.isTick := by
        simp only [isPointer, beq_iff_eq] at pointer
        simp [isTick, pointer, evVsync, evPointer]
      refine { refines with entries := ?_ }
      rw [refines.tailIdx some]
      exact modify_refines refines (by omega) (by rw [merged, if_neg other]; rfl)

lemma push_refines : Refines (q.push ev owner) (list.push ev owner) := by
  rw [EventQueue.push, EventList.push, refines.nextSeq]
  exact accept_refines (refines.nextSeq ▸ refines.bump) _

lemma pushFront_refines : Refines (q.pushFront ev owner) (list.pushFront ev owner) := by
  rw [EventQueue.pushFront, EventList.pushFront, refines.nextSeq]
  exact prepend_refines (dropNewest_refines (refines.nextSeq ▸ refines.bump)) _ _

lemma contents_shiftLeft {off : Nat} (inside : off < q.len) :
    contents (q.shiftLeft off (q.len - 1 - off)).cells q.head (q.len - 1) =
      list.entries.eraseIdx off := by
  have bound := refines.len_le
  have erased := @contents_shift Entry eventCap _ q.cells q.head off (q.len - 1 - off) (by omega)
  rw [show off + (q.len - 1 - off) = q.len - 1 by omega,
    show q.len - 1 + 1 = q.len by omega] at erased
  rw [(shiftLeft_eq ..).1, erased, ← refines.entries]
  rfl

lemma popFor_refines :
    Refines (q.popFor pid).1 (list.popFor pid).1 ∧ q.taken pid = (list.popFor pid).2 ∧
      (q.popFor pid).2 = (q.taken pid).map (·.event) := by
  have cap : 0 < eventCap := by decide
  have found := @findFor_eq q pid
  rw [refines.entries] at found
  rw [EventQueue.popFor, EventList.popFor, EventQueue.taken, found]
  cases chosen : choice pid list.entries with
  | none =>
    refine ⟨?_, rfl, ?_⟩
    · split
      all_goals exact refines
    split
    · rfl
    · rfl
  | some off =>
    obtain ⟨_, here, _⟩ := choice_served chosen
    have inside : off < q.len := by
      rw [← refines.length]
      exact (List.getElem?_eq_some_iff.1 here).1
    have entries := contents_shiftLeft refines inside
    obtain ⟨_, _, _, same⟩ := shiftLeft_eq (q.len - 1 - off) q off
    rw [if_neg (by omega)]
    dsimp only
    rw [same] at entries ⊢
    refine ⟨{ refines with entries, tail := ?_ }, ?_, rfl⟩
    · dsimp only
      rw [refines.tail, Nat.add_sub_assoc cap, Nat.mod_add_mod,
        show q.head + q.len + (eventCap - 1) = q.head + (q.len - 1) + eventCap by omega,
        Nat.add_mod_right]
    · rw [← refines.entries, EventQueue.contents, getElem?_contents inside]
      rfl

end

structure Simulates (seen : Observed) (list : EventList) : Prop where
  refines : Refines seen.queue list
  balanced : seen.pushed.length = seen.popped.length + list.total

lemma call_simulates {seen : Observed} (simulates : Simulates seen list) (call : Call) :
    Simulates (seen.call call) (list.call call) := by
  obtain ⟨refines, balanced⟩ := simulates
  cases call with
  | push ev owner =>
    refine ⟨push_refines refines, ?_⟩
    simp only [Observed.call, call, total_push, length_append, length_singleton, balanced]
    omega
  | pushFront ev owner =>
    refine ⟨pushFront_refines refines, ?_⟩
    simp only [Observed.call, call, total_pushFront, length_append, length_singleton, balanced]
    omega
  | popFor pid =>
    obtain ⟨next, took, _⟩ := @popFor_refines seen.queue list pid refines
    refine ⟨next, ?_⟩
    have left := list.total_popFor pid
    simp only [Observed.call, call, length_append, took, balanced]
    omega

lemma run_simulates (calls : List Call) : Simulates (Observed.after calls) (.after calls) := by
  have run : ∀ (calls : List Call) (seen : Observed) (list : EventList), Simulates seen list →
      Simulates (calls.foldl Observed.call seen) (calls.foldl call list) := by
    intro calls
    induction calls with
    | nil => exact fun _ _ simulates => simulates
    | cons call rest ih =>
      exact fun seen list simulates => ih _ _ (call_simulates simulates call)
  refine run calls {} {} ⟨⟨rfl, by decide, rfl, rfl, rfl⟩, rfl⟩

theorem event_ring_refines_list (calls : List Call) : let seen := Observed.after calls
    let list := after calls
    Refines seen.queue list ∧ seen.queue.tail = (seen.queue.head + seen.queue.len) % eventCap ∧
      seen.pushed.length = seen.popped.length + seen.queue.len + list.dropped + list.coalesced ∧
      seen.queue.dropped = list.dropped % 2 ^ 64 ∧
      ∀ pid, (seen.queue.popFor pid).2 = (seen.queue.taken pid).map (·.event) ∧
        Served pid seen.queue.contents (seen.queue.taken pid)
          (seen.queue.popFor pid).1.contents := by
  intro seen list
  obtain ⟨refines, balanced⟩ : Simulates seen list := run_simulates calls
  refine ⟨refines, refines.tail, ?_, refines.dropped, fun pid => ?_⟩
  · rw [balanced, total, refines.length]
    omega
  obtain ⟨next, took, returned⟩ := @popFor_refines _ _ pid refines
  refine ⟨returned, ?_⟩
  rw [refines.entries, next.entries, took]
  exact popFor_served _ pid

end OsCortex.Wm
