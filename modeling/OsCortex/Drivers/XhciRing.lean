import OsCortex.Lib.Runs

/-!
The rings of `drivers/xhci_runtime.rs` with a controller that goes by cycle bits and Link TRBs.
-/

namespace OsCortex.Xhci

open List Function

/-- A TRB; `control` is its last word without the cycle bit. -/
structure Trb where
  dw0 : Nat := 0
  dw1 : Nat := 0
  dw2 : Nat := 0
  control : Nat := 0
  cycle : Bool := false
  deriving DecidableEq

def Trb.isLink (trb : Trb) : Bool := trb.control / 2 ^ 10 % 2 ^ 6 == 6

def Trb.togglesCycle (trb : Trb) : Bool := trb.control / 2 % 2 == 1

def Trb.pointer (trb : Trb) : Nat := trb.dw0 + trb.dw1 * 2 ^ 32

def Trb.body (trb : Trb) : Trb := { trb with cycle := false }

def cmdTrbs : Nat := 64
def epTrbs : Nat := 32

structure Layout where
  cap : Nat
  wrap : Nat
  link : Bool
  positive : 0 < wrap
  size : cap = if link then wrap + 1 else wrap

def commandRing : Layout :=
  { cap := cmdTrbs, wrap := cmdTrbs, link := false, positive := by decide, size := rfl }

def transferRing : Layout :=
  { cap := epTrbs, wrap := epTrbs - 1, link := true, positive := by decide, size := rfl }

inductive DriverRing where
  | command
  | control
  | hid

def DriverRing.layout : DriverRing → Layout
  | .command => commandRing
  | .control | .hid => transferRing

structure Ring where
  trbs : Nat → Trb
  idx : Nat := 0
  cycle : Bool := true

def putTrb (trbs : Nat → Trb) (idx cap : Nat) (trb : Trb) (cycle : Bool) : Nat → Trb :=
  Function.update trbs (idx % cap) { trb with cycle }

def linkTrb (phys : Nat) : Trb :=
  { dw0 := phys % 2 ^ 32, dw1 := phys / 2 ^ 32, control := 6 * 2 ^ 10 + 2 }

def Ring.start (layout : Layout) (phys : Nat) : Ring :=
  { trbs :=
      if layout.link then putTrb (fun _ => {}) (layout.cap - 1) layout.cap (linkTrb phys) true
      else fun _ => {} }

def Ring.post (layout : Layout) (ring : Ring) (trb : Trb) : Ring :=
  let trbs := putTrb ring.trbs ring.idx layout.cap trb ring.cycle
  if layout.wrap ≤ ring.idx + 1 then { trbs, idx := 0, cycle := !ring.cycle }
  else { trbs, idx := ring.idx + 1, cycle := ring.cycle }

def postCmd (ring : Ring) (trb : Trb) : Ring := ring.post commandRing trb

def putEp0 (ring : Ring) (trb : Trb) : Ring := ring.post transferRing trb

def hidTrb (hidPhys : Nat) : Trb :=
  { dw0 := hidPhys % 2 ^ 32, dw1 := hidPhys / 2 ^ 32, dw2 := 8,
    control := 2 ^ 10 + 2 ^ 5 + 2 ^ 16 }

def armHidTransfer (hidPhys : Nat) (ring : Ring) : Ring := ring.post transferRing (hidTrb hidPhys)

structure Traffic where
  ring : Ring
  pos : Nat := 0
  ccs : Bool := true
  posted : List Trb := []
  consumed : List Trb := []

def Traffic.consume (phys : Nat) (traffic : Traffic) : Traffic :=
  let trb := traffic.ring.trbs traffic.pos
  if trb.cycle ≠ traffic.ccs then traffic
  else if trb.isLink then
    { traffic with
      pos := (trb.pointer - phys) / 16
      ccs := if trb.togglesCycle then !traffic.ccs else traffic.ccs }
  else
    { traffic with pos := traffic.pos + 1, consumed := traffic.consumed ++ [trb.body] }

def Traffic.post (layout : Layout) (traffic : Traffic) (trb : Trb) : Traffic :=
  { traffic with
    ring := traffic.ring.post layout trb
    posted := traffic.posted ++ [trb.body] }

inductive Turn where
  | post (trb : Trb) (work : trb.isLink = false)
  | consume

def Traffic.turn (layout : Layout) (phys : Nat) (traffic : Traffic) : Turn → Traffic
  | .post trb _ => traffic.post layout trb
  | .consume => traffic.consume phys

def traffics (layout : Layout) (phys : Nat) : Runs.Machine Traffic Turn where
  start traffic := traffic = { ring := Ring.start layout phys }
  step traffic label := some (traffic.turn layout phys label)

def Delivers (phys : Nat) (traffic : Traffic) : Prop :=
  ∃ turns, let last := (Traffic.consume phys)^[turns] traffic
    last.consumed = traffic.posted ∧ last.consume phys = last

def Layout.limit (layout : Layout) : Nat := if layout.link then 2 * layout.wrap else layout.wrap

def InTime (layout : Layout) (traffic : Traffic) (label : Turn) : Prop :=
  match label with
  | .post _ _ => traffic.posted.length < layout.limit ∧
      traffic.posted.length < traffic.consumed.length + layout.wrap
  | .consume => True

variable {layout : Layout} {phys : Nat} {traffic : Traffic} {trb : Trb}

lemma linkTrb_pointer (phys : Nat) : (linkTrb phys).pointer = phys := by
  simp only [linkTrb, Trb.pointer]
  rw [Nat.mul_comm]
  exact Nat.mod_add_div phys (2 ^ 32)

structure Placed (layout : Layout) (phys : Nat) (traffic : Traffic) : Prop where
  idx : traffic.ring.idx < layout.wrap
  work : ∀ cell, cell < layout.wrap → (traffic.ring.trbs cell).isLink = false
  link : layout.link = true → traffic.ring.trbs layout.wrap = { linkTrb phys with cycle := true }
  bare : layout.link = false → (traffic.ring.trbs layout.wrap).cycle = false
  inside : traffic.pos ≤ layout.wrap
  lap : (traffic.ccs = true ∧ traffic.consumed.length = traffic.pos) ∨
    (layout.link = true ∧ traffic.ccs = false ∧
      traffic.consumed.length = layout.wrap + traffic.pos)

section

variable (placed : Placed layout phys traffic)
include placed

lemma Placed.short : traffic.consumed.length ≤ layout.limit := by
  have inside := placed.inside
  rw [Layout.limit]
  rcases placed.lap with ⟨_, _⟩ | ⟨link, _, _⟩
  · split <;> omega
  · rw [if_pos link]
    omega

lemma consume_cases : (traffic.consume phys = traffic ∧
      (traffic.pos < layout.wrap → (traffic.ring.trbs traffic.pos).cycle ≠ traffic.ccs) ∧
      (traffic.pos = layout.wrap → layout.link → traffic.ccs = false)) ∨
    (traffic.pos = layout.wrap ∧ layout.link ∧ traffic.ccs ∧
      traffic.consume phys = { traffic with pos := 0, ccs := false }) ∨
    (traffic.pos < layout.wrap ∧ (traffic.ring.trbs traffic.pos).cycle = traffic.ccs ∧
      traffic.consume phys =
        { traffic with
          pos := traffic.pos + 1
          consumed := traffic.consumed ++ [(traffic.ring.trbs traffic.pos).body] }) := by
  rw [Traffic.consume]
  by_cases mismatch : (traffic.ring.trbs traffic.pos).cycle ≠ traffic.ccs
  · refine .inl ⟨if_pos mismatch, fun _ => mismatch, fun last link => ?_⟩
    rw [last, placed.link link] at mismatch
    exact eq_false_of_ne_true mismatch.symm
  have same := not_not.1 mismatch
  rw [if_neg mismatch]
  rcases Nat.lt_or_eq_of_le placed.inside with inside | last
  · refine .inr (.inr ⟨inside, same, ?_⟩)
    rw [if_neg (by rw [placed.work _ inside]; decide)]
  cases link : layout.link with
  | true =>
    have trb := placed.link link
    rw [last, trb] at same ⊢
    have follows : ({ linkTrb phys with cycle := true } : Trb).isLink := by
      simp [linkTrb, Trb.isLink]
    have toggles : ({ linkTrb phys with cycle := true } : Trb).togglesCycle := by
      simp [linkTrb, Trb.togglesCycle]
    have pointer : ({ linkTrb phys with cycle := true } : Trb).pointer = phys :=
      linkTrb_pointer phys
    refine .inr (.inl ⟨rfl, rfl, same.symm, ?_⟩)
    rw [if_pos follows, toggles, pointer, ← same, Nat.sub_self]
    rfl
  | false =>
    have none := placed.bare link
    rw [last, none] at same
    rcases placed.lap with ⟨ccs, _⟩ | ⟨has, _⟩
    · exact absurd (same.trans ccs) (by decide)
    · exact absurd (has.symm.trans link) (by decide)

lemma Placed.consume : Placed layout phys (traffic.consume phys) := by
  rcases consume_cases placed with ⟨same, _⟩ | ⟨last, link, ccs, same⟩ | ⟨inside, _, same⟩
  · rw [same]
    exact placed
  · rw [same]
    refine { placed with inside := Nat.zero_le _, lap := .inr ?_ }
    refine ⟨link, rfl, ?_⟩
    rcases placed.lap with ⟨_, first⟩ | ⟨_, second, _⟩
    · exact first.trans last
    · exact absurd (ccs.symm.trans second) (by decide)
  rw [same]
  refine { placed with inside, lap := ?_ }
  dsimp only
  rw [length_append, length_singleton]
  rcases placed.lap with ⟨ccs, first⟩ | ⟨link, ccs, second⟩
  · exact .inl ⟨ccs, by omega⟩
  · exact .inr ⟨link, ccs, by omega⟩

lemma post_trbs (trb : Trb) :
    (traffic.post layout trb).ring.trbs = update traffic.ring.trbs traffic.ring.idx
      { trb with cycle := traffic.ring.cycle } := by
  have idx := placed.idx
  have fits : layout.wrap ≤ layout.cap := by
    rw [layout.size]
    split <;> omega
  have spot : traffic.ring.idx % layout.cap = traffic.ring.idx :=
    Nat.mod_eq_of_lt (Nat.lt_of_lt_of_le idx fits)
  simp only [Traffic.post, Ring.post, putTrb, spot]
  split <;> rfl

lemma Placed.post (work : trb.isLink = false) : Placed layout phys (traffic.post layout trb) := by
  have idx := placed.idx
  have above : layout.wrap ≠ traffic.ring.idx := by omega
  refine ⟨?_, fun cell inside => ?_, ?_, ?_, placed.inside, placed.lap⟩
  · simp only [Traffic.post, Ring.post]
    split
    · exact layout.positive
    · dsimp only
      omega
  · rw [post_trbs placed]
    by_cases here : cell = traffic.ring.idx
    · rw [here, update_self]
      exact work
    · rw [update_of_ne here]
      exact placed.work cell inside
  · rw [post_trbs placed, update_of_ne above]
    exact placed.link
  · rw [post_trbs placed, update_of_ne above]
    exact placed.bare

lemma Placed.iterate (turns : Nat) :
    Placed layout phys ((Traffic.consume phys)^[turns] traffic) := by
  induction turns generalizing traffic with
  | zero => exact placed
  | succ turns ih => exact ih placed.consume

end

lemma start_cell (phys : Nat) {cell : Nat} (inside : cell < layout.wrap) :
    (Ring.start layout phys).trbs cell = {} := by
  simp only [Ring.start]
  split
  · rename_i link
    have size : layout.cap = layout.wrap + 1 := by rw [layout.size, if_pos link]
    rw [putTrb, size, Nat.add_sub_cancel, Nat.mod_eq_of_lt (Nat.lt_succ_self _)]
    exact update_of_ne (by omega) _ _
  · rfl

lemma placed_start (layout : Layout) (phys : Nat) :
    Placed layout phys { ring := Ring.start layout phys } := by
  refine ⟨layout.positive, fun place inside => ?_, fun link => ?_, fun bare => ?_, Nat.zero_le _,
    .inl ⟨rfl, rfl⟩⟩
  · dsimp only
    rw [start_cell phys inside]
    rfl
  · have size : layout.cap = layout.wrap + 1 := by rw [layout.size, if_pos link]
    simp only [Ring.start, if_pos link, putTrb, size, Nat.add_sub_cancel,
      Nat.mod_eq_of_lt (Nat.lt_succ_self _), update_self]
  · simp only [Ring.start, bare]
    rfl

lemma Placed.undelivered (placed : Placed layout phys traffic)
    (many : layout.limit < traffic.posted.length) : ¬ Delivers phys traffic := by
  rintro ⟨turns, all, _⟩
  have short := (placed.iterate turns).short
  rw [all] at short
  omega

structure Filled (layout : Layout) (traffic : Traffic) (cell : Nat) : Prop where
  unused : traffic.posted.length ≤ cell → (traffic.ring.trbs cell).cycle = false
  first : ∀ trb, traffic.posted[cell]? = some trb → traffic.posted.length ≤ layout.wrap + cell →
    traffic.ring.trbs cell = { trb with cycle := true }
  second : ∀ trb, traffic.posted[layout.wrap + cell]? = some trb →
    traffic.ring.trbs cell = { trb with cycle := false }

structure Flowing (layout : Layout) (phys : Nat) (traffic : Traffic) : Prop where
  placed : Placed layout phys traffic
  few : traffic.posted.length ≤ layout.limit
  behind : traffic.posted.length ≤ traffic.consumed.length + layout.wrap
  ordered : traffic.consumed <+: traffic.posted
  bodies : ∀ trb ∈ traffic.posted, trb.cycle = false
  cells : ∀ cell, cell < layout.wrap → Filled layout traffic cell
  producer : (traffic.posted.length < layout.wrap ∧
      traffic.ring.idx = traffic.posted.length ∧ traffic.ring.cycle = true) ∨
    (layout.wrap ≤ traffic.posted.length ∧ traffic.posted.length < 2 * layout.wrap ∧
      layout.wrap + traffic.ring.idx = traffic.posted.length ∧ traffic.ring.cycle = false) ∨
    traffic.posted.length = 2 * layout.wrap

lemma limit_le (layout : Layout) : layout.limit ≤ 2 * layout.wrap ∧
    (layout.link = false → layout.limit = layout.wrap) := by
  rw [Layout.limit]
  cases layout.link with
  | true => exact ⟨le_rfl, nofun⟩
  | false => exact ⟨by simp only [Bool.false_eq_true, if_false]; omega, fun _ => rfl⟩

section

variable (flowing : Flowing layout phys traffic)
include flowing

lemma Flowing.ahead
    (left : traffic.consumed.length < traffic.posted.length) (inside : traffic.pos < layout.wrap) :
    ∃ trb, traffic.posted[traffic.consumed.length]? = some trb ∧
      traffic.ring.trbs traffic.pos = { trb with cycle := traffic.ccs } := by
  have behind := flowing.behind
  have filled := flowing.cells traffic.pos inside
  refine ⟨_, getElem?_eq_getElem left, ?_⟩
  rcases flowing.placed.lap with ⟨ccs, place⟩ | ⟨_, ccs, place⟩
  · rw [ccs]
    refine filled.first _ ?_ (by omega)
    rw [← place]
    exact getElem?_eq_getElem left
  rw [ccs]
  refine filled.second _ ?_
  rw [← place]
  exact getElem?_eq_getElem left

lemma Flowing.rest
    (done : traffic.posted.length ≤ traffic.consumed.length) (inside : traffic.pos < layout.wrap) :
    (traffic.ring.trbs traffic.pos).cycle ≠ traffic.ccs := by
  have filled := flowing.cells traffic.pos inside
  have same : traffic.consumed.length = traffic.posted.length :=
    Nat.le_antisymm flowing.ordered.length_le done
  rcases flowing.placed.lap with ⟨ccs, place⟩ | ⟨_, ccs, place⟩
  · rw [ccs, filled.unused (by omega)]
    decide
  have earlier : traffic.pos < traffic.posted.length := by
    omega
  rw [ccs, filled.first _ (getElem?_eq_getElem earlier) (by omega)]
  exact Bool.noConfusion

lemma Flowing.consume : (traffic.consume phys = traffic ∧ traffic.consumed = traffic.posted) ∨
    (Flowing layout phys (traffic.consume phys) ∧ (traffic.consume phys).posted = traffic.posted ∧
      2 * (traffic.consume phys).consumed.length + (if (traffic.consume phys).ccs then 0 else 1) >
        2 * traffic.consumed.length + if traffic.ccs then 0 else 1) := by
  have placed := flowing.placed.consume
  have inside := flowing.placed.inside
  have few := flowing.few
  obtain ⟨_, once⟩ := limit_le layout
  rcases consume_cases flowing.placed with ⟨same, stuck, ended⟩ | ⟨last, link, ccs, same⟩ |
    ⟨within, match_, same⟩
  · refine .inl ⟨same, IsPrefix.eq_of_length_le flowing.ordered ?_⟩
    by_contra left
    rcases Nat.lt_or_eq_of_le inside with within | last
    · obtain ⟨trb, _, cell⟩ := flowing.ahead (not_le.1 left) within
      exact stuck within (by rw [cell])
    rcases flowing.placed.lap with ⟨ccs, place⟩ | ⟨_, _, place⟩
    · cases link : layout.link with
      | true => exact absurd (ccs.symm.trans (ended last link)) (by decide)
      | false =>
        have := once link
        omega
    · omega
  · rw [same] at placed ⊢
    refine .inr ⟨{ flowing with placed, few, cells := fun cell below => ?_ }, rfl,
      ?_⟩
    · obtain ⟨unused, first, second⟩ := flowing.cells cell below
      exact ⟨unused, first, second⟩
    · rw [ccs]
      simp
  have left : traffic.consumed.length < traffic.posted.length := by
    by_contra done
    exact flowing.rest (not_lt.1 done) within match_
  obtain ⟨trb, here, cell⟩ := flowing.ahead left within
  have plain : ({ trb with cycle := traffic.ccs } : Trb).body = trb := by
    have bare := flowing.bodies trb (mem_of_getElem? here)
    rw [Trb.body, ← bare]
  have longer : traffic.consumed ++ [trb] <+: traffic.posted := by
    rw [prefix_iff_eq_take, length_append, length_singleton, take_add_one,
      here, ← prefix_iff_eq_take.1 flowing.ordered]
    rfl
  rw [same] at placed ⊢
  rw [cell, plain]
  have behind := flowing.behind
  refine .inr ⟨⟨?_, few, ?_, longer, flowing.bodies, fun cell below => ?_,
    flowing.producer⟩, rfl, ?_⟩
  · rw [cell, plain] at placed
    exact placed
  · simp only [length_append, length_singleton]
    omega
  · obtain ⟨unused, first, second⟩ := flowing.cells cell below
    exact ⟨unused, first, second⟩
  · simp only [length_append, length_singleton]
    omega

lemma Flowing.delivers : Delivers phys traffic := by
  -- each step consumes a TRB or follows the Link TRB
  obtain ⟨left, same⟩ : ∃ left, left = 2 * traffic.posted.length + 1 -
      (2 * traffic.consumed.length + if traffic.ccs then 0 else 1) := ⟨_, rfl⟩
  induction left using Nat.strong_induction_on generalizing traffic with
  | h left ih =>
    rcases flowing.consume with ⟨rests, all⟩ | ⟨flows, posted, _⟩
    · exact ⟨0, all, rests⟩
    have bound := flows.ordered.length_le
    rw [posted] at bound
    have small : (if (traffic.consume phys).ccs then 0 else 1) ≤ 1 := by split <;> omega
    have fewer : 2 * traffic.posted.length + 1 - (2 * (traffic.consume phys).consumed.length +
        if (traffic.consume phys).ccs then 0 else 1) < left := by omega
    obtain ⟨turns, all, rests⟩ := ih _ fewer flows (by rw [posted])
    exact ⟨turns + 1, all.trans posted, rests⟩

lemma Flowing.post (work : trb.isLink = false) (few : traffic.posted.length < layout.limit)
    (behind : traffic.posted.length < traffic.consumed.length + layout.wrap) :
    Flowing layout phys (traffic.post layout trb) := by
  obtain ⟨_, _⟩ := limit_le layout
  have length : (traffic.post layout trb).posted.length = traffic.posted.length + 1 := by
    simp [Traffic.post]
  refine ⟨flowing.placed.post work, ?_, ?_, ?_, ?_, fun cell inside => ?_, ?_⟩
  · rw [length]
    exact few
  · rw [length]
    exact behind
  · exact flowing.ordered.trans (prefix_append _ _)
  · intro other member
    rcases mem_append.1 member with old | new
    · exact flowing.bodies other old
    · rw [mem_singleton.1 new]
      rfl
  · have trbs := post_trbs flowing.placed trb
    have old : ∀ place : Nat, place < traffic.posted.length →
        (traffic.post layout trb).posted[place]? = traffic.posted[place]? := fun place within =>
      getElem?_append_left within
    have new : (traffic.post layout trb).posted[traffic.posted.length]? = some trb.body := by
      simp [Traffic.post]
    obtain ⟨unused, first, second⟩ := flowing.cells cell inside
    by_cases here : cell = traffic.ring.idx
    · have stamped : (traffic.post layout trb).ring.trbs cell =
          { trb with cycle := traffic.ring.cycle } := by
        rw [trbs, here, update_self]
      refine ⟨fun beyond => ?_, fun other found within => ?_, fun other found => ?_⟩
      · rw [length] at beyond
        rcases flowing.producer with ⟨_, place, _⟩ | ⟨_, _, place, _⟩ | full <;> omega
      · rw [length] at within
        rcases flowing.producer with ⟨_, place, cycle⟩ | ⟨_, _, place, _⟩ | full
        · rw [here, place, new] at found
          rw [stamped, cycle, ← Option.some.inj found]
          rfl
        · omega
        · omega
      rcases flowing.producer with ⟨_, place, _⟩ | ⟨_, _, place, cycle⟩ | full
      · have := (List.getElem?_eq_some_iff.1 found).1
        omega
      · rw [here, place, new] at found
        rw [stamped, cycle, ← Option.some.inj found]
        rfl
      · omega
    have kept : (traffic.post layout trb).ring.trbs cell = traffic.ring.trbs cell := by
      rw [trbs, update_of_ne here]
    have longer : ∀ {place : Nat} {other : Trb},
        (traffic.post layout trb).posted[place]? = some other →
        place < traffic.posted.length + 1 := fun found =>
      length ▸ (List.getElem?_eq_some_iff.1 found).1
    refine ⟨fun beyond => ?_, fun other found within => ?_, fun other found => ?_⟩
    · rw [length] at beyond
      rw [kept]
      exact unused (by omega)
    · rw [length] at within
      have known := longer found
      have earlier : cell < traffic.posted.length := by
        rcases flowing.producer with ⟨_, place, _⟩ | ⟨_, _, place, _⟩ | full <;> omega
      rw [kept]
      exact first other (old cell earlier ▸ found) (by omega)
    have known := longer found
    have earlier : layout.wrap + cell < traffic.posted.length := by
      rcases flowing.producer with ⟨_, place, _⟩ | ⟨_, _, place, _⟩ | full <;> omega
    rw [kept]
    exact second other (old _ earlier ▸ found)
  rw [length]
  simp only [Traffic.post, Ring.post]
  rcases flowing.producer with ⟨_, place, cycle⟩ | ⟨_, _, place, cycle⟩ | full
  · split
    · exact .inr (.inl ⟨by omega, by omega, by dsimp only; omega, by rw [cycle]; rfl⟩)
    · exact .inl ⟨by omega, by dsimp only; omega, cycle⟩
  · split
    · exact .inr (.inr (by omega))
    · exact .inr (.inl ⟨by omega, by omega, by dsimp only; omega, cycle⟩)
  · omega

end

lemma flowing_start (layout : Layout) (phys : Nat) :
    Flowing layout phys { ring := Ring.start layout phys } := by
  have placed := placed_start layout phys
  refine ⟨placed, Nat.zero_le _, Nat.zero_le _, nil_prefix, nofun, fun cell inside => ?_,
    .inl ⟨layout.positive, rfl, rfl⟩⟩
  refine ⟨fun _ => ?_, nofun, nofun⟩
  rw [start_cell phys inside]

lemma Flowing.overrun (flowing : Flowing layout phys traffic)
    (few : traffic.posted.length < layout.limit)
    (ahead : traffic.consumed.length + layout.wrap ≤ traffic.posted.length) :
    ¬ Delivers phys (traffic.post layout trb) := by
  obtain ⟨_, _⟩ := limit_le layout
  obtain ⟨ccs, place⟩ : traffic.ccs ∧ traffic.consumed.length = traffic.pos := by
    rcases flowing.placed.lap with first | ⟨_, _, _⟩
    · exact first
    · omega
  obtain ⟨spot, cycle⟩ : traffic.ring.idx = traffic.pos ∧ traffic.ring.cycle = false := by
    have behind := flowing.behind
    rcases flowing.producer with ⟨_, _, _⟩ | ⟨_, _, _, cycle⟩ | _
    · omega
    · exact ⟨by omega, cycle⟩
    · omega
  have stuck : (traffic.post layout trb).consume phys = traffic.post layout trb := by
    refine if_pos ?_
    rw [post_trbs flowing.placed]
    show (update traffic.ring.trbs traffic.ring.idx _ traffic.pos).cycle ≠ traffic.ccs
    rw [spot, update_self, cycle, ccs]
    exact Bool.noConfusion
  rintro ⟨_, all, _⟩
  rw [iterate_fixed stuck] at all
  have lengths := congrArg length all
  simp only [Traffic.post, length_append, length_singleton] at lengths
  omega

lemma Flowing.undelivered (flowing : Flowing layout phys traffic) {label : Turn}
    (late : ¬ InTime layout traffic label) :
    ¬ Delivers phys (traffic.turn layout phys label) := by
  cases label with
  | consume => exact absurd trivial late
  | post trb work =>
    by_cases few : traffic.posted.length < layout.limit
    · refine flowing.overrun few ?_
      by_contra behind
      exact late ⟨few, not_le.1 behind⟩
    refine (flowing.placed.post work).undelivered ?_
    simp only [Traffic.post, length_append, length_singleton]
    omega

lemma Flowing.turn (flowing : Flowing layout phys traffic) {label : Turn}
    (inTime : InTime layout traffic label) :
    Flowing layout phys (traffic.turn layout phys label) := by
  cases label with
  | post trb work => exact flowing.post work inTime.1 inTime.2
  | consume =>
    rcases flowing.consume with ⟨same, _⟩ | ⟨flows, _⟩
    · rw [Traffic.turn, same]
      exact flowing
    · exact flows

theorem rings_deliver_iff (ring : DriverRing) (phys : Nat) (labels : List Turn) :
    (traffics ring.layout phys).Always (Delivers phys)
        { ring := Ring.start ring.layout phys } labels ↔
      (traffics ring.layout phys).Obeys (InTime ring.layout)
        { ring := Ring.start ring.layout phys } labels := by
  obtain ⟨layout, same⟩ : ∃ layout, layout = ring.layout := ⟨_, rfl⟩
  rw [← same]
  have kept : ∀ traffic label next, Flowing layout phys traffic → Runs.anyStep traffic label →
      InTime layout traffic label → (traffics layout phys).step traffic label = some next →
      Flowing layout phys next := by
    intro traffic label next flowing _ inTime taken
    cases taken
    exact flowing.turn inTime
  have broken : ∀ traffic label, Flowing layout phys traffic → Runs.anyStep traffic label →
      ¬ InTime layout traffic label →
      ∃ next, (traffics layout phys).step traffic label = some next ∧ ¬ Delivers phys next :=
    fun traffic label flowing _ late => ⟨_, rfl, flowing.undelivered late⟩
  exact Runs.Machine.always_iff_obeys (fun _ flowing => flowing.delivers) kept broken labels
    (flowing_start layout phys) ((traffics layout phys).obeys_anyStep labels _)

def Prompt (traffic : Traffic) (label : Turn) : Prop :=
  match label with
  | .post _ _ => traffic.consumed = traffic.posted
  | .consume => True

lemma settle {turns : Nat} (reached : (traffics layout phys).Reachable Prompt traffic)
    (flowing : Flowing layout phys traffic) :
    (traffics layout phys).Reachable Prompt ((Traffic.consume phys)^[turns] traffic) ∧
      Flowing layout phys ((Traffic.consume phys)^[turns] traffic) ∧
      ((Traffic.consume phys)^[turns] traffic).posted = traffic.posted := by
  induction turns generalizing traffic with
  | zero => exact ⟨reached, flowing, rfl⟩
  | succ turns ih =>
    have further : (traffics layout phys).Reachable Prompt (traffic.consume phys) :=
      .step reached (show Prompt traffic .consume from trivial) rfl
    have flows : Flowing layout phys (traffic.consume phys) :=
      @Flowing.turn _ _ _ flowing .consume trivial
    obtain ⟨last, still, posted⟩ := ih further flows
    refine ⟨last, still, posted.trans ?_⟩
    rcases flowing.consume with ⟨same, _⟩ | ⟨_, same, _⟩
    · rw [same]
    · exact same

lemma one_too_many (layout : Layout) (phys : Nat) :
    ∃ traffic, (traffics layout phys).Reachable Prompt traffic ∧
      traffic.posted.length = layout.limit + 1 ∧ ¬ Delivers phys traffic := by
  have posts : ∀ {traffic : Traffic}, (traffics layout phys).Reachable Prompt traffic →
      traffic.consumed = traffic.posted →
      (traffics layout phys).Reachable Prompt (traffic.post layout {}) := fun reached all =>
    .step reached (show Prompt _ (.post {} rfl) from all) rfl
  have filled : ∀ count, count ≤ layout.limit → ∃ traffic,
      (traffics layout phys).Reachable Prompt traffic ∧ Flowing layout phys traffic ∧
      traffic.posted.length = count ∧ traffic.consumed = traffic.posted := by
    intro count
    induction count with
    | zero => exact fun _ => ⟨_, .start rfl, flowing_start layout phys, rfl, rfl⟩
    | succ count ih =>
      intro room
      obtain ⟨traffic, reached, flowing, length, all⟩ := ih (by omega)
      have positive := layout.positive
      have flows := @Flowing.post _ _ _ {} flowing rfl (by omega) (by rw [all]; omega)
      obtain ⟨turns, same, _⟩ := flows.delivers
      obtain ⟨last, still, kept⟩ := @settle _ _ _ turns (posts reached all) flows
      refine ⟨_, last, still, ?_, same.trans kept.symm⟩
      rw [kept]
      simp [Traffic.post, length]
  obtain ⟨traffic, reached, flowing, length, all⟩ := filled layout.limit le_rfl
  have more : (traffic.post layout {}).posted.length = layout.limit + 1 := by
    simp [Traffic.post, length]
  exact ⟨_, posts reached all, more, (flowing.placed.post rfl).undelivered (by omega)⟩

theorem rings_stall :
    (∃ traffic, (traffics commandRing 0).Reachable Prompt traffic ∧
      traffic.posted.length = 65 ∧ ¬ Delivers 0 traffic) ∧
    ∃ traffic, (traffics transferRing 0).Reachable Prompt traffic ∧
      traffic.posted.length = 63 ∧ ¬ Delivers 0 traffic :=
  ⟨one_too_many commandRing 0, one_too_many transferRing 0⟩

end OsCortex.Xhci
