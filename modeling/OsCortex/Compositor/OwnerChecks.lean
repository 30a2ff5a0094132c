import OsCortex.Compositor.Effects

/-!
Who can change a surface. The ledger counts the surfaces ever created and keeps, for each slot, who
submitted the back buffer that waits in it.
-/

namespace OsCortex.Compositor

open List Option State

variable {state next : State} {caller : Caller} {index other : Fin maxSurfaces} {op : Op}
  {reply : Reply} {leader : UInt32}

structure Ledger where
  state : State := {}
  created : Nat := 0
  submitter : Fin maxSurfaces → Option Caller := fun _ => none

def Reply.creations : Reply → Nat
  | .created _ => 1
  | .ok | .err _ | .panic => 0

def Ledger.noted (ledger : Ledger) (caller : Caller) (op : Op) (reply : Reply) :
    Fin maxSurfaces → Option Caller :=
  match op, reply with
  | .submit id _ _ _, .ok => fun index =>
    if ledger.state.position id = some index then some caller else ledger.submitter index
  | _, _ => ledger.submitter

def Ledger.step (ledger : Ledger) : Step → Ledger
  | .op caller op =>
    let (next, reply) := ledger.state.perform caller op
    { state := next
      created := ledger.created + reply.creations
      submitter := ledger.noted caller op reply }
  | .render => { ledger with state := ledger.state.rendered }

def ledgers : Runs.Machine Ledger Step where
  start ledger := ledger = {}
  step ledger label := some (ledger.step label)

def UniqueIds (state : State) : Prop :=
  ∀ index other, (state.slots index).surface.inUse = true →
    (state.slots other).surface.inUse = true →
    (state.slots index).surface.id = (state.slots other).surface.id → index = other

def SubmittedByOwner (ledger : Ledger) (index : Fin maxSurfaces) : Prop :=
  ∃ caller, ledger.submitter index = some caller ∧ Allowed caller (ledger.state.slots index)

def Isolated (ledger : Ledger) (label : Step) : Prop :=
  let before := ledger.state.slots
  let after := (ledger.step label).state.slots
  match label with
  | .op caller _ => caller.pid ≠ 0 → ∀ index, (before index).surface.inUse = true →
      (before index).owner ≠ caller.leader → after index = before index
  | .render => ∀ index, after index = before index ∨
      (before index).backPending = true ∧ SubmittedByOwner ledger index ∧
        after index = (before index).promote

lemma effect_isolated (effect : Effect state caller op next reply) (process : caller.pid ≠ 0)
    (used : (state.slots index).surface.inUse)
    (foreign : (state.slots index).owner ≠ caller.leader) :
    next.slots index = state.slots index := by
  cases effect with
  | refused text => rfl
  | panicked _ _ _ => rfl
  | created slot width height asked sized few free =>
    refine setSlot_other fun same => ?_
    subst same
    exact absurd (used.symm.trans free) (by decide)
  | edited slot value found _ allowed edits =>
    refine setSlot_other fun same => ?_
    subst same
    rcases allowed with kernel | owner
    · exact process kernel
    · exact foreign owner

lemma edits_keep {before after : Slot} (edits : op.Edits before after) :
    after = {} ∨ after.surface.id = before.surface.id ∧
      after.surface.inUse = before.surface.inUse ∧ after.owner = before.owner ∧
      (after.backPending = before.backPending ∨
        ∃ id memory len rowBytes, op = .submit id memory len rowBytes) := by
  cases op with
  | create width height => exact edits.elim
  | destroy id => exact .inl edits
  | upload id memory len =>
    refine .inr ?_
    rcases upload_cases edits with ⟨_, _, _, same⟩ | ⟨_, _, _, same⟩ | ⟨_, _, _, never⟩
    iterate 2
      rw [some.inj same]
      exact ⟨rfl, rfl, rfl, .inl rfl⟩
    · cases never
  | submit id memory len rowBytes =>
    obtain ⟨_, _, _, same⟩ := submit_ok edits
    rw [some.inj same]
    exact .inr ⟨rfl, rfl, rfl, .inr ⟨id, memory, len, rowBytes, rfl⟩⟩
  | geometrySet id x y width height =>
    rw [edits.2]
    exact .inr ⟨rfl, rfl, rfl, .inl rfl⟩
  | move _ _ _ _ | zSet _ _ | visibilitySet _ _ | clipSet _ _ _ _ _ | damageSet _ _ _ _ _ | flip _
  | present _ =>
    rw [edits]
    exact .inr ⟨rfl, rfl, rfl, .inl rfl⟩

def Slot.ownedBy (slot : Slot) (leader : UInt32) : Bool :=
  slot.surface.inUse && slot.owner == leader

lemma ownedCount_le
    (older : ∀ index, (next.slots index).ownedBy leader → (state.slots index).ownedBy leader) :
    next.ownedCount leader ≤ state.ownedCount leader := by
  refine Sublist.length_le (monotone_filter_right _ ?_)
  exact older

lemma ownedCount_succ (index : Fin maxSurfaces)
    (older : ∀ other, other ≠ index → next.slots other = state.slots other) :
    next.ownedCount leader ≤ state.ownedCount leader + 1 := by
  have subset : (finRange maxSurfaces).filter (fun slot => (next.slots slot).ownedBy leader) ⊆
      index :: (finRange maxSurfaces).filter fun slot =>
        (state.slots slot).ownedBy leader := by
    intro other member
    obtain ⟨_, owned⟩ := mem_filter.1 member
    by_cases here : other = index
    · exact mem_cons.2 (.inl here)
    · rw [older other here] at owned
      exact mem_cons_of_mem _ (mem_filter.2 ⟨mem_finRange _, owned⟩)
  exact (subperm_of_subset ((nodup_finRange _).filter _) subset).length_le

structure Ledger.Kept (ledger : Ledger) : Prop where
  named : ledger.created < 2 ^ 32 → ∀ index, (ledger.state.slots index).surface.inUse = true →
    (ledger.state.slots index).surface.id.toNat ≤ ledger.created
  next : ledger.created + 1 < 2 ^ 32 → ledger.state.nextId.toNat = ledger.created + 1
  unique : ledger.created < 2 ^ 32 → UniqueIds ledger.state
  limit : ∀ leader, leader ≠ 0 → ledger.state.ownedCount leader ≤ maxSurfacesPerPid
  pending : ∀ index, (ledger.state.slots index).backPending = true →
    (ledger.state.slots index).surface.inUse = true ∧ SubmittedByOwner ledger index

variable {ledger : Ledger}

lemma noted_unless_submit
    (other : reply ≠ .ok ∨ ∀ id memory len rowBytes, op ≠ .submit id memory len rowBytes) :
    ledger.noted caller op reply = ledger.submitter := by
  cases op with
  | submit id memory len rowBytes =>
    cases reply with
    | ok =>
      have never := other.resolve_left fun differs => differs rfl
      exact absurd rfl (never id memory len rowBytes)
    | created _ | err _ | panic => rfl
  | create _ _ | destroy _ | upload _ _ _ | geometrySet _ _ _ _ _ | move _ _ _ _ | zSet _ _
  | visibilitySet _ _ | clipSet _ _ _ _ _ | damageSet _ _ _ _ _ | flip _ | present _ => rfl

lemma noted_other (found : op.target.bind ledger.state.position = some index)
    (away : other ≠ index) : ledger.noted caller op .ok other = ledger.submitter other := by
  by_cases submits : ∃ id memory len rowBytes, op = .submit id memory len rowBytes
  · obtain ⟨id, memory, len, rowBytes, rfl⟩ := submits
    have place : ledger.state.position id = some index := found
    simp [Ledger.noted, place, Ne.symm away]
  · rw [noted_unless_submit]
    exact .inr fun id memory len rowBytes same => submits ⟨id, memory, len, rowBytes, same⟩

lemma nextId_succ {id : UInt32} {count : Nat} (same : id.toNat = count)
    (room : count + 1 < 2 ^ 32) : (max (id + 1) 1).toNat = count + 1 := by
  have succ : (id + 1).toNat = count + 1 := by
    rw [UInt32.toNat_add, same]
    exact Nat.mod_eq_of_lt room
  show (if id + 1 ≤ 1 then 1 else id + 1).toNat = count + 1
  split
  · rename_i low
    rw [UInt32.le_iff_toNat_le, succ] at low
    have one : (1 : UInt32).toNat = 1 := rfl
    omega
  · exact succ

section

variable (kept : ledger.Kept)
include kept

lemma Ledger.Kept.create {width height : UInt32} (few : ownerLeader caller = 0 ∨
      ledger.state.ownedCount (ownerLeader caller) < maxSurfacesPerPid)
    (free : (ledger.state.slots index).surface.inUse = false) :
    Ledger.Kept
      { state :=
          { ledger.state.setSlot index (ledger.state.fresh caller index width height) with
            nextId := max (ledger.state.nextId + 1) 1 }
        created := ledger.created + 1
        submitter := ledger.submitter } where
  named short other used := by
    dsimp only at short used ⊢
    by_cases here : other = index
    · rw [here, setSlot_self]
      exact (kept.next short).le
    · rw [setSlot_other here] at used ⊢
      exact Nat.le_succ_of_le (kept.named (by omega) other used)
  next short := nextId_succ (kept.next (by dsimp only at short; omega)) short
  unique short := by
    have newest : ∀ other, other ≠ index → (ledger.state.slots other).surface.inUse →
        (ledger.state.slots other).surface.id ≠ ledger.state.nextId := by
      intro other away used same
      have old := kept.named (by dsimp only at short; omega) other used
      rw [same, kept.next short] at old
      omega
    intro one two usedOne usedTwo same
    by_cases first : one = index
    · by_cases second : two = index
      · rw [first, second]
      rw [first, setSlot_self, setSlot_other second] at same
      rw [setSlot_other second] at usedTwo
      exact absurd same.symm (newest two second usedTwo)
    rw [setSlot_other first] at usedOne same
    by_cases second : two = index
    · rw [second, setSlot_self] at same
      exact absurd same (newest one first usedOne)
    · rw [setSlot_other second] at usedTwo same
      exact kept.unique (by dsimp only at short; omega) one two usedOne usedTwo same
  limit leader group := by
    by_cases mine : leader = ownerLeader caller
    · subst mine
      have room := few.resolve_left group
      exact (ownedCount_succ index fun other away => setSlot_other away).trans room
    refine (ownedCount_le fun other owned => ?_).trans (kept.limit leader group)
    by_cases here : other = index
    · rw [here, setSlot_self] at owned
      simp only [Slot.ownedBy, fresh, Bool.true_and, beq_iff_eq] at owned
      exact absurd owned.symm mine
    · rwa [setSlot_other here] at owned
  pending other pending := by
    by_cases here : other = index
    · rw [here, setSlot_self] at pending
      have used := (kept.pending index pending).1
      exact absurd (used.symm.trans free) (by decide)
    rw [setSlot_other here] at pending
    obtain ⟨used, who, noted, allowed⟩ := kept.pending other pending
    dsimp only
    rw [setSlot_other here]
    refine ⟨used, who, noted, ?_⟩
    dsimp only
    rw [setSlot_other here]
    exact allowed

lemma Ledger.Kept.edit {slot : Slot} (found : op.target.bind ledger.state.position = some index)
    (used : (ledger.state.slots index).surface.inUse)
    (allowed : Allowed caller (ledger.state.slots index))
    (edits : op.Edits (ledger.state.slots index) slot) :
    Ledger.Kept
      { state := ledger.state.setSlot index slot
        created := ledger.created
        submitter := ledger.noted caller op .ok } := by
  have known := edits_keep edits
  have older : ∀ other, ((ledger.state.setSlot index slot).slots other).surface.inUse →
      (ledger.state.slots other).surface.inUse ∧
      ((ledger.state.setSlot index slot).slots other).surface.id =
        (ledger.state.slots other).surface.id ∧
      ((ledger.state.setSlot index slot).slots other).owner = (ledger.state.slots other).owner := by
    intro other stays
    by_cases here : other = index
    · subst here
      rw [setSlot_self] at stays ⊢
      rcases known with rfl | ⟨id, same, owner, _⟩
      · cases stays
      · exact ⟨same ▸ stays, id, owner⟩
    · rw [setSlot_other here] at stays ⊢
      exact ⟨stays, rfl, rfl⟩
  refine ⟨fun short other stays => ?_, kept.next, fun short one two usedOne usedTwo same => ?_,
    fun leader group => ?_, fun other pending => ?_⟩
  · obtain ⟨before, id, _⟩ := older other stays
    rw [id]
    exact kept.named short other before
  · obtain ⟨beforeOne, idOne, _⟩ := older one usedOne
    obtain ⟨beforeTwo, idTwo, _⟩ := older two usedTwo
    exact kept.unique short one two beforeOne beforeTwo (idOne.symm.trans (same.trans idTwo))
  · refine (ownedCount_le fun other owned => ?_).trans (kept.limit leader group)
    simp only [Slot.ownedBy, Bool.and_eq_true, beq_iff_eq] at owned ⊢
    obtain ⟨before, _, owner⟩ := older other owned.1
    exact ⟨before, owner ▸ owned.2⟩
  by_cases here : other = index
  · subst here
    rw [setSlot_self] at pending
    rcases known with rfl | ⟨_, same, owner, waits⟩
    · cases pending
    have stays : slot.surface.inUse := same.trans used
    have may : ∀ who, Allowed who (ledger.state.slots other) → Allowed who slot := by
      simp [Allowed, owner]
    by_cases submits : ∃ id memory len rowBytes, op = .submit id memory len rowBytes
    · obtain ⟨id, memory, len, rowBytes, rfl⟩ := submits
      have place : ledger.state.position id = some other := found
      refine ⟨by simpa [setSlot_self] using stays, caller, ?_, ?_⟩
      · simp [Ledger.noted, place]
      · simpa [setSlot_self] using may caller allowed
    have before := waits.resolve_right submits
    obtain ⟨_, who, noted, first⟩ := kept.pending other (before.symm.trans pending)
    refine ⟨by simpa [setSlot_self] using stays, who, ?_, ?_⟩
    · rw [← noted]
      refine congrFun (noted_unless_submit ?_) other
      exact .inr fun id memory len rowBytes same =>
        submits ⟨id, memory, len, rowBytes, same⟩
    · simpa [setSlot_self] using may who first
  rw [setSlot_other here] at pending
  obtain ⟨stays, who, noted, first⟩ := kept.pending other pending
  refine ⟨by simpa [setSlot_other here] using stays, who, ?_, ?_⟩
  · exact (noted_other found here).trans noted
  · simpa [setSlot_other here] using first

lemma Ledger.Kept.render : (ledger.step .render).Kept := by
  have same : ∀ index,
      ((ledger.step .render).state.slots index).surface = (ledger.state.slots index).surface ∧
      ((ledger.step .render).state.slots index).owner = (ledger.state.slots index).owner := by
    intro index
    simp only [Ledger.step, rendered, promote, Slot.promote]
    split <;> exact ⟨rfl, rfl⟩
  have surface := fun index => (same index).1
  refine ⟨fun short index used => ?_, kept.next, fun short one two usedOne usedTwo same => ?_,
    fun leader group => ?_, fun index pending => ?_⟩
  · rw [surface] at used ⊢
    exact kept.named short index used
  · rw [surface] at usedOne usedTwo
    rw [surface, surface] at same
    exact kept.unique short one two usedOne usedTwo same
  · refine (ownedCount_le fun index owned => ?_).trans (kept.limit leader group)
    rwa [Slot.ownedBy, surface, (same _).2] at owned
  simp only [Ledger.step, rendered, promote, Slot.promote] at pending
  split at pending
  · cases pending
  · rename_i waits
    exact absurd pending waits

lemma Ledger.Kept.step (label : Step) : (ledger.step label).Kept := by
  cases label with
  | render => exact kept.render
  | op caller op =>
    rw [Ledger.step]
    have effect := perform_effect ledger.state caller op
    generalize ledger.state.perform caller op = result at effect
    obtain ⟨_, _⟩ := result
    cases effect with
    | refused text =>
      dsimp only
      rw [@noted_unless_submit caller op (.err text) ledger (.inl nofun)]
      exact kept
    | panicked _ _ _ =>
      dsimp only
      rw [@noted_unless_submit caller op .panic ledger (.inl nofun)]
      exact kept
    | created index width height asked sized few free =>
      dsimp only
      rw [@noted_unless_submit caller op (.created _) ledger (.inl nofun)]
      exact kept.create few free
    | edited index slot found used allowed edits => exact kept.edit found used allowed edits

lemma Ledger.Kept.isolated (label : Step) : Isolated ledger label := by
  cases label with
  | op caller op =>
    intro process index used foreign
    exact effect_isolated (perform_effect ledger.state caller op) process used foreign
  | render =>
    intro index
    by_cases pending : (ledger.state.slots index).backPending
    · exact .inr ⟨pending, (kept.pending index pending).2, rfl⟩
    refine .inl ?_
    exact if_neg pending

end

theorem surfaces_owned {ledger : Ledger} (reached : ledgers.Reachable Runs.anyStep ledger)
    (few : ledger.created < 2 ^ 32) :
    UniqueIds ledger.state ∧
      (∀ leader, leader ≠ 0 → ledger.state.ownedCount leader ≤ maxSurfacesPerPid) ∧
      ∀ label, Isolated ledger label := by
  have kept : ledger.Kept := by
    refine reached.invariant ?_ ?_
    · rintro _ rfl
      refine ⟨fun _ _ used => (nomatch used), fun _ => rfl, fun _ _ _ used => (nomatch used),
        fun leader _ => ?_, fun _ pending => (nomatch pending)⟩
      simp [ownedCount]
    intro ledger label next kept _ taken
    cases taken
    exact kept.step label
  exact ⟨kept.unique few, kept.limit, kept.isolated⟩

theorem surfaces_owned_after_move : ∃ ledger, ledgers.Reachable Runs.anyStep ledger ∧
    ledger.created = 1 ∧ (ledger.state.slots ⟨0, by decide⟩).surface.x = 3 ∧
    UniqueIds ledger.state ∧
    ledger.state.ownedCount 5 ≤ maxSurfacesPerPid ∧
    Isolated ledger (.op ⟨7, 7⟩ (.destroy 1)) := by
  have created : ledgers.Reachable Runs.anyStep (({} : Ledger).step (.op ⟨5, 5⟩ (.create 1 1))) :=
    .step (.start rfl) trivial rfl
  have moved : ledgers.Reachable Runs.anyStep
      ((({} : Ledger).step (.op ⟨5, 5⟩ (.create 1 1))).step (.op ⟨6, 5⟩ (.move 1 3 4 5))) :=
    .step created trivial rfl
  obtain ⟨unique, limit, isolated⟩ := surfaces_owned moved (by decide)
  exact ⟨_, moved, by decide, by decide, unique, limit 5 (by decide), isolated _⟩

end OsCortex.Compositor
