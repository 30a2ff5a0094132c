import Mathlib

/-!
Lock words and who they are locked for. Beside each word stands the thread it was taken for, and the
threads that have been told so since the word was last given back.
-/

namespace Ownership

structure Ledger (Key Thread : Type) where
  word : Key → BitVec 32
  locker : Key → Option Thread
  returned : Key → List Thread

namespace Ledger

variable {Key Thread : Type}

section Operations

variable [DecidableEq Key]

def take (ledger : Ledger Key Thread) (key : Key) (thread : Thread) : Ledger Key Thread :=
  { ledger with
    word := Function.update ledger.word key 1
    locker := Function.update ledger.locker key (some thread) }

def giveBack (ledger : Ledger Key Thread) (key : Key) : Ledger Key Thread where
  word := Function.update ledger.word key 0
  locker := Function.update ledger.locker key none
  returned := Function.update ledger.returned key []

def write (ledger : Ledger Key Thread) (key : Key) (value : BitVec 32) : Ledger Key Thread :=
  { ledger with word := Function.update ledger.word key value }

def tell (ledger : Ledger Key Thread) (key : Key) (thread : Thread) : Ledger Key Thread :=
  { ledger with returned := Function.update ledger.returned key (ledger.returned key ++ [thread]) }

end Operations

structure Exclusive (ledger : Ledger Key Thread) : Prop where
  owned : ∀ key, ∀ thread ∈ ledger.returned key,
    ledger.locker key = some thread ∧ ledger.word key ≠ 0
  single : ∀ key, (ledger.returned key).length ≤ 1

structure Sound (ledger : Ledger Key Thread) : Prop where
  taken : ∀ key thread, ledger.locker key = some thread → ledger.word key ≠ 0
  told : ∀ key, ledger.returned key = [] ∨
    ∃ thread, ledger.returned key = [thread] ∧ ledger.locker key = some thread

def Granted (ledger : Ledger Key Thread) (key : Key) (thread : Thread) : Prop :=
  ledger.locker key = some thread ∧ ledger.returned key = []

def Harmless (ledger : Ledger Key Thread) (key : Key) (value : BitVec 32) : Prop :=
  ledger.locker key = none ∨ value ≠ 0

instance (ledger : Ledger Key Thread) (key : Key) (value : BitVec 32) [DecidableEq Thread] :
    Decidable (ledger.Harmless key value) :=
  inferInstanceAs (Decidable (_ ∨ _))

variable {ledger : Ledger Key Thread} {key other : Key} {thread waiter : Thread}

variable [DecidableEq Key]

section

variable (sound : ledger.Sound)
include sound

lemma Sound.exclusive : ledger.Exclusive := by
  constructor
  · intro key thread member
    rcases sound.told key with none_ | ⟨owner, only, owns⟩
    · rw [none_] at member
      cases member
    rw [only, List.mem_singleton] at member
    subst member
    exact ⟨owns, sound.taken key thread owns⟩
  intro key
  rcases sound.told key with none_ | ⟨owner, only, owns⟩
  · simp [none_]
  · simp [only]

lemma Sound.free (zero : ledger.word key = 0) :
    ledger.locker key = none ∧ ledger.returned key = [] := by
  have unlocked : ledger.locker key = none := by
    cases locked : ledger.locker key with
    | none => rfl
    | some thread => exact absurd zero (sound.taken key thread locked)
  rcases sound.told key with none_ | ⟨_, _, owns⟩
  · exact ⟨unlocked, none_⟩
  · rw [unlocked] at owns
    cases owns

lemma Sound.take (zero : ledger.word key = 0) (thread : Thread) :
    (ledger.take key thread).Sound := by
  obtain ⟨-, untold⟩ := sound.free zero
  constructor
  · intro other owner
    by_cases same : other = key
    · subst same
      simp [Ledger.take]
    · simpa [Ledger.take, same] using sound.taken other owner
  intro other
  by_cases same : other = key
  · subst same
    exact .inl untold
  · simpa [Ledger.take, same] using sound.told other

lemma Sound.giveBack (key : Key) : (ledger.giveBack key).Sound := by
  constructor
  · intro other owner
    by_cases same : other = key
    · subst same
      simp [Ledger.giveBack]
    · simpa [Ledger.giveBack, same] using sound.taken other owner
  intro other
  by_cases same : other = key
  · subst same
    simp [Ledger.giveBack]
  · simpa [Ledger.giveBack, same] using sound.told other

lemma Sound.write {value : BitVec 32}
    (harmless : ledger.Harmless key value) : (ledger.write key value).Sound := by
  refine ⟨fun other owner locked => ?_, sound.told⟩
  by_cases same : other = key
  · subst same
    simp only [Ledger.write, Function.update_self]
    rcases harmless with free | nonzero
    · rw [show ledger.locker other = some owner from locked] at free
      cases free
    · exact nonzero
  · simpa [Ledger.write, same] using sound.taken other owner locked

lemma Sound.tell (granted : ledger.Granted key thread) :
    (ledger.tell key thread).Sound := by
  refine ⟨sound.taken, fun other => ?_⟩
  by_cases same : other = key
  · subst same
    exact .inr ⟨thread, by simp [Ledger.tell, granted.2], granted.1⟩
  · simpa [Ledger.tell, same] using sound.told other

end

lemma granted_take (zero : ledger.word key = 0) (sound : ledger.Sound) :
    (ledger.take key thread).Granted key thread :=
  ⟨by simp [Ledger.take], (sound.free zero).2⟩

lemma Granted.take (granted : ledger.Granted other waiter) (sound : ledger.Sound)
    (zero : ledger.word key = 0) : (ledger.take key thread).Granted other waiter := by
  have different : other ≠ key := by
    rintro rfl
    exact sound.taken other waiter granted.1 zero
  exact ⟨by simpa [Ledger.take, different] using granted.1, granted.2⟩

lemma Granted.giveBack (granted : ledger.Granted other waiter)
    (owned : ledger.locker key = some thread) (different : waiter ≠ thread) :
    (ledger.giveBack key).Granted other waiter := by
  have apart : other ≠ key := by
    rintro rfl
    exact different (Option.some.inj (granted.1.symm.trans owned))
  exact ⟨by simpa [Ledger.giveBack, apart] using granted.1,
    by simpa [Ledger.giveBack, apart] using granted.2⟩

lemma Granted.tell (granted : ledger.Granted other waiter) (own : ledger.Granted key thread)
    (different : waiter ≠ thread) : (ledger.tell key thread).Granted other waiter := by
  have apart : other ≠ key := by
    rintro rfl
    exact different (Option.some.inj (granted.1.symm.trans own.1))
  exact ⟨granted.1, by simpa [Ledger.tell, apart] using granted.2⟩

end Ledger

end Ownership
