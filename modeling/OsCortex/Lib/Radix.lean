import Mathlib

/-!
Radix trees stored as tables of entries in a flat memory. A path is the list of indices taken from a
root; `widths` bounds the index at each level.
-/

namespace Radix

open List Option

variable {E : Type}

abbrev Store (E : Type) := Nat → Nat → E

def Store.write (store : Store E) (table index : Nat) (entry : E) : Store E :=
  fun t i => if t = table ∧ i = index then entry else store t i

def Store.fill (store : Store E) (table : Nat) (entries : Nat → E) : Store E :=
  fun t => if t = table then entries else store t

lemma Store.fill_fill (store : Store E) (table : Nat) (first second : Nat → E) :
    (store.fill table first).fill table second = store.fill table second := by
  funext t
  by_cases here : t = table <;> simp [Store.fill, here]

variable (next : E → Option Nat)

def descend (store : Store E) : Nat → List Nat → Option Nat
  | table, [] => some table
  | table, index :: path =>
    match next (store table index) with
    | some child => descend store child path
    | none => none

def Within : List Nat → List Nat → Prop
  | _, [] => True
  | [], _ :: _ => False
  | width :: widths, index :: path => index < width ∧ Within widths path

variable {next} {other : Store E}

lemma Within.left {widths path rest : List Nat} (within : Within widths (path ++ rest)) :
    Within widths path := by
  induction path generalizing widths with
  | nil => cases widths <;> trivial
  | cons index path ih =>
    cases widths with
    | nil => exact within.elim
    | cons width widths => exact ⟨within.1, ih within.2⟩

lemma Within.inner {widths path rest : List Nat} {last index : Nat}
    (within : Within (widths ++ [last]) (path ++ index :: rest)) : Within widths path := by
  induction path generalizing widths with
  | nil => cases widths <;> trivial
  | cons first path ih =>
    cases widths with
    | nil =>
      cases path with
      | nil | cons => exact within.2.elim
    | cons width widths => exact ⟨within.1, ih within.2⟩

lemma Within.extend {widths path : List Nat} (within : Within widths path) (more : List Nat) :
    Within (widths ++ more) path := by
  induction path generalizing widths with
  | nil => cases widths <;> cases more <;> trivial
  | cons index path ih =>
    cases widths with
    | nil => exact within.elim
    | cons width widths => exact ⟨within.1, ih within.2⟩

lemma Within.restrict {widths more path : List Nat} (within : Within (widths ++ more) path)
    (short : path.length ≤ widths.length) : Within widths path := by
  induction path generalizing widths with
  | nil => cases widths <;> trivial
  | cons index path ih =>
    cases widths with
    | nil => cases short
    | cons width widths => exact ⟨within.1, ih within.2 (Nat.le_of_succ_le_succ short)⟩

lemma Within.length_le {widths path : List Nat} (within : Within widths path) :
    path.length ≤ widths.length := by
  induction path generalizing widths with
  | nil => exact Nat.zero_le _
  | cons index path ih =>
    cases widths with
    | nil => exact within.elim
    | cons width widths => exact Nat.succ_le_succ (ih within.2)

lemma descend_append (store : Store E) (root : Nat) (path rest : List Nat) :
    descend next store root (path ++ rest) =
      (descend next store root path).bind fun table => descend next store table rest := by
  induction path generalizing root with
  | nil => rfl
  | cons index path ih =>
    simp only [cons_append, descend]
    split
    · exact ih _
    · rfl

lemma descend_concat (store : Store E) (root : Nat) (path : List Nat) (index : Nat) :
    descend next store root (path ++ [index]) =
      (descend next store root path).bind fun table => next (store table index) := by
  rw [descend_append]
  congr 1
  funext table
  simp only [descend]
  split
  · rename_i found
    exact found.symm
  · rename_i missing
    exact missing.symm

lemma descend_congr {store : Store E} {root : Nat} {path : List Nat}
    (agree : ∀ before index after, path = before ++ index :: after →
      ∀ table, descend next store root before = some table →
        other table index = store table index) :
    descend next other root path = descend next store root path := by
  induction path generalizing root with
  | nil => rfl
  | cons index path ih =>
    have here : other root index = store root index := agree [] index path rfl root rfl
    simp only [descend, here]
    split
    · rename_i found
      refine ih ?_
      intro before later after split table reached
      refine agree (index :: before) later after (by rw [split]; rfl) table ?_
      simp only [descend, found]
      exact reached
    · rfl

lemma descend_fill {store : Store E} {table : Nat} {entries : Nat → E} {root : Nat}
    {path : List Nat}
    (unvisited : ∀ before index after, path = before ++ index :: after →
      descend next store root before ≠ some table) :
    descend next (store.fill table entries) root path = descend next store root path := by
  refine descend_congr ?_
  intro before index after split reached found
  have different : reached ≠ table := by
    rintro rfl
    exact unvisited before index after split found
  simp [Store.fill, different]

lemma descend_write_empty {store : Store E} {table index root found : Nat} {path : List Nat}
    {entry : E} (empty : next (store table index) = none)
    (reached : descend next store root path = some found) :
    descend next (store.write table index entry) root path = some found := by
  rw [descend_congr, reached]
  intro before later after split visited here
  have different : ¬ (visited = table ∧ later = index) := by
    rintro ⟨rfl, rfl⟩
    rw [split, descend_append, here] at reached
    simp [descend, empty] at reached
  simp [Store.write, different]

lemma descend_write_cases {store : Store E} {table index root found : Nat} {path : List Nat}
    {entry : E} (reached : descend next (store.write table index entry) root path = some found) :
    descend next store root path = some found ∨
      ∃ before rest child, path = before ++ index :: rest ∧
        descend next store root before = some table ∧ next entry = some child ∧
        descend next (store.write table index entry) child rest = some found := by
  induction path generalizing root with
  | nil => exact .inl reached
  | cons first path ih =>
    simp only [descend] at reached
    split at reached
    · rename_i child linked
      by_cases here : root = table ∧ first = index
      · obtain ⟨rfl, rfl⟩ := here
        refine .inr ⟨[], path, child, rfl, rfl, ?_, reached⟩
        rwa [Store.write, if_pos ⟨rfl, rfl⟩] at linked
      rw [Store.write, if_neg here] at linked
      have down : ∀ rest, descend next store root (first :: rest) =
          descend next store child rest := by
        simp [descend, linked]
      rcases ih reached with before | ⟨before, rest, last, split, visited, isLast, later⟩
      · exact .inl ((down path).trans before)
      · exact .inr ⟨first :: before, rest, last, by rw [split]; rfl,
          (down before).trans visited, isLast, later⟩
    · cases reached

/-- Two paths within the widths, from roots of the forest, never meet in a table. -/
def Separate (next : E → Option Nat) (store : Store E) (roots : Nat → Prop)
    (widths : List Nat) : Prop :=
  ∀ root root' path path' table, roots root → roots root' →
    Within widths path → Within widths path' →
    descend next store root path = some table → descend next store root' path' = some table →
    root = root' ∧ path = path'

section Write

variable {store : Store E} {roots : Nat → Prop} {widths : List Nat}
  {root table index : Nat} {path : List Nat} {entry : E}

section

variable (separate : Separate next store roots widths) {root' : Nat} {path' : List Nat}
include separate

lemma Separate.congr (same : ∀ root path, roots root → Within widths path →
    descend next other root path = descend next store root path) :
    Separate next other roots widths := by
  intro root₁ root₂ path₁ path₂ shared isRoot₁ isRoot₂ within₁ within₂ reached₁ reached₂
  rw [same root₁ path₁ isRoot₁ within₁] at reached₁
  rw [same root₂ path₂ isRoot₂ within₂] at reached₂
  exact separate root₁ root₂ path₁ path₂ shared isRoot₁ isRoot₂ within₁ within₂ reached₁ reached₂

lemma Separate.write_other (isRoot : roots root) (within : Within widths path)
    (here : descend next store root path = some table) (isRoot' : roots root')
    (inner : ∀ before later after, path' = before ++ later :: after → Within widths before)
    (apart : ¬ (root' = root ∧ path ++ [index] <+: path')) :
    descend next (store.write table index entry) root' path' = descend next store root' path' := by
  refine descend_congr ?_
  intro before later after split reached found
  have different : ¬ (reached = table ∧ later = index) := by
    rintro ⟨rfl, rfl⟩
    obtain ⟨rfl, rfl⟩ := separate root' root before path reached isRoot' isRoot
      (inner before later after split) within found here
    refine apart ⟨rfl, after, ?_⟩
    rw [split, append_assoc]
    rfl
  simp [Store.write, different]

lemma Separate.write_here (isRoot : roots root) (within : Within widths path)
    (here : descend next store root path = some table) (rest : List Nat) :
    descend next (store.write table index entry) root (path ++ index :: rest) =
      match next entry with
      | some child => descend next (store.write table index entry) child rest
      | none => none := by
  have kept : descend next (store.write table index entry) root path = some table := by
    rw [separate.write_other isRoot within here isRoot]
    · exact here
    · intro before later after split
      exact Within.left (split ▸ within)
    rintro ⟨_, longer⟩
    have := longer.length_le
    rw [length_append, length_singleton] at this
    omega
  rw [descend_append, kept]
  simp [descend, Store.write]

lemma Separate.descend_write (isRoot : roots root) (within : Within widths path)
    (here : descend next store root path = some table) (isRoot' : roots root')
    (inner : ∀ before later after, path' = before ++ later :: after → Within widths before)
    (bare : ∀ rest, rest ≠ [] → path' = path ++ index :: rest →
      descend next store root path' = none ∧ ∀ child, next entry = some child →
        descend next (store.write table index entry) child rest = none) :
    descend next (store.write table index entry) root' path' =
      if root' = root ∧ path' = path ++ [index] then next entry
      else descend next store root' path' := by
  by_cases through : root' = root ∧ path ++ [index] <+: path'
  · obtain ⟨rfl, rest, split⟩ := through
    rw [append_assoc, singleton_append] at split
    subst split
    rw [separate.write_here isRoot' within here rest]
    cases rest with
    | nil =>
      rw [if_pos ⟨rfl, rfl⟩]
      cases next entry <;> rfl
    | cons first rest =>
      obtain ⟨old, new⟩ := bare (first :: rest) (cons_ne_nil _ _) rfl
      rw [if_neg (by simp), old]
      cases linked : next entry with
      | none => rfl
      | some child => exact new child linked
  rw [separate.write_other isRoot within here isRoot' inner through, if_neg]
  rintro ⟨sameRoot, rfl⟩
  exact through ⟨sameRoot, prefix_rfl⟩

lemma Separate.descend_link (isRoot : roots root) (within : Within widths path)
    (here : descend next store root path = some table) {found : Nat}
    (empty : next (store table index) = none) (linked : next entry = some found)
    (different : found ≠ table) (bare : ∀ slot, next (store found slot) = none)
    (isRoot' : roots root')
    (inner : ∀ before later after, path' = before ++ later :: after → Within widths before) :
    descend next (store.write table index entry) root' path' =
      if root' = root ∧ path' = path ++ [index] then some found
      else descend next store root' path' := by
  rw [← linked]
  refine separate.descend_write isRoot within here isRoot' inner fun rest nonempty split =>
    ⟨?_, fun child isChild => ?_⟩
  · simp [split, descend_append, here, descend, empty]
  obtain rfl : found = child := some.inj (linked.symm.trans isChild)
  cases rest with
  | nil => exact absurd rfl nonempty
  | cons first rest => simp [descend, Store.write, different, bare]

lemma Separate.link (root : Nat) (path : List Nat) (index found : Nat)
    (reach : ∀ root' path', roots root' → Within widths path' → descend next other root' path' =
      if root' = root ∧ path' = path ++ [index] then some found else descend next store root' path')
    (new : ∀ root' path', roots root' → Within widths path' →
      descend next store root' path' ≠ some found) :
    Separate next other roots widths := by
  intro root₁ root₂ path₁ path₂ shared isRoot₁ isRoot₂ within₁ within₂ reached₁ reached₂
  rw [reach root₁ path₁ isRoot₁ within₁] at reached₁
  rw [reach root₂ path₂ isRoot₂ within₂] at reached₂
  split at reached₁ <;> split at reached₂
  · rename_i here₁ here₂
    exact ⟨here₁.1.trans here₂.1.symm, here₁.2.trans here₂.2.symm⟩
  · exact absurd (reached₂.trans reached₁.symm) (new root₂ path₂ isRoot₂ within₂)
  · exact absurd (reached₁.trans reached₂.symm) (new root₁ path₁ isRoot₁ within₁)
  · exact separate root₁ root₂ path₁ path₂ shared isRoot₁ isRoot₂ within₁ within₂ reached₁ reached₂

end

end Write

def collect (next : E → Option Nat) (store : Store E) : List Nat → Nat → List Nat
  | [], table => [table]
  | width :: widths, table =>
    (List.range width).flatMap (fun index =>
      match next (store table index) with
      | some child => collect next store widths child
      | none => []) ++ [table]

lemma mem_collect {store : Store E} {widths : List Nat} {table found : Nat} :
    found ∈ collect next store widths table ↔
      ∃ path, Within widths path ∧ descend next store table path = some found := by
  induction widths generalizing table with
  | nil =>
    simp only [collect, mem_singleton]
    constructor
    · rintro rfl
      exact ⟨[], trivial, rfl⟩
    rintro ⟨path, within, reached⟩
    cases path with
    | nil => exact (some.inj reached).symm
    | cons => exact within.elim
  | cons width widths ih =>
    simp only [collect, mem_append, mem_flatMap, mem_range, mem_singleton]
    constructor
    · rintro (⟨index, bound, below⟩ | rfl)
      · split at below
        · rename_i entry
          obtain ⟨path, within, reached⟩ := ih.mp below
          refine ⟨index :: path, ⟨bound, within⟩, ?_⟩
          simp only [descend, entry]
          exact reached
        · simp at below
      · exact ⟨[], trivial, rfl⟩
    rintro ⟨path, within, reached⟩
    cases path with
    | nil => exact .inr (some.inj reached).symm
    | cons index path =>
      refine .inl ⟨index, within.1, ?_⟩
      simp only [descend] at reached
      split at reached
      · exact ih.mpr ⟨path, within.2, reached⟩
      · cases reached

lemma nodup_collect {store : Store E} {widths : List Nat} {table : Nat}
    (distinct : ∀ path path' found, Within widths path → Within widths path' →
      descend next store table path = some found → descend next store table path' = some found →
      path = path') :
    (collect next store widths table).Nodup := by
  induction widths generalizing table with
  | nil => exact nodup_singleton table
  | cons width widths ih =>
    have below : ∀ index found, index < width →
        (found ∈ match next (store table index) with
          | some child => collect next store widths child
          | none => []) →
        ∃ path, Within (width :: widths) (index :: path) ∧
          descend next store table (index :: path) = some found := by
      intro index found bound member
      split at member
      · rename_i child entry
        obtain ⟨path, within, reached⟩ := mem_collect.mp member
        refine ⟨path, ⟨bound, within⟩, ?_⟩
        simp only [descend, entry]
        exact reached
      · simp at member
    refine nodup_append.mpr ⟨?_, nodup_singleton table, ?_⟩
    · refine nodup_flatMap.mpr ⟨?_, ?_⟩
      · intro index member
        split
        · rename_i child entry
          refine ih fun path path' found within within' reached reached' => ?_
          have same := distinct (index :: path) (index :: path') found
            ⟨mem_range.mp member, within⟩ ⟨mem_range.mp member, within'⟩
            (by simp only [descend, entry]; exact reached)
            (by simp only [descend, entry]; exact reached')
          exact (cons.inj same).2
        · exact nodup_nil
      refine Pairwise.imp_of_mem ?_ (nodup_range (n := width))
      intro index index' member member' different found inFirst inSecond
      obtain ⟨path, within, reached⟩ := below index found (mem_range.mp member) inFirst
      obtain ⟨path', within', reached'⟩ := below index' found (mem_range.mp member') inSecond
      exact different (cons.inj (distinct _ _ found within within' reached reached')).1
    intro found inChildren other atRoot same
    rw [mem_singleton] at atRoot
    subst atRoot
    subst same
    obtain ⟨index, member, inside⟩ := mem_flatMap.mp inChildren
    obtain ⟨path, within, reached⟩ := below index _ (mem_range.mp member) inside
    have impossible := distinct [] (index :: path) _ trivial within rfl reached
    cases impossible

structure Census (next : E → Option Nat) (store : Store E) (root : Nat) (widths held : List Nat) :
    Prop where
  separate : Separate next store (· = root) widths
  listed : ∀ found, found ∈ held ↔
    ∃ path, Within widths path ∧ descend next store root path = some found
  once : held.Nodup

section Census

variable {store : Store E} {root : Nat} {widths held : List Nat}

lemma Census.perm (census : Census next store root widths held) :
    (collect next store widths root).Perm held := by
  refine (perm_ext_iff_of_nodup (nodup_collect ?_) census.once).2 fun found => ?_
  · intro path path' found within within' reached reached'
    exact (census.separate root root path path' found rfl rfl within within' reached reached').2
  · rw [mem_collect, census.listed]

lemma Census.mem (census : Census next store root widths held) {path : List Nat} {found : Nat}
    (within : Within widths path) (reached : descend next store root path = some found) :
    found ∈ held :=
  (census.listed found).2 ⟨path, within, reached⟩

lemma census_root (bare : ∀ index, next (store root index) = none) :
    Census next store root widths [root] := by
  have only : ∀ {path found}, descend next store root path = some found →
      path = [] ∧ found = root := by
    intro path found reached
    cases path with
    | nil => exact ⟨rfl, (some.inj reached).symm⟩
    | cons index path => simp [descend, bare] at reached
  refine ⟨?_, fun found => ?_, nodup_singleton root⟩
  · rintro _ _ path _ _ rfl rfl _ _ reached reached'
    exact ⟨rfl, (only reached).1.trans (only reached').1.symm⟩
  rw [mem_singleton]
  constructor
  · rintro rfl
    exact ⟨[], by cases widths <;> trivial, rfl⟩
  · rintro ⟨path, _, reached⟩
    exact (only reached).2

section

variable (census : Census next store root widths held)
include census

lemma Census.transport (same : ∀ path, Within widths path →
      descend next other root path = descend next store root path) :
    Census next other root widths held := by
  refine ⟨census.separate.congr ?_, fun found => ?_, census.once⟩
  · rintro _ path rfl within
    exact same path within
  rw [census.listed]
  refine exists_congr fun path => and_congr_right fun within => ?_
  rw [same path within]

lemma Census.descend_congr
    (agree : ∀ table ∈ held, other table = store table) {path : List Nat}
    (within : Within widths path) :
    descend next other root path = descend next store root path := by
  refine Radix.descend_congr fun before index after split table reached => ?_
  rw [agree table (census.mem (Within.left (split ▸ within)) reached)]

lemma Census.congr
    (agree : ∀ table ∈ held, other table = store table) : Census next other root widths held :=
  census.transport fun _ within => census.descend_congr agree within

end

lemma descend_write_same {table index : Nat} {entry : E}
    (same : next entry = next (store table index)) (start : Nat) (path : List Nat) :
    descend next (store.write table index entry) start path = descend next store start path := by
  induction path generalizing start with
  | nil => rfl
  | cons first path ih =>
    have here : next (store.write table index entry start first) = next (store start first) := by
      simp only [Store.write]
      split
      · rename_i written
        rw [same, written.1, written.2]
      · rfl
    simp [descend, here, ih]

section Slot

variable {path : List Nat} {table index found : Nat} {entry : E}

section

variable (census : Census next store root widths held)
include census

section

variable (within : Within widths (path ++ [index]))
include within

section

variable (here : descend next store root path = some table) {other : List Nat}
include here

lemma Census.descend_leaf (deep : widths.length = path.length + 1) (entry : E)
    (within' : Within widths other) :
    descend next (store.write table index entry) root other =
      if other = path ++ [index] then next entry else descend next store root other := by
  rw [census.separate.descend_write rfl (Within.left within) here rfl]
  · simp
  · exact fun before later after split => Within.left (split ▸ within')
  intro rest nonempty split
  have short := within'.length_le
  have more := length_pos_of_ne_nil nonempty
  simp only [split, length_append, length_cons] at short
  omega

lemma Census.descend_link
    (empty : next (store table index) = none) (linked : next entry = some found)
    (new : found ∉ held)
    (ends : widths.length = path.length + 1 ∨ ∀ slot, next (store found slot) = none)
    (within' : Within widths other) :
    descend next (store.write table index entry) root other =
      if other = path ++ [index] then some found else descend next store root other := by
  rcases ends with deep | bare
  · rw [census.descend_leaf within here deep entry within', linked]
  have different : found ≠ table := by
    rintro rfl
    exact new (census.mem (Within.left within) here)
  rw [census.separate.descend_link rfl (Within.left within) here empty linked different bare rfl
    fun before later after split => Within.left (split ▸ within')]
  simp

lemma Census.link (empty : next (store table index) = none) (linked : next entry = some found)
    (new : found ∉ held)
    (ends : widths.length = path.length + 1 ∨ ∀ slot, next (store found slot) = none) :
    Census next (store.write table index entry) root widths (found :: held) := by
  have reach := fun {other} (within' : Within widths other) =>
    census.descend_link within here empty linked new ends within'
  have separate : Separate next (store.write table index entry) (· = root) widths := by
    refine census.separate.link root path index found ?_ ?_
    · rintro _ other rfl within'
      simpa using reach within'
    · rintro _ other rfl within' reached
      exact new (census.mem within' reached)
  refine ⟨separate, fun member => ?_, nodup_cons.2 ⟨new, census.once⟩⟩
  rw [mem_cons, census.listed]
  constructor
  · rintro (rfl | ⟨other, within', reached⟩)
    · exact ⟨path ++ [index], within, by rw [reach within, if_pos rfl]⟩
    refine ⟨other, within', ?_⟩
    rw [reach within', if_neg, reached]
    rintro rfl
    simp [descend_append, here, descend, empty] at reached
  rintro ⟨other, within', reached⟩
  rw [reach within'] at reached
  split at reached
  · exact .inl (some.inj reached).symm
  · exact .inr ⟨other, within', reached⟩

lemma Census.unlink
    (deep : widths.length = path.length + 1) (leads : next (store table index) = some found)
    (cleared : next entry = none) :
    Census next (store.write table index entry) root widths (held.erase found) := by
  have reach : ∀ {other}, Within widths other →
      descend next (store.write table index entry) root other =
        if other = path ++ [index] then none else descend next store root other := by
    intro other within'
    rw [census.descend_leaf within here deep entry within', cleared]
  have old : descend next store root (path ++ [index]) = some found := by
    rw [descend_concat, here]
    exact leads
  refine ⟨?_, fun member => ?_, census.once.erase found⟩
  · rintro _ _ first second shared rfl rfl within₁ within₂ reached₁ reached₂
    rw [reach within₁] at reached₁
    rw [reach within₂] at reached₂
    split at reached₁
    · cases reached₁
    split at reached₂
    · cases reached₂
    · exact census.separate _ _ first second shared rfl rfl within₁ within₂ reached₁ reached₂
  rw [census.once.mem_erase_iff, census.listed]
  constructor
  · rintro ⟨different, other, within', reached⟩
    refine ⟨other, within', ?_⟩
    rw [reach within', if_neg, reached]
    rintro rfl
    exact different (some.inj (reached.symm.trans old))
  rintro ⟨other, within', reached⟩
  rw [reach within'] at reached
  split at reached
  · cases reached
  rename_i elsewhere
  refine ⟨?_, other, within', reached⟩
  rintro rfl
  exact elsewhere (census.separate _ _ _ _ _ rfl rfl within' within reached old).2

end

end

end

end Slot

end Census

end Radix
