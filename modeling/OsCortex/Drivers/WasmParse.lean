import OsCortex.Drivers.WasmDecode

/-!
What `WasmSandbox::new` keeps of a module that it accepts.
-/

namespace OsCortex.WasmSandbox

open List Wasm Nat

namespace Parser

variable {Value Next : Type} {bytes item rest : List UInt8} {pos : Nat}

def Yields (parser : Parser Value) (pos : Nat) (post : Nat → Value → Prop) : Prop :=
  ∀ after value, parser pos = some (after, .ok value) → post after value

variable {parser : Parser Value}

lemma yields_bind {next : Value → Parser Next} {post : Nat → Next → Prop}
    (first : Yields parser pos fun after value => Yields (next value) after post) :
    Yields (parser >>= next) pos post := by
  intro final result done
  change (parser pos).andThen (fun pos value => next value pos) = _ at done
  match read : parser pos with
  | none => simp [read, Outcome.andThen] at done
  | some (after, .error error) => simp [read, Outcome.andThen, Outcome.fail] at done
  | some (after, .ok value) =>
    rw [read] at done
    exact first after value read final result done

lemma yields_ok {after : Nat} {value : Value}
    {post : Nat → Value → Prop} (read : parser pos = .ok after value) (holds : post after value) :
    Yields parser pos post := by
  intro final result done
  rw [read] at done
  cases done
  exact holds

lemma yields_throw {error : WasmError} {post : Nat → Value → Prop} :
    Yields (throw error) pos post := by
  intro final result done
  cases done

lemma Yields.mono {post weaker : Nat → Value → Prop} (yields : Yields parser pos post)
    (implies : ∀ after value, post after value → weaker after value) : Yields parser pos weaker :=
  fun after value done => implies after value (yields after value done)

structure At (bytes : List UInt8) (pos : Nat) (rest : List UInt8) : Prop where
  drop : bytes.drop pos = rest
  length : pos + rest.length = bytes.length

lemma At.next (here : At bytes pos (item ++ rest)) : At bytes (pos + item.length) rest where
  drop := by rw [← drop_drop, here.drop, drop_left]
  length := by rw [← here.length, length_append, add_assoc]

lemma At.tail {byte : UInt8} (here : At bytes pos (byte :: rest)) : At bytes (pos + 1) rest :=
  At.next (show At bytes pos ([byte] ++ rest) from here)

lemma At.assoc {second : List UInt8} (here : At bytes pos ((item ++ second) ++ rest)) :
    At bytes pos (item ++ (second ++ rest)) := by
  rwa [append_assoc] at here

lemma yields_uleb {value : Nat} (number : Leb128.Unsigned 32 item value)
    (here : At bytes pos (item ++ rest)) {post : Nat → Nat → Prop}
    (holds : post (pos + item.length) value) : Yields (uleb bytes) pos post := by
  refine yields_ok ?_ holds
  simp [uleb, here.drop, ulebRaw_encoded number]

lemma yields_rb {byte : UInt8} (here : At bytes pos (byte :: rest))
    {post : Nat → UInt8 → Prop} (holds : post (pos + 1) byte) : Yields (rb bytes) pos post := by
  refine yields_ok ?_ holds
  have found : bytes[pos]? = some byte := by
    rw [← add_zero pos, ← getElem?_drop, here.drop]
    rfl
  simp [rb, found]

lemma yields_times {Item State : Type} {Encodes : Item → List UInt8 → Prop}
    (Inv : List Item → State → Prop) {body : State → Parser State}
    (each : ∀ {read item encoded rest pos state}, Encodes item encoded →
      At bytes pos (encoded ++ rest) → Inv read state → Yields (body state) pos fun after result =>
        At bytes after rest ∧ Inv (read ++ [item]) result)
    {items : List Item} {encoded : List UInt8} (isItems : Items Encodes items encoded)
    (here : At bytes pos (encoded ++ rest)) {read : List Item} {state : State}
    (inv : Inv read state) :
    Yields (times body items.length state) pos fun after result =>
      At bytes after rest ∧ Inv (read ++ items) result := by
  induction isItems generalizing pos read state with
  | nil => exact yields_ok rfl ⟨here, by rwa [append_nil]⟩
  | cons isItem _ ih =>
    rw [append_assoc] at here
    refine yields_bind ((each isItem here inv).mono ?_)
    rintro _ _ ⟨there, kept⟩
    rw [append_cons]
    exact ih there kept

variable {content sized : List UInt8}

lemma yields_sized (isSized : Sized content sized)
    (here : At bytes pos (sized ++ rest)) {next : Nat → Parser Next} {post : Nat → Next → Prop}
    (holds : ∀ pos, At bytes pos (content ++ rest) → Yields (next content.length) pos post) :
    Yields (uleb bytes >>= next) pos post := by
  obtain ⟨size⟩ := isSized
  rw [append_assoc] at here
  exact yields_bind (yields_uleb size here (holds _ here.next))

lemma yields_skip {content : List UInt8} (here : At bytes pos (content ++ rest))
    {next : Unit → Parser Next} {post : Nat → Next → Prop}
    (holds : ∀ pos, At bytes pos rest → Yields (next ()) pos post) :
    Yields (skip content.length >>= next) pos post :=
  yields_bind (yields_ok rfl (holds _ here.next))

lemma yields_skipLimits (limits : Limits item) (here : At bytes pos (item ++ rest)) :
    Yields (skipLimits bytes) pos fun after _ => At bytes after rest := by
  cases limits with
  | @least number _ least =>
    have flags : Leb128.Unsigned 32 [0x00] 0 := .last (by decide) (by decide)
    have start : At bytes pos ([0x00] ++ (number ++ rest)) := here
    refine yields_bind (yields_uleb flags start ?_)
    exact yields_bind (yields_uleb least start.next (yields_ok rfl start.next.next))
  | @range number more _ _ least most =>
    have flags : Leb128.Unsigned 32 [0x01] 1 := .last (by decide) (by decide)
    have start : At bytes pos ([0x01] ++ ((number ++ more) ++ rest)) := here
    have bounds := start.next.assoc
    refine yields_bind (yields_uleb flags start ?_)
    refine yields_bind (yields_uleb least bounds ?_)
    exact yields_bind (yields_uleb most bounds.next (yields_ok rfl bounds.next.next))

structure Holds (bytes : List UInt8) (imports : List Bool) (exports : List Wasm.Exported)
    (funcs : List Wasm.Func) (sandbox : Sandbox) : Prop where
  raw : sandbox.raw = bytes
  imports : sandbox.importFuncCount = (imports.filter id).length % 2 ^ 32
  exports : sandbox.exports = (exports.filter fun e => e.kind == 0).map fun e =>
    { name := e.name.take 31, funcIdx := e.index }
  funcs : List.Forall₂ (fun func body => ∃ code, func.body.Encodes code ∧
    ∀ other : Sandbox, other.raw = bytes → other.code body = some code) funcs sandbox.funcs

variable {imports : List Bool} {exports : List Wasm.Exported} {funcs : List Wasm.Func}
  {sandbox : Sandbox}

lemma yields_importEntry {isFunc : Bool} (entry : ImportEntry isFunc item)
    (here : At bytes pos (item ++ rest)) (holds : Holds bytes imports exports funcs sandbox) :
    Yields (importEntry bytes sandbox) pos fun after result =>
      At bytes after rest ∧ Holds bytes (imports ++ [isFunc]) exports funcs result := by
  obtain ⟨moduleName, name, described⟩ := entry
  have other : Holds bytes (imports ++ [false]) exports funcs sandbox :=
    { holds with imports := by simpa [filter_append] using holds.imports }
  refine yields_sized moduleName here.assoc fun pos here => yields_skip here fun pos here => ?_
  refine yields_sized name here.assoc fun pos here => yields_skip here fun pos here => ?_
  cases described with
  | func type =>
    refine yields_bind (yields_rb here ?_)
    refine yields_bind (yields_uleb type here.tail (yields_ok rfl ⟨here.tail.next, ?_⟩))
    refine { holds with imports := ?_ }
    simp [filter_append, holds.imports]
  | table limits =>
    refine yields_bind (yields_rb here (yields_bind (yields_rb here.tail ?_)))
    refine yields_bind ((yields_skipLimits limits here.tail.tail).mono ?_)
    exact fun after _ there => yields_ok rfl ⟨there, other⟩
  | memory limits =>
    refine yields_bind (yields_rb here ?_)
    refine yields_bind ((yields_skipLimits limits here.tail).mono ?_)
    exact fun after _ there => yields_ok rfl ⟨there, other⟩
  | global =>
    refine yields_bind (yields_rb here (yields_bind (yields_rb here.tail ?_)))
    exact yields_bind (yields_rb here.tail.tail (yields_ok rfl ⟨here.tail.tail.tail, other⟩))

lemma yields_exportEntry {e : Exported} (entry : ExportEntry e item)
    (here : At bytes pos (item ++ rest)) (holds : Holds bytes imports exports funcs sandbox) :
    Yields (exportEntry bytes sandbox) pos fun after result =>
      At bytes after rest ∧ Holds bytes imports (exports ++ [e]) funcs result := by
  obtain ⟨name, number⟩ := entry
  refine yields_sized name here.assoc fun pos here => ?_
  have inside : pos + e.name.length ≤ bytes.length := by
    have := here.length
    rw [length_append] at this
    omega
  have sliced : slice bytes pos (pos + min e.name.length 31) pos = .ok pos (e.name.take 31) := by
    have bounded : pos + min e.name.length 31 ≤ bytes.length := by omega
    rw [slice, if_pos ⟨Nat.le_add_right _ _, bounded⟩, here.drop, Nat.add_sub_cancel_left,
      take_append_of_le_length (min_le_left _ _), min_comm, ← take_take,
      take_length]
  refine yields_bind (yields_ok rfl ?_)
  rw [if_neg (not_lt.mpr inside)]
  refine yields_bind (yields_ok sliced (yields_skip here fun pos here => ?_))
  refine yields_bind (yields_rb here (yields_bind (yields_uleb number here.tail ?_)))
  by_cases isFunc : e.kind = 0
  · rw [if_pos isFunc]
    refine yields_ok rfl ⟨here.tail.next, { holds with exports := ?_ }⟩
    simp [filter_append, holds.exports, isFunc]
  rw [if_neg isFunc]
  refine yields_ok rfl ⟨here.tail.next, { holds with exports := ?_ }⟩
  simp [filter_append, holds.exports, isFunc]

lemma yields_localGroup {group : Nat × ValType} (entry : LocalGroup group item)
    (here : At bytes pos (item ++ rest)) (locals : Nat) :
    Yields (localGroup bytes locals) pos fun after _ => At bytes after rest := by
  obtain ⟨number⟩ := entry
  refine yields_bind (yields_uleb number here.assoc ?_)
  exact yields_bind (yields_rb here.assoc.next (yields_ok rfl here.assoc.next.tail))

lemma yields_localGroups {groups : List (Nat × ValType)}
    (entries : Items LocalGroup groups item) (here : At bytes pos (item ++ rest))
    (locals : Nat) :
    Yields (times (localGroup bytes) groups.length locals) pos fun after _ =>
      At bytes after rest := by
  induction entries generalizing pos locals with
  | nil => exact yields_ok rfl here
  | cons entry _ ih =>
    refine yields_bind ((yields_localGroup entry here.assoc locals).mono ?_)
    exact fun after locals there => ih there locals

lemma code_between {code : List UInt8} {start stop locals : Nat}
    (atCode : At bytes start (code ++ 0x0b :: rest)) (after : At bytes stop rest)
    (sandbox : Sandbox) (same : sandbox.raw = bytes) :
    sandbox.code { localCount := locals, codeStart := start, codeEnd := stop - 1 } = some code := by
  have total := atCode.length
  have left := after.length
  rw [length_append, length_cons] at total
  have ends : min (stop - 1) bytes.length = start + code.length := by omega
  simp only [Sandbox.code, same, ends]
  rw [if_pos (Nat.le_add_right _ _), drop_take, Nat.add_sub_cancel_left, atCode.drop, take_left]

lemma yields_codeEntry {func : Func} (entry : CodeEntry func item)
    (here : At bytes pos (item ++ rest)) (holds : Holds bytes imports exports funcs sandbox) :
    Yields (codeEntry bytes sandbox) pos fun after result =>
      At bytes after rest ∧ Holds bytes imports exports (funcs ++ [func]) result := by
  obtain ⟨locals, _, encoded, sized⟩ := entry
  refine yields_sized sized here fun start here => yields_bind (yields_ok rfl ?_)
  have last := here.next
  obtain ⟨count, groups⟩ := locals
  refine yields_bind (yields_uleb count here.assoc.assoc ?_)
  refine yields_bind ((yields_localGroups groups here.assoc.assoc.next 0).mono ?_)
  intro first locals atCode
  by_cases many : locals > maxLocals
  · simp only [if_pos many]
    exact yields_throw
  simp only [if_neg many]
  refine yields_bind (yields_ok rfl (yields_bind (yields_ok rfl (yields_ok rfl ⟨last, ?_⟩))))
  refine { holds with funcs := rel_append holds.funcs (.cons ⟨_, encoded, ?_⟩ .nil) }
  exact fun other same => code_between atCode.assoc last other same

section Sections

variable {post : Nat → Sandbox → Prop} {fuel : Nat}

lemma yields_round {id : UInt8} (Kept : Sandbox → Prop)
    (isSized : Sized content sized) (here : At bytes pos (id :: (sized ++ rest)))
    (enough : (id :: (sized ++ rest)).length ≤ fuel)
    (body : ∀ pos, At bytes pos (content ++ rest) → Yields (sectionBody bytes id sandbox) pos
      fun after result => after ≤ pos + content.length ∧ Kept result)
    (further : ∀ fuel after result, At bytes after rest → rest.length ≤ fuel → Kept result →
      Yields (sections bytes fuel result) after post) :
    Yields (sections bytes fuel sandbox) pos post := by
  obtain ⟨fuel, rfl⟩ : ∃ less, fuel = less + 1 :=
    exists_eq_add_one.mpr (lt_of_lt_of_le (Nat.succ_pos _) enough)
  have ahead : pos < bytes.length := by
    rw [← here.length]
    exact Nat.lt_add_of_pos_right (Nat.succ_pos _)
  have shorter : rest.length ≤ fuel := by
    simp only [length_cons, length_append] at enough
    omega
  refine yields_bind (yields_ok rfl ?_)
  rw [if_pos ahead]
  refine yields_bind (yields_bind (yields_rb here ?_))
  refine yields_sized isSized here.tail fun start here => yields_bind (yields_ok rfl ?_)
  have inside : ¬ start + content.length > bytes.length := by
    rw [← here.next.length]
    omega
  simp only [if_neg inside]
  refine yields_bind ((body start here).mono ?_)
  rintro _ result ⟨within, kept⟩
  refine yields_bind (yields_ok rfl (yields_bind (yields_ok rfl (yields_ok rfl ?_))))
  rw [max_eq_right within]
  exact further fuel _ result here.next shorter kept

lemma yields_others (others : Others item) (here : At bytes pos (item ++ rest))
    (enough : (item ++ rest).length ≤ fuel)
    (further : ∀ fuel after, At bytes after rest → rest.length ≤ fuel →
      Yields (sections bytes fuel sandbox) after post) :
    Yields (sections bytes fuel sandbox) pos post := by
  induction others generalizing pos fuel with
  | nil => exact further fuel pos here enough
  | @cons id content sized more notImport notExport notCode isSized _ ih =>
    have start : At bytes pos (id :: (sized ++ (more ++ rest))) := by
      rwa [cons_append, append_assoc] at here
    rw [cons_append, append_assoc] at enough
    refine yields_round (fun result => result = sandbox) isSized start enough ?_ ?_
    · intro pos _
      rw [sectionBody, if_neg notImport, if_neg notExport, if_neg notCode]
      exact yields_ok rfl ⟨Nat.le_add_right _ _, rfl⟩
    · rintro fuel _ _ there enough rfl
      exact ih there enough

lemma yields_section {Item : Type} {id : UInt8} {Encodes : Item → List UInt8 → Prop}
    {items : List Item} (isSection : Section id Encodes items item)
    (Kept : List Item → Sandbox → Prop) (kept : Kept [] sandbox)
    (body : ∀ content rest pos, Vec Encodes items content → At bytes pos (content ++ rest) →
      Yields (sectionBody bytes id sandbox) pos fun after result =>
        At bytes after rest ∧ Kept items result)
    (here : At bytes pos (item ++ rest)) (enough : (item ++ rest).length ≤ fuel)
    (further : ∀ fuel after result, At bytes after rest → rest.length ≤ fuel → Kept items result →
      Yields (sections bytes fuel result) after post) :
    Yields (sections bytes fuel sandbox) pos post := by
  cases isSection with
  | absent => exact further fuel pos sandbox here enough kept
  | present isVec isSized =>
    refine yields_round (Kept items) isSized here enough ?_ further
    intro pos here
    refine (body _ rest pos isVec here).mono fun after result yields => ⟨?_, yields.2⟩
    have total := here.next.length
    have left := yields.1.length
    omega

end Sections

lemma yields_imports {entries : List Bool} (isVec : Vec ImportEntry entries item)
    (here : At bytes pos (item ++ rest)) (holds : Holds bytes [] exports funcs sandbox) :
    Yields (sectionBody bytes 2 sandbox) pos fun after result =>
      At bytes after rest ∧ Holds bytes entries exports funcs result := by
  obtain ⟨count, items⟩ := isVec
  refine yields_bind (yields_uleb count here.assoc ?_)
  exact yields_times (fun read => Holds bytes read exports funcs) yields_importEntry items
    here.assoc.next holds

lemma yields_exports {entries : List Exported}
    (isVec : Vec ExportEntry entries item) (here : At bytes pos (item ++ rest))
    (holds : Holds bytes imports [] funcs sandbox) :
    Yields (sectionBody bytes 7 sandbox) pos fun after result =>
      At bytes after rest ∧ Holds bytes imports entries funcs result := by
  obtain ⟨count, items⟩ := isVec
  refine yields_bind (yields_uleb count here.assoc ?_)
  by_cases many : entries.length > maxExports
  · rw [if_pos many]
    exact yields_throw
  rw [if_neg many]
  exact yields_times (fun read => Holds bytes imports read funcs) yields_exportEntry items
    here.assoc.next holds

lemma yields_codes {entries : List Func} (isVec : Vec CodeEntry entries item)
    (here : At bytes pos (item ++ rest)) (holds : Holds bytes imports exports [] sandbox) :
    Yields (sectionBody bytes 10 sandbox) pos fun after result =>
      At bytes after rest ∧ Holds bytes imports exports entries result := by
  obtain ⟨count, items⟩ := isVec
  refine yields_bind (yields_uleb count here.assoc ?_)
  by_cases many : entries.length > maxFuncs
  · rw [if_pos many]
    exact yields_throw
  · rw [if_neg many]
    exact yields_times (Holds bytes imports exports) yields_codeEntry items here.assoc.next holds

lemma yields_end {fuel : Nat} (here : At bytes pos []) {post : Nat → Sandbox → Prop}
    (holds : post pos sandbox) : Yields (sections bytes fuel sandbox) pos post := by
  cases fuel with
  | zero => exact yields_ok rfl holds
  | succ fuel =>
    refine yields_bind (yields_ok rfl ?_)
    have atEnd : ¬ pos < bytes.length := not_lt.mpr (le_of_eq here.length.symm)
    rw [if_neg atEnd]
    exact yields_ok rfl holds

end Parser

open OsCortex.WasmSandbox.Parser

lemma section_length_lt {Item : Type} {id : UInt8} {Encodes : Item → List UInt8 → Prop}
    {items : List Item} {bytes : List UInt8} (isSection : Section id Encodes items bytes) :
    items.length < 2 ^ 32 := by
  cases isSection with
  | absent => exact Nat.two_pow_pos 32
  | present isVec _ =>
    obtain ⟨count, _⟩ := isVec
    exact count.lt

lemma new_accepted {bytes : List UInt8} {sandbox : Sandbox}
    (accepted : new bytes = some (.ok sandbox)) :
    ∃ pos, sections bytes bytes.length
      { raw := bytes, importFuncCount := 0, funcs := [], exports := [] } 8 =
        some (pos, .ok sandbox) := by
  unfold new at accepted
  repeat' split at accepted
  iterate 3 cases accepted
  · obtain ⟨⟨pos, _⟩, parsed, rfl⟩ := Option.map_eq_some_iff.mp accepted
    exact ⟨pos, parsed⟩

lemma holds_of_accepted {m : Module} {bytes : List UInt8} {sandbox : Sandbox}
    (encodes : m.Encodes bytes) (accepted : new bytes = some (.ok sandbox)) :
    ∃ entries exports, Holds bytes entries exports m.funcs sandbox ∧ entries.length < 2 ^ 32 ∧
      m.imports.length = (entries.filter id).length ∧
      m.exports = (exports.filter (fun e => e.kind == 0)).map (fun e => (e.name, e.index)) := by
  obtain ⟨front, isImports, second, isExports, third, isCode, last, imports, exports⟩ := encodes
  refine ⟨_, _, ?_, section_length_lt isImports, imports, exports⟩
  generalize whole : preamble ++ _ = bytes at accepted ⊢
  obtain ⟨final, parsed⟩ := new_accepted accepted
  refine (?_ : Yields _ 8 fun _ result => Holds bytes _ _ m.funcs result) final sandbox parsed
  have start : At bytes 0 (preamble ++ _) := ⟨whole.symm, by rw [whole, zero_add]⟩
  have here := start.next
  have empty : Holds bytes [] [] [] ⟨bytes, 0, [], []⟩ := ⟨rfl, rfl, rfl, .nil⟩
  have enough := le_of_add_left_le (le_of_eq here.length)
  refine yields_others front here enough fun fuel pos here enough => ?_
  refine yields_section isImports (fun read => Holds bytes read [] []) empty
    (fun _ _ _ isVec here => yields_imports isVec here empty) here enough
    fun fuel pos result here enough holds => ?_
  refine yields_others second here enough fun fuel pos here enough => ?_
  refine yields_section isExports (fun read => Holds bytes _ read []) holds
    (fun _ _ _ isVec here => yields_exports isVec here holds) here enough
    fun fuel pos result here enough holds => ?_
  refine yields_others third here enough fun fuel pos here enough => ?_
  refine yields_section isCode (Holds bytes _ _) holds
    (fun _ _ _ isVec here => yields_codes isVec here holds) here enough
    fun fuel pos result here enough holds => ?_
  exact yields_others last (by rwa [append_nil]) (by rwa [append_nil])
    fun _ pos (here : At bytes pos []) _ => yields_end here holds

end OsCortex.WasmSandbox
