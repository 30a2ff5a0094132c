import OsCortex.Lib.Leb128
import OsCortex.Lib.Runs

/-!
The part of WebAssembly 1.0 without memories, tables and globals whose only numeric instructions are
those of `i32`: syntax, validation, binary format and semantics.
-/

namespace Wasm

abbrev Word := BitVec 32

inductive ValType where
  | i32 | i64 | f32 | f64
  deriving DecidableEq

structure FuncType where
  params : List ValType
  result : Option ValType

inductive Binop where
  | eq | ne | ltS | gtS | leS | geS | add | sub | mul | divS | and | or | xor | shl | shrS | shrU
  deriving DecidableEq

inductive Bare where
  | unreachable | nop | drop | select | ret | eqz
  | binary (op : Binop)
  deriving DecidableEq

inductive Indexed where
  | br | brIf | call | localGet | localSet | localTee
  deriving DecidableEq

inductive Basic where
  | bare (instr : Bare)
  | indexed (instr : Indexed) (index : Nat)
  | const (value : Word)
  deriving DecidableEq

inductive Code where
  | done
  | basic (instr : Basic) (next : Code)
  | block (type : Option ValType) (body next : Code)
  | loop (type : Option ValType) (body next : Code)
  | ifThen (yes next : Code)
  | ifElse (type : Option ValType) (yes no next : Code)
  deriving DecidableEq

structure Func where
  type : FuncType
  locals : List ValType
  body : Code

structure Import where
  type : FuncType
  answer : List Word → Option Word

structure Module where
  imports : List Import
  funcs : List Func
  exports : List (List UInt8 × Nat)

def Module.funcType (m : Module) (index : Nat) : Option FuncType :=
  (m.imports.map Import.type ++ m.funcs.map Func.type)[index]?

/-! Validation: the operand types before and after, top first. -/

structure Context where
  scope : Module
  locals : List ValType
  labels : List (Option ValType)
  result : Option ValType

inductive Bare.Types (context : Context) : Bare → List ValType → List ValType → Prop
  | unreachable {before after} : Types context .unreachable before after
  | nop {before} : Types context .nop before before
  | drop {type before} : Types context .drop (type :: before) before
  | select {type before} : Types context .select (.i32 :: type :: type :: before) (type :: before)
  | ret {before after} : Types context .ret (context.result.toList ++ before) after
  | eqz {before} : Types context .eqz (.i32 :: before) (.i32 :: before)
  | binary {op before} : Types context (.binary op) (.i32 :: .i32 :: before) (.i32 :: before)

inductive Indexed.Types (context : Context) :
    Indexed → Nat → List ValType → List ValType → Prop
  | br {n type before after} : context.labels[n]? = some type →
      Types context .br n (type.toList ++ before) after
  | brIf {n type before} : context.labels[n]? = some type →
      Types context .brIf n (.i32 :: type.toList ++ before) (type.toList ++ before)
  | call {n type before} : context.scope.funcType n = some type →
      Types context .call n (type.params.reverse ++ before) (type.result.toList ++ before)
  | localGet {n type before} : context.locals[n]? = some type →
      Types context .localGet n before (type :: before)
  | localSet {n type before} : context.locals[n]? = some type →
      Types context .localSet n (type :: before) before
  | localTee {n type before} : context.locals[n]? = some type →
      Types context .localTee n (type :: before) (type :: before)

inductive Code.Types : Context → Code → List ValType → List ValType → Prop
  | done {context types} : Types context .done types types
  | bare {context instr next before middle after} : instr.Types context before middle →
      Types context next middle after → Types context (.basic (.bare instr) next) before after
  | indexed {context instr index next before middle after} :
      instr.Types context index before middle → Types context next middle after →
      Types context (.basic (.indexed instr index) next) before after
  | const {context value next before after} : Types context next (.i32 :: before) after →
      Types context (.basic (.const value) next) before after
  | block {context type body next before after} :
      Types { context with labels := type :: context.labels } body [] type.toList →
      Types context next (type.toList ++ before) after →
      Types context (.block type body next) before after
  | loop {context type body next before after} :
      Types { context with labels := none :: context.labels } body [] type.toList →
      Types context next (type.toList ++ before) after →
      Types context (.loop type body next) before after
  | ifThen {context yes next before after} :
      Types { context with labels := none :: context.labels } yes [] [] →
      Types context next before after → Types context (.ifThen yes next) (.i32 :: before) after
  | ifElse {context type yes no next before after} :
      Types { context with labels := type :: context.labels } yes [] type.toList →
      Types { context with labels := type :: context.labels } no [] type.toList →
      Types context next (type.toList ++ before) after →
      Types context (.ifElse type yes no next) (.i32 :: before) after

def Func.Valid (m : Module) (func : Func) : Prop :=
  Code.Types
    { scope := m
      locals := func.type.params ++ func.locals
      labels := [func.type.result]
      result := func.type.result } func.body [] func.type.result.toList

structure Module.Valid (m : Module) : Prop where
  funcs : ∀ func ∈ m.funcs, func.Valid m
  exports : ∀ e ∈ m.exports, (m.funcType e.2).isSome
  names : (m.exports.map Prod.fst).Nodup

def Binop.opcode : Binop → UInt8
  | .eq => 0x46
  | .ne => 0x47
  | .ltS => 0x48
  | .gtS => 0x4a
  | .leS => 0x4c
  | .geS => 0x4e
  | .add => 0x6a
  | .sub => 0x6b
  | .mul => 0x6c
  | .divS => 0x6d
  | .and => 0x71
  | .or => 0x72
  | .xor => 0x73
  | .shl => 0x74
  | .shrS => 0x75
  | .shrU => 0x76

def Bare.opcode : Bare → UInt8
  | .unreachable => 0x00
  | .nop => 0x01
  | .drop => 0x1a
  | .select => 0x1b
  | .ret => 0x0f
  | .eqz => 0x45
  | .binary op => op.opcode

def Indexed.opcode : Indexed → UInt8
  | .br => 0x0c
  | .brIf => 0x0d
  | .call => 0x10
  | .localGet => 0x20
  | .localSet => 0x21
  | .localTee => 0x22

def ValType.code : ValType → UInt8
  | .i32 => 0x7f
  | .i64 => 0x7e
  | .f32 => 0x7d
  | .f64 => 0x7c

def blockType : Option ValType → UInt8
  | none => 0x40
  | some type => type.code

inductive Basic.Encodes : Basic → List UInt8 → Prop
  | bare {instr} : Encodes (.bare instr) [instr.opcode]
  | indexed {instr index bytes} : Leb128.Unsigned 32 bytes index →
      Encodes (.indexed instr index) (instr.opcode :: bytes)
  | const {value bytes} : Leb128.Signed 32 bytes value →
      Encodes (.const (BitVec.ofInt 32 value)) (0x41 :: bytes)

/-- Without the `end` of the sequence itself. -/
inductive Code.Encodes : Code → List UInt8 → Prop
  | done : Encodes .done []
  | basic {instr next bytes rest} : instr.Encodes bytes → Encodes next rest →
      Encodes (.basic instr next) (bytes ++ rest)
  | block {type body next bytes rest} : Encodes body bytes → Encodes next rest →
      Encodes (.block type body next) (0x02 :: blockType type :: (bytes ++ 0x0b :: rest))
  | loop {type body next bytes rest} : Encodes body bytes → Encodes next rest →
      Encodes (.loop type body next) (0x03 :: blockType type :: (bytes ++ 0x0b :: rest))
  | ifThen {yes next bytes rest} : Encodes yes bytes → Encodes next rest →
      Encodes (.ifThen yes next) (0x04 :: blockType none :: (bytes ++ 0x0b :: rest))
  | ifElse {type yes no next bytes other rest} : Encodes yes bytes → Encodes no other →
      Encodes next rest →
      Encodes (.ifElse type yes no next)
        (0x04 :: blockType type :: (bytes ++ 0x05 :: (other ++ 0x0b :: rest)))

/-!
Binary format of modules; sections other than those of imports, exports and code are left as they
are.
-/

inductive Items {Item : Type} (Encodes : Item → List UInt8 → Prop) :
    List Item → List UInt8 → Prop
  | nil : Items Encodes [] []
  | cons {item items bytes rest} : Encodes item bytes → Items Encodes items rest →
      Items Encodes (item :: items) (bytes ++ rest)

inductive Vec {Item : Type} (Encodes : Item → List UInt8 → Prop) :
    List Item → List UInt8 → Prop
  | intro {items count bytes} : Leb128.Unsigned 32 count items.length → Items Encodes items bytes →
      Vec Encodes items (count ++ bytes)

inductive Sized (content : List UInt8) : List UInt8 → Prop
  | intro {size} : Leb128.Unsigned 32 size content.length → Sized content (size ++ content)

inductive Limits : List UInt8 → Prop
  | least {bytes least} : Leb128.Unsigned 32 bytes least → Limits (0x00 :: bytes)
  | range {bytes more least most} : Leb128.Unsigned 32 bytes least → Leb128.Unsigned 32 more most →
      Limits (0x01 :: (bytes ++ more))

inductive Described : Bool → List UInt8 → Prop
  | func {bytes type} : Leb128.Unsigned 32 bytes type → Described true (0x00 :: bytes)
  | table {bytes type} : Limits bytes → Described false (0x01 :: type :: bytes)
  | memory {bytes} : Limits bytes → Described false (0x02 :: bytes)
  | global {type mutable} : Described false [0x03, type, mutable]

inductive ImportEntry : Bool → List UInt8 → Prop
  | intro {isFunc moduleName name first second bytes} : Sized moduleName first →
      Sized name second → Described isFunc bytes → ImportEntry isFunc (first ++ (second ++ bytes))

structure Exported where
  name : List UInt8
  kind : UInt8
  index : Nat

inductive ExportEntry : Exported → List UInt8 → Prop
  | intro {e bytes number} : Sized e.name bytes → Leb128.Unsigned 32 number e.index →
      ExportEntry e (bytes ++ e.kind :: number)

inductive LocalGroup : Nat × ValType → List UInt8 → Prop
  | intro {count type bytes} : Leb128.Unsigned 32 bytes count →
      LocalGroup (count, type) (bytes ++ [type.code])

inductive CodeEntry : Func → List UInt8 → Prop
  | intro {func groups locals body bytes} : Vec LocalGroup groups locals →
      func.locals = groups.flatMap (fun group => List.replicate group.1 group.2) →
      func.body.Encodes body → Sized (locals ++ (body ++ [0x0b])) bytes → CodeEntry func bytes

inductive Others : List UInt8 → Prop
  | nil : Others []
  | cons {id content bytes rest} : id ≠ 2 → id ≠ 7 → id ≠ 10 → Sized content bytes →
      Others rest → Others (id :: (bytes ++ rest))

inductive Section {Item : Type} (id : UInt8) (Encodes : Item → List UInt8 → Prop) :
    List Item → List UInt8 → Prop
  | absent : Section id Encodes [] []
  | present {items content bytes} : Vec Encodes items content → Sized content bytes →
      Section id Encodes items (id :: bytes)

def preamble : List UInt8 := [0x00, 0x61, 0x73, 0x6d, 0x01, 0x00, 0x00, 0x00]

inductive Module.Encodes : Module → List UInt8 → Prop
  | intro {m : Module} {entries : List Bool} {exports : List Exported}
      {front imports second exported third code last : List UInt8} :
      Others front → Section 2 ImportEntry entries imports → Others second →
      Section 7 ExportEntry exports exported → Others third → Section 10 CodeEntry m.funcs code →
      Others last → m.imports.length = (entries.filter id).length →
      m.exports = (exports.filter (fun e => e.kind == 0)).map (fun e => (e.name, e.index)) →
      Encodes m (preamble ++ (front ++ (imports ++ (second ++ (exported ++ (third ++ (code ++
        last)))))))

def ofBool (condition : Bool) : Word := if condition then 1 else 0

def Binop.eval (op : Binop) (x y : Word) : Option Word :=
  match op with
  | .eq => some (ofBool (x == y))
  | .ne => some (ofBool (x != y))
  | .ltS => some (ofBool (x.slt y))
  | .gtS => some (ofBool (y.slt x))
  | .leS => some (ofBool (x.sle y))
  | .geS => some (ofBool (y.sle x))
  | .add => some (x + y)
  | .sub => some (x - y)
  | .mul => some (x * y)
  | .divS =>
    if y = 0 then none else if x = BitVec.intMin 32 ∧ y = -1 then none else some (x.sdiv y)
  | .and => some (x &&& y)
  | .or => some (x ||| y)
  | .xor => some (x ^^^ y)
  | .shl => some (x <<< (y.toNat % 32))
  | .shrS => some (x.sshiftRight (y.toNat % 32))
  | .shrU => some (x >>> (y.toNat % 32))

/-- How the end of a block that runs is written: not at all in the missing branch of an `if`. -/
inductive Ending where
  | closed | beforeElse | absent
  deriving DecidableEq

structure Label where
  carries : Option ValType
  target : Code
  next : Code
  below : List Word
  ending : Ending

structure Activation where
  locals : List Word
  vals : List Word
  code : Code
  labels : List Label
  result : Option ValType

inductive Config where
  | running (top : Activation) (callers : List Activation)
  | returned (result : Option Word)
  | trapped

def carried : Option ValType → List Word → Option (List Word)
  | none, _ => some []
  | some _, value :: _ => some [value]
  | some _, [] => none

variable (act : Activation)

def Activation.leave (callers : List Activation) : Option Config :=
  match carried act.result act.vals, callers with
  | none, _ => none
  | some results, [] => some (.returned results.head?)
  | some results, caller :: callers =>
    some (.running { caller with vals := results ++ caller.vals } callers)

def Activation.branch (n : Nat) (callers : List Activation) : Option Config :=
  match act.labels[n]? with
  | none => if n = act.labels.length then act.leave callers else none
  | some label =>
    match carried label.carries act.vals with
    | none => none
    | some results =>
      some (.running
        { act with
          vals := results ++ label.below
          code := label.target
          labels := act.labels.drop (n + 1) } callers)

def Activation.within (carries : Option ValType) (target next body : Code)
    (ending : Ending) : Activation :=
  { act with
    vals := []
    code := body
    labels := { carries, target, next, below := act.vals, ending } :: act.labels }

namespace Module

variable (m : Module)

/-- The instruction; `act` is at what follows it. `none` is an instruction that validation
excludes. -/
def stepBare (act : Activation) (callers : List Activation) : Bare → Option Config
  | .unreachable => some .trapped
  | .nop => some (.running act callers)
  | .drop =>
    match act.vals with
    | _ :: vals => some (.running { act with vals } callers)
    | [] => none
  | .select =>
    match act.vals with
    | c :: y :: x :: vals =>
      some (.running { act with vals := (if c ≠ 0 then x else y) :: vals } callers)
    | _ => none
  | .ret => act.leave callers
  | .eqz =>
    match act.vals with
    | x :: vals => some (.running { act with vals := ofBool (x == 0) :: vals } callers)
    | [] => none
  | .binary op =>
    match act.vals with
    | y :: x :: vals =>
      match op.eval x y with
      | some value => some (.running { act with vals := value :: vals } callers)
      | none => some .trapped
    | _ => none

def startActivation (func : Func) (args : List Word) : Activation :=
  { locals := args ++ List.replicate func.locals.length 0
    vals := []
    code := func.body
    labels := []
    result := func.type.result }

def stepCall (act : Activation) (callers : List Activation) (index : Nat) : Option Config :=
  match m.imports[index]? with
  | some host =>
    let count := host.type.params.length
    if count ≤ act.vals.length then
      let answer := host.answer (act.vals.take count).reverse
      some (.running { act with vals := answer.toList ++ act.vals.drop count } callers)
    else none
  | none =>
    match m.funcs[index - m.imports.length]? with
    | none => none
    | some func =>
      let count := func.type.params.length
      if count ≤ act.vals.length then
        some (.running (startActivation func (act.vals.take count).reverse)
          ({ act with vals := act.vals.drop count } :: callers))
      else none

def stepIndexed (act : Activation) (callers : List Activation) (index : Nat) :
    Indexed → Option Config
  | .br => act.branch index callers
  | .brIf =>
    match act.vals with
    | c :: vals =>
      if c = 0 then some (.running { act with vals } callers)
      else Activation.branch { act with vals } index callers
    | [] => none
  | .call => m.stepCall act callers index
  | .localGet =>
    match act.locals[index]? with
    | some value => some (.running { act with vals := value :: act.vals } callers)
    | none => none
  | .localSet =>
    match act.vals with
    | value :: vals =>
      if index < act.locals.length then
        some (.running { act with vals, locals := act.locals.set index value } callers)
      else none
    | [] => none
  | .localTee =>
    match act.vals with
    | value :: _ =>
      if index < act.locals.length then
        some (.running { act with locals := act.locals.set index value } callers)
      else none
    | [] => none

def step : Config → Option Config
  | .running act callers =>
    match act.code with
    | .done =>
      match act.labels with
      | [] => act.leave callers
      | label :: labels =>
        some (.running
          { act with vals := act.vals ++ label.below, code := label.next, labels } callers)
    | .basic (.bare instr) next => stepBare { act with code := next } callers instr
    | .basic (.indexed instr index) next =>
      m.stepIndexed { act with code := next } callers index instr
    | .basic (.const value) next =>
      some (.running { act with vals := value :: act.vals, code := next } callers)
    | .block type body next => some (.running (act.within type next next body .closed) callers)
    | .loop type body next =>
      some (.running (act.within none (.loop type body next) next body .closed) callers)
    | .ifThen yes next =>
      match act.vals with
      | c :: vals =>
        let act := { act with vals }
        if c = 0 then some (.running (act.within none next next .done .absent) callers)
        else some (.running (act.within none next next yes .closed) callers)
      | [] => none
    | .ifElse type yes no next =>
      match act.vals with
      | c :: vals =>
        let act := { act with vals }
        if c = 0 then some (.running (act.within type next next no .closed) callers)
        else some (.running (act.within type next next yes .beforeElse) callers)
      | [] => none
  | .returned _ => none
  | .trapped => none

def invoke (index : Nat) (args : List Word) : Option Config :=
  match m.imports[index]? with
  | some host =>
    if args.length = host.type.params.length then some (.returned (host.answer args)) else none
  | none =>
    match m.funcs[index - m.imports.length]? with
    | none => none
    | some func =>
      if args.length = func.type.params.length then
        some (.running (startActivation func args) [])
      else none

def execution (index : Nat) (args : List Word) : Runs.Machine Config Unit where
  start config := m.invoke index args = some config
  step config _ := m.step config

end Module

end Wasm
