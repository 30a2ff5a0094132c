import OsCortex.Drivers.VirtioBlkCore

/-!
With no request left over from a call that timed out, success means that the device has carried out
the requests of the call.
-/

namespace OsCortex.VirtioBlk

open List Option State Prod

variable {Data : Type} {state next : State Data} {call : Call Data} {id i spins : Nat}

def Call.want (call : Call Data) (i : Nat) : ReqHdr := ⟨call.typ, (call.sector + i) % 2 ^ 64⟩

def Done (state : State Data) (call : Call Data) (i : Nat) : Prop :=
  ∃ done ∈ state.completed, call.ids[i]? = some done.id ∧ done.hdr = call.want i ∧
    done.ok = true ∧
    match call.typ with
    | .read => call.out[i]? = some done.content ∧ state.disk (call.want i).sector = done.content
    | .write => call.src[i]? = some done.content

def Honest (state : State Data) (call : Call Data) : Prop :=
  call.ids.length = call.count ∧ ∀ i < call.count, Done state call i

def Quiet (state : State Data) : Label Data → Prop
  | .driver _ => ∀ call, state.call = some call → call.phase = .issue →
      call.ids.length ≠ call.count →
      state.jobs = [] ∧ state.fetched = state.issued ∧ state.blkUsedIdx = state.usedIdx
  | _ => True

def Matches (state : State Data) (call : Call Data) (i : Nat) (content : Data) : Prop :=
  match call.typ with
  | .read => state.data = content ∧ state.disk (call.want i).sector = content
  | .write => call.src[i]? = some content

def Loaded (call : Call Data) (i : Nat) (buffer : Data) : Prop :=
  call.typ = .write → call.src[i]? = some buffer

def Progress.Holds (call : Call Data) (i : Nat) (state : State Data) : Progress Data → Prop
  | .taken => Loaded call i state.data
  | .moved ok content => ok = true → Matches state call i content
  | .answered ok content =>
    (state.status = 0 → ok = true) ∧ (ok = true → Matches state call i content)

def Landed (state : State Data) (call : Call Data) (i id : Nat) : Prop :=
  ∃ done ∈ state.completed, done.id = id ∧ done.hdr = call.want i ∧
    (state.status = 0 → done.ok = true ∧ Matches state call i done.content)

inductive Flight (state : State Data) (call : Call Data) (i id : Nat) : Prop
  | waiting : state.fetched = id → state.jobs = [] → state.hdr = call.want i →
      state.usedIdx = state.blkUsedIdx → Loaded call i state.data → Flight state call i id
  | served (job : Job Data) : state.fetched = id + 1 → state.jobs = [job] → job.id = id →
      job.hdr = call.want i → state.usedIdx = state.blkUsedIdx →
      job.progress.Holds call i state → Flight state call i id
  | landed : state.fetched = id + 1 → state.jobs = [] → Landed state call i id →
      Flight state call i id

def Phase.Holds (state : State Data) (call : Call Data) (i : Nat) : Phase → Prop
  | .issue => call.ids.length = i ∧
      (0 < i → state.jobs = [] ∧ state.fetched = state.issued)
  | .publish => call.ids.length = i ∧ i < call.count ∧ state.jobs = [] ∧
      state.fetched = state.issued ∧ state.usedIdx = state.blkUsedIdx ∧
      state.hdr = call.want i ∧ Loaded call i state.data
  | .poll id _ => call.ids.length = i + 1 ∧ call.ids[i]? = some id ∧ i < call.count ∧
      state.issued = id + 1 ∧ Flight state call i id
  | .check id => call.ids.length = i + 1 ∧ call.ids[i]? = some id ∧ i < call.count ∧
      state.issued = state.fetched ∧ state.jobs = [] ∧ Landed state call i id
  | .copy id => call.ids.length = i + 1 ∧ call.ids[i]? = some id ∧ i < call.count ∧
      state.issued = state.fetched ∧ state.jobs = [] ∧ state.status = 0 ∧ Landed state call i id

structure Underway (state : State Data) (call : Call Data) (i : Nat) : Prop where
  within : i ≤ call.count
  source : call.typ = .write → call.count ≤ call.src.length
  filled : call.typ = .read → call.out.length = i
  done : ∀ j < i, Done state call j
  phase : call.phase.Holds state call i

def Sane (state : State Data) : Prop := ∀ call, state.call = some call → ∃ i, Underway state call i

lemma Done.mono (grows : state.completed ⊆ next.completed)
    (kept : call.typ = .read → next.disk = state.disk) (done : Done state call i) :
    Done next call i := by
  obtain ⟨entry, member, named, hdr, ok, content⟩ := done
  refine ⟨entry, grows member, named, hdr, ok, ?_⟩
  cases kind : call.typ with
  | read =>
    rw [kind] at content
    rw [kept kind]
    exact content
  | write =>
    rw [kind] at content
    exact content

lemma Progress.Holds.congr {progress : Progress Data} {other : Call Data}
    (holds : progress.Holds call i state) (typ : other.typ = call.typ)
    (sector : other.sector = call.sector) (src : other.src = call.src)
    (data : next.data = state.data) (disk : next.disk = state.disk)
    (status : next.status = state.status) : progress.Holds other i next := by
  cases progress with
  | taken =>
    rw [Progress.Holds, Loaded, typ, src, data]
    exact holds
  | moved ok content =>
    rw [Progress.Holds, Matches, Call.want, typ, sector, src, data, disk]
    exact holds
  | answered ok content =>
    rw [Progress.Holds, Matches, Call.want, typ, sector, src, data, disk, status]
    exact holds

lemma sane_of_call (inside : next.call = some call) (way : Underway next call i) : Sane next := by
  intro other same
  obtain rfl := some.inj (inside.symm.trans same)
  exact ⟨i, way⟩

lemma finish_sane (result : Except BlkError Unit) : Sane (state.finish call result) := nofun

section

variable (way : Underway state call i)
include way

lemma written_sane (phase : call.phase = .issue)
    (more : call.ids.length ≠ call.count) (idle : state.jobs = [])
    (fetched : state.fetched = state.issued) (seen : state.blkUsedIdx = state.usedIdx) :
    Sane ((state.writeRequest call).moveTo call .publish) := by
  have holds := way.phase
  rw [phase] at holds
  obtain ⟨rfl, _⟩ := holds
  have within := way.within
  have below : call.ids.length < call.count := by omega
  refine sane_of_call rfl ⟨within, way.source, way.filled, way.done, rfl, below, idle, fetched,
    seen.symm, rfl, fun isWrite => ?_⟩
  have isWrite : call.typ = .write := isWrite
  have long := way.source isWrite
  have here : call.src[call.ids.length]? = some call.src[call.ids.length] :=
    getElem?_eq_getElem (by omega)
  simp [moveTo, writeRequest, isWrite, Call.next, here]

lemma published_sane (phase : call.phase = .publish) :
    Sane ({ state with issued := state.issued + 1 }.moveTo
      { call with ids := call.ids ++ [state.issued] } (.poll state.issued 0)) := by
  have holds := way.phase
  rw [phase] at holds
  obtain ⟨rfl, below, idle, fetched, seen, hdr, loaded⟩ := holds
  refine sane_of_call rfl ⟨way.within, way.source, way.filled, fun j before => ?_, by simp, by simp,
    below, rfl, .waiting fetched idle hdr seen loaded⟩
  obtain ⟨done, member, named, rest⟩ := way.done j before
  exact ⟨done, member, (getElem?_append_left before).trans named, rest⟩

lemma polled_sane {spun : Nat} (phase : call.phase = .poll id spun)
    (taken : state.driver call spins = some next) : Sane next := by
  have holds := way.phase
  rw [phase] at holds
  obtain ⟨length, last, below, issued, flight⟩ := holds
  simp only [driver, phase] at taken
  split at taken
  · rename_i changed
    cases taken
    cases flight with
    | waiting _ _ _ seen | served _ _ _ _ _ seen => exact absurd seen changed
    | landed fetched idle landed =>
      exact sane_of_call rfl ⟨way.within, way.source, way.filled, way.done, length, last, below,
        issued.trans fetched.symm, idle, landed⟩
  split at taken
  · cases taken
    exact finish_sane _
  cases taken
  refine sane_of_call rfl ⟨way.within, way.source, way.filled, way.done, length, last, below,
    issued, ?_⟩
  cases flight with
  | waiting fetched idle hdr seen loaded => exact .waiting fetched idle hdr seen loaded
  | served job fetched only named hdr seen progress =>
    exact .served job fetched only named hdr seen (progress.congr rfl rfl rfl rfl rfl rfl)
  | landed fetched idle landed => exact .landed fetched idle landed

lemma checked_sane (phase : call.phase = .check id)
    (zero : state.status = 0) : Sane (state.moveTo call (.copy id)) := by
  have holds := way.phase
  rw [phase] at holds
  obtain ⟨length, last, below, fetched, idle, landed⟩ := holds
  exact sane_of_call rfl ⟨way.within, way.source, way.filled, way.done, length, last, below,
    fetched, idle, zero, landed⟩

lemma copied_sane (phase : call.phase = .copy id)
    (taken : state.driver call spins = some next) : Sane next := by
  have holds := way.phase
  rw [phase] at holds
  obtain ⟨length, last, below, fetched, idle, zero, done, member, named, hdr, moved⟩ := holds
  obtain ⟨ok, matching⟩ := moved zero
  simp only [driver, phase] at taken
  split at taken
  · rename_i isRead
    cases taken
    have filled := way.filled isRead
    refine sane_of_call rfl ⟨below, way.source, fun _ => by simp [filled], fun j before => ?_,
      length, fun _ => ⟨idle, fetched.symm⟩⟩
    by_cases newest : j = i
    · subst newest
      refine ⟨done, member, named ▸ last, hdr, ok, ?_⟩
      simp only [Matches, isRead] at matching
      simp only [isRead]
      exact ⟨by simp [← filled, matching.1], matching.2⟩
    obtain ⟨entry, present, numbered, request, succeeded, content⟩ := way.done j (by omega)
    refine ⟨entry, present, numbered, request, succeeded, ?_⟩
    rw [getElem?_append_left (by omega)]
    exact content
  rename_i isWrite
  cases taken
  have notRead : call.typ ≠ .read := by rw [isWrite]; nofun
  refine sane_of_call rfl ⟨below, way.source, fun isRead => absurd isRead notRead,
    fun j before => ?_, length, fun _ => ⟨idle, fetched.symm⟩⟩
  by_cases newest : j = i
  · subst newest
    refine ⟨done, member, named ▸ last, hdr, ok, ?_⟩
    simp only [Matches, isWrite] at matching
    simpa [isWrite] using matching
  · exact way.done j (by omega)

end

variable {job : Job Data} {label : Label Data}

lemma device_cases (way : Underway state call i)
    (found : state.jobs.find? (fun job => job.id == id) = some job) :
    call.phase = .issue ∧ i = 0 ∨ ∃ spun, call.phase = .poll id spun ∧ state.jobs = [job] ∧
      job.id = id ∧ job.hdr = call.want i ∧ state.usedIdx = state.blkUsedIdx ∧
      state.fetched = id + 1 ∧ job.progress.Holds call i state := by
  have busy : state.jobs ≠ [] := by
    rintro idle
    rw [idle] at found
    cases found
  have holds := way.phase
  cases phase : call.phase with
  | issue =>
    rw [phase] at holds
    refine .inl ⟨rfl, Nat.eq_zero_of_not_pos fun some => ?_⟩
    exact absurd (holds.2 some).1 busy
  | publish =>
    rw [phase] at holds
    exact absurd holds.2.2.1 busy
  | poll flying spun =>
    rw [phase] at holds
    obtain ⟨_, _, _, _, flight⟩ := holds
    cases flight with
    | waiting _ idle | landed _ idle => exact absurd idle busy
    | served only fetched one named hdr seen progress =>
      rw [one] at found
      have same := find?_some found
      obtain rfl := mem_singleton.1 (mem_of_find?_eq_some found)
      obtain rfl : flying = id := named.symm.trans (beq_iff_eq.1 same)
      exact .inr ⟨spun, rfl, one, named, hdr, seen, fetched, progress⟩
  | check flying | copy flying =>
    rw [phase] at holds
    exact absurd holds.2.2.2.2.1 busy

lemma jobs_setProgress (one : state.jobs = [job]) (named : job.id = id) (progress : Progress Data) :
    (state.setProgress id progress).jobs = [{ job with progress }] := by
  simp [setProgress, one, named]

lemma transfer_frame (hdr : ReqHdr) (ok : Bool) (debris : Data) :
    ∃ data disk, state.transfer hdr ok debris = { state with data, disk } ∧
      (hdr.typ = .read → disk = state.disk) := by
  rw [transfer]
  split
  · exact ⟨_, _, rfl, fun _ => rfl⟩
  · rename_i isWrite
    exact ⟨_, _, rfl, fun isRead => nomatch isWrite.symm.trans isRead⟩

lemma transfer_matches {debris : Data} (loaded : Loaded call i state.data) :
    Matches (state.transfer (call.want i) true debris) call i (state.moved (call.want i)) := by
  cases kind : call.typ with
  | read => simp [Matches, transfer, moved, Call.want, kind]
  | write =>
    have ready := loaded kind
    simpa [Matches, moved, Call.want, kind] using ready

lemma start_sane {room : Nat} (fresh : call.ids = []) (empty : call.out = [])
    (phase : call.phase = .issue) (source : call.typ = .write → room = call.src.length)
    (taken : state.start call room = some next) : Sane next := by
  rw [start] at taken
  iterate 3
    split at taken
    · cases taken
      exact finish_sane _
  cases taken
  refine sane_of_call rfl (i := 0) ⟨Nat.zero_le _, fun isWrite => ?_, fun _ => by simp [empty],
    nofun, ?_⟩
  · have long := source isWrite
    omega
  · rw [phase, Phase.Holds, fresh]
    exact ⟨rfl, nofun⟩

def Truthful (state next : State Data) : Prop :=
  next.returns = state.returns ∨ ∃ call result,
    next.returns = state.returns ++ [(call, result)] ∧ (result = .ok () → Honest next call)

lemma finish_truthful (error : BlkError) : Truthful state (state.finish call (.error error)) :=
  .inr ⟨call, .error error, rfl, nofun⟩

lemma start_truthful {room : Nat} (taken : state.start call room = some next) :
    Truthful state next := by
  rw [start] at taken
  iterate 3
    split at taken
    · cases taken
      exact finish_truthful _
  · cases taken
    exact .inl rfl

lemma device_returns {act : Job Data → Option (State Data)}
    (acts : ∀ job next, act job = some next → next.returns = state.returns)
    (taken : state.device id act = some next) : next.returns = state.returns := by
  rw [device] at taken
  split at taken
  · cases taken
  · exact acts _ _ taken

section

variable (sane : Sane state)
include sane

lemma driver_sane (inside : state.call = some call)
    (quiet : Quiet state (.driver spins)) (taken : state.driver call spins = some next) :
    Sane next := by
  obtain ⟨_, way⟩ := sane call inside
  cases phase : call.phase with
  | issue =>
    simp only [driver, phase] at taken
    split at taken
    · cases taken
      exact finish_sane _
    rename_i more
    cases taken
    obtain ⟨idle, fetched, seen⟩ := quiet call inside phase more
    exact written_sane way phase more idle fetched seen
  | publish =>
    simp only [driver, phase] at taken
    cases taken
    exact published_sane way phase
  | poll id spun => exact polled_sane way phase taken
  | check id =>
    simp only [driver, phase] at taken
    split at taken
    · cases taken
      exact finish_sane _
    rename_i zero
    cases taken
    exact checked_sane way phase (not_not.1 zero)
  | copy id => exact copied_sane way phase taken

lemma device_sane (grows : state.completed ⊆ next.completed)
    (calls : next.call = state.call)
    (flying : ∀ call i, Underway state call i →
      (call.typ = .read → 0 < i → next.disk = state.disk) ∧ call.phase.Holds next call i) :
    Sane next := by
  intro call inside
  rw [calls] at inside
  obtain ⟨i, way⟩ := sane call inside
  obtain ⟨kept, holds⟩ := flying call i way
  exact ⟨i, way.within, way.source, way.filled, fun j before =>
    (way.done j before).mono grows fun isRead => kept isRead (Nat.zero_lt_of_lt before), holds⟩

lemma take_sane (taken : state.take = some next) : Sane next := by
  obtain ⟨_, rfl⟩ := of_guard taken
  refine device_sane sane (fun _ => id) rfl fun call i way => ⟨fun _ _ => rfl, ?_⟩
  have holds := way.phase
  cases phase : call.phase with
  | issue =>
    rw [phase] at holds
    refine ⟨holds.1, fun some => ?_⟩
    have fetched := (holds.2 some).2
    omega
  | publish | check id | copy id =>
    rw [phase] at holds
    have fetched := holds.2.2.2.1
    omega
  | poll id spun =>
    rw [phase] at holds
    obtain ⟨length, last, below, issued, flight⟩ := holds
    refine ⟨length, last, below, issued, ?_⟩
    cases flight with
    | waiting fetched idle hdr seen loaded =>
      refine .served ⟨id, call.want i, .taken⟩ (by simp [fetched]) ?_ rfl rfl seen loaded
      simp [idle, fetched, hdr]
    | served _ fetched => omega
    | landed fetched => omega

lemma job_sane (found : state.jobs.find? (fun job => job.id == id) = some job)
    (grows : state.completed ⊆ next.completed) (calls : next.call = state.call)
    (issued : next.issued = state.issued)
    (kept : job.hdr.typ = .read → next.disk = state.disk)
    (further : ∀ call i, state.jobs = [job] → job.id = id → job.hdr = call.want i →
      state.usedIdx = state.blkUsedIdx → state.fetched = id + 1 →
      job.progress.Holds call i state → Flight next call i id) : Sane next := by
  refine device_sane sane grows calls fun call i way => ?_
  have holds := way.phase
  obtain ⟨phase, rfl⟩ | ⟨_, phase, one, named, hdr, seen, fetched, progress⟩ :=
    device_cases way found
  · rw [phase] at holds ⊢
    exact ⟨nofun, holds.1, nofun⟩
  rw [phase] at holds ⊢
  obtain ⟨length, last, below, before, _⟩ := holds
  refine ⟨fun isRead _ => kept (hdr ▸ isRead), length, last, below, issued.trans before, ?_⟩
  exact further call i one named hdr seen fetched progress

lemma move_sane {ok : Bool} {debris : Data}
    (taken : state.move id ok debris = some next) : Sane next := by
  rw [move, device] at taken
  split at taken
  · cases taken
  rename_i job found
  split at taken <;> cases taken
  rename_i progress
  obtain ⟨data, disk, transferred, kept⟩ := @transfer_frame _ state job.hdr ok debris
  have moved : ∀ call i, job.hdr = call.want i → Loaded call i state.data → ok →
      Matches { state with data, disk } call i (state.moved job.hdr) := by
    rintro call i hdr loaded rfl
    have moves := @transfer_matches _ state call i debris loaded
    rwa [← hdr, transferred] at moves
  rw [transferred]
  refine job_sane sane found (fun _ member => member) rfl rfl kept
    fun call i one named hdr seen fetched loaded => ?_
  rw [progress] at loaded
  exact .served _ fetched (jobs_setProgress one named _) named hdr seen (moved call i hdr loaded)

lemma answer_sane (taken : state.answer id = some next) : Sane next := by
  rw [answer, device] at taken
  split at taken
  · cases taken
  rename_i found
  split at taken <;> cases taken
  rename_i ok _ progress
  refine job_sane sane found (fun _ member => member) rfl rfl (fun _ => rfl)
    fun call i one named hdr seen fetched moved => ?_
  rw [progress] at moved
  refine .served _ fetched (jobs_setProgress one named _) named hdr seen ⟨fun zero => ?_, moved⟩
  cases ok with
  | true => rfl
  | false => cases zero

lemma use_sane (taken : state.use id = some next) : Sane next := by
  rw [use, device] at taken
  split at taken
  · cases taken
  rename_i found
  split at taken <;> cases taken
  rename_i progress
  refine job_sane sane found (fun _ => mem_append_left _) rfl rfl (fun _ => rfl)
    fun call i one named hdr seen fetched answered => ?_
  rw [progress] at answered
  refine .landed fetched (by simp [one, named])
    ⟨_, mem_append_right _ (mem_singleton_self _), rfl, hdr, fun zero => ?_⟩
  exact ⟨answered.1 zero, answered.2 (answered.1 zero)⟩

lemma step_sane (quiet : Quiet state label)
    (taken : state.step label = some next) : Sane next := by
  cases label with
  | readSectors sector count room =>
    rw [State.step] at taken
    split at taken
    · cases taken
    · have notWrite : ReqType.read = .write → room = 0 := nofun
      exact start_sane rfl rfl rfl notWrite taken
  | writeSectors sector count src =>
    rw [State.step] at taken
    split at taken
    · cases taken
    · exact start_sane rfl rfl rfl (fun _ => rfl) taken
  | driver spins =>
    cases inside : state.call with
    | none =>
      simp only [State.step, inside] at taken
      cases taken
    | some call =>
      simp only [State.step, inside] at taken
      exact driver_sane sane inside quiet taken
  | take => exact take_sane sane taken
  | move id ok debris => exact move_sane sane taken
  | answer id => exact answer_sane sane taken
  | use id => exact use_sane sane taken

lemma driver_truthful (inside : state.call = some call)
    (taken : state.driver call spins = some next) : Truthful state next := by
  obtain ⟨_, way⟩ := sane call inside
  have holds := way.phase
  rw [driver] at taken
  split at taken
  · rename_i phase
    rw [phase] at holds
    obtain ⟨rfl, _⟩ := holds
    split at taken <;> cases taken
    · rename_i all
      exact .inr ⟨call, _, rfl, fun _ => ⟨all, fun j below => way.done j (all ▸ below)⟩⟩
    · exact .inl rfl
  · cases taken
    exact .inl rfl
  · split at taken
    · cases taken
      exact .inl rfl
    split at taken <;> cases taken
    · exact finish_truthful _
    · exact .inl rfl
  · split at taken <;> cases taken
    · exact finish_truthful _
    · exact .inl rfl
  split at taken
  all_goals
    cases taken
    exact .inl rfl

lemma step_truthful (taken : state.step label = some next) :
    Truthful state next := by
  cases label with
  | readSectors sector count room | writeSectors sector count src =>
    rw [State.step] at taken
    split at taken
    · cases taken
    · exact start_truthful taken
  | driver spins =>
    cases inside : state.call with
    | none =>
      simp only [State.step, inside] at taken
      cases taken
    | some call =>
      simp only [State.step, inside] at taken
      exact driver_truthful sane inside taken
  | take =>
    obtain ⟨-, rfl⟩ := of_guard taken
    exact .inl rfl
  | move id ok debris =>
    refine .inl (device_returns (fun job after moves => ?_) taken)
    split at moves <;> cases moves
    obtain ⟨_, _, transferred, _⟩ := @transfer_frame _ state job.hdr ok debris
    rw [transferred]
    rfl
  | answer id | use id =>
    refine .inl (device_returns (fun job after uses => ?_) taken)
    split at uses <;> cases uses
    rfl

end

theorem ok_means_completed (reached : (machine Data).Reachable Quiet state) {label : Label Data}
    (taken : (machine Data).step state label = some next)
    (returned : next.returns = state.returns ++ [(call, .ok ())]) : Honest next call := by
  have sane : Sane state := by
    refine reached.invariant ?_ fun _ label _ sane quiet taken => step_sane sane quiet taken
    rintro _ ⟨_, _, _, _, rfl⟩
    nofun
  rcases step_truthful sane taken with same | ⟨_, _, appended, honest⟩
  · rw [same] at returned
    simp at returned
  have both := append_cancel_left (appended.symm.trans returned)
  obtain ⟨rfl, rfl⟩ := mk.inj (cons.inj both).1
  exact honest rfl

def numbered : State Nat := .initial true false 0 fun n => n

def plainRead : List (Label Nat) :=
  [.readSectors 5 1 1, .driver 0, .driver 0, .take, .move 0 true 0, .answer 0, .use 0, .driver 0,
    .driver 0, .driver 0]

lemma quiet_of_written (inside : state.call = some call)
    (written : call.phase ≠ .issue ∨ call.ids.length = call.count) {spins : Nat} :
    Quiet state (.driver spins) := by
  intro other same issue more
  obtain rfl := some.inj (inside.symm.trans same)
  exact absurd written (not_or.2 ⟨not_not.2 issue, more⟩)

lemma plainRead_quiet : (machine Nat).Obeys Quiet numbered plainRead := by
  refine ⟨trivial, fun state first => ?_⟩
  cases first
  refine ⟨fun _ _ _ _ => ⟨rfl, rfl, rfl⟩, fun state second => ?_⟩
  cases second
  refine ⟨quiet_of_written rfl (by decide), fun state third => ?_⟩
  cases third
  refine ⟨trivial, fun state fourth => ?_⟩
  cases fourth
  refine ⟨trivial, fun state fifth => ?_⟩
  cases fifth
  refine ⟨trivial, fun state sixth => ?_⟩
  cases sixth
  refine ⟨trivial, fun state seventh => ?_⟩
  cases seventh
  refine ⟨quiet_of_written rfl (by decide), fun state eighth => ?_⟩
  cases eighth
  refine ⟨quiet_of_written rfl (by decide), fun state ninth => ?_⟩
  cases ninth
  exact ⟨quiet_of_written rfl (by decide), fun _ _ => trivial⟩

theorem ok_means_completed_sample :
    ∃ (state next : State Nat) (call : Call Nat), (machine Nat).Reachable Quiet state ∧
      (machine Nat).step state (.driver 0) = some next ∧
      next.returns = state.returns ++ [(call, .ok ())] ∧ call.out = [5] ∧ Honest next call := by
  let call : Call Nat :=
    { typ := .read, sector := 5, count := 1, src := [], out := [5], ids := [0] }
  let view (state : State Nat) :=
    (state.returns, ((machine Nat).step state (.driver 0)).map (·.returns))
  have ran : ((machine Nat).run numbered plainRead).map view =
      some ([], some [(call, .ok ())]) := rfl
  obtain ⟨state, ran, seen⟩ := map_eq_some_iff.1 ran
  obtain ⟨before, after⟩ := mk.inj seen
  obtain ⟨next, taken, after⟩ := map_eq_some_iff.1 after
  have returned : next.returns = state.returns ++ [(call, .ok ())] := by rw [before, after]; rfl
  have begun : (machine Nat).start numbered := ⟨_, _, _, _, rfl⟩
  have reached := plainRead_quiet.reachable (.start begun) ran
  exact ⟨state, next, call, reached, taken, returned, rfl,
    ok_means_completed reached taken returned⟩

def lateRead : List (Label Nat) :=
  [.readSectors 5 1 1, .driver 0, .driver 0, .take, .driver (maxSpins + 1), .readSectors 6 1 1,
    .driver 0, .driver 0, .move 0 true 0, .answer 0, .use 0, .driver 0, .driver 0, .driver 0]

theorem ok_after_timeout_not_completed :
    ∃ (state next : State Nat) (call : Call Nat), (machine Nat).Reachable Runs.anyStep state ∧
      (machine Nat).step state (.driver 0) = some next ∧
      next.returns = state.returns ++ [(call, .ok ())] ∧ call.sector = 6 ∧ call.out = [5] ∧
      ¬ Honest next call := by
  let late : Call Nat :=
    { typ := .read, sector := 5, count := 1, src := [], ids := [0], phase := .poll 0 0 }
  let call : Call Nat :=
    { typ := .read, sector := 6, count := 1, src := [], out := [5], ids := [1] }
  let view (state : State Nat) :=
    (state.returns, ((machine Nat).step state (.driver 0)).map fun next =>
      (next.returns, next.completed.map (·.id)))
  have ran : ((machine Nat).run numbered lateRead).map view =
      some ([(late, .error .timeout)], some ([(late, .error .timeout), (call, .ok ())], [0])) := rfl
  have begun : (machine Nat).start numbered := ⟨_, _, _, _, rfl⟩
  obtain ⟨state, reached, seen⟩ := Runs.Machine.run_view view begun ran
  obtain ⟨before, after⟩ := mk.inj seen
  obtain ⟨next, taken, after⟩ := map_eq_some_iff.1 after
  obtain ⟨returned, completed⟩ := mk.inj after
  refine ⟨state, next, call, reached, taken, by rw [before, returned]; rfl, rfl, rfl,
    fun honest => ?_⟩
  obtain ⟨done, member, same, _⟩ := honest.2 0 Nat.one_pos
  have among : done.id ∈ [0] := completed ▸ mem_map_of_mem member
  have first : done.id = 0 := mem_singleton.1 among
  rw [first] at same
  cases same

end OsCortex.VirtioBlk
