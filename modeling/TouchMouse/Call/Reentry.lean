import TouchMouse.Call.Run
import TouchMouse.Decoder.Progress

/-!
# Callbacks that call back

The callback is invoked between the end of a frame and the reset of the
decoder, so a callback that processes more events finds the index at 181.
`Host` is the device with the calls that wait for their callbacks, and its
steps are what such calls do to it, in any order and to any depth; every run
of a program with callbacks of its own is one of its runs (`run_simulated`).
The index is in bounds at each call of `process_nybble` exactly if no report
is decoded on top of a frame that is still being shown (`host_indexed_iff`).
-/

namespace TouchMouse
open Transducer

/-- What the functions behind the callback addresses do: operations on the
device, chosen by all there is to see. The reads that are left tell the
callbacks of one run apart. -/
abbrev Program := Addr → CallbackInfo → Env → List Op

/-- Callbacks that run a program, and in it again callbacks, to some depth.
A callback whose program waits in a call does not return. -/
def reenter (program : Program) : Nat → Callbacks
  | 0 => passive
  | depth + 1 => fun cb info env => run (reenter program depth) (program cb info env) env

/-! ## The host -/

/-- The device, and the number of calls that wait for their callback. -/
structure Host where
  dev : Device
  waiting : Nat

/-- What can happen next to the device: a call that is not waiting interprets
a transfer, the innermost callback returns, or a setter is called. -/
inductive HostStep where
  | transfer (data : Buffer) (res : Int)
  | callbackReturns
  | setImageUpdateCallback (callback : Addr)
  | setDeviceUserdata (userdata : Addr)

/-- How a call goes on after a transfer was interpreted: into its callback
with the decoder as it is, or out on an error, or on. -/
def settle (waiting : Nat) (timestamp : UInt8) (d : Decoding) : Host × List Event :=
  match d.res with
  | .complete =>
    let dev := { d.dev with timestampLastCompleted := timestamp }
    (⟨dev, waiting + 1⟩, d.events ++ [.callback dev.cb ⟨dev.userdata, dev.image, dev.timestampLastCompleted⟩])
  | .error => (⟨resetDecoder d.dev, waiting⟩, d.events ++ [.decodeError timestamp])
  | _ => (⟨d.dev, waiting⟩, d.events)

/-- One step. When a callback returns, the call that invoked it resets the
decoder. -/
def hostStep (h : Host) : HostStep → Host × List Event
  | .transfer data res => settle h.waiting data.timestamp (interpretTransfer h.dev data res)
  | .callbackReturns =>
    match h.waiting with
    | 0 => (h, [])
    | n + 1 => (⟨resetDecoder h.dev, n⟩, [])
  | .setImageUpdateCallback callback => (⟨touchmouseSetImageUpdateCallback h.dev callback, h.waiting⟩, [])
  | .setDeviceUserdata userdata => (⟨touchmouseSetDeviceUserdata h.dev userdata, h.waiting⟩, [])

/-! ## Runs of programs are runs of the host -/

/-- An event of decoding, with its outcome. -/
def Event.decodes : Event → Bool
  | .report _ _ => true
  | .processNybble _ _ => true
  | .access _ => true
  | .callback _ _ => true
  | .decodeError _ => true
  | _ => false

/-- The events of a trace without reads, clocks and returns. -/
def decoding (es : List Event) : List Event := es.filter Event.decodes

@[simp] theorem decoding_append (es fs : List Event) : decoding (es ++ fs) = decoding es ++ decoding fs :=
  List.filter_append es fs

theorem decoding_quiet {es : List Event} (h : ∀ e ∈ es, e.quiet) : decoding es = es :=
  List.filter_eq_self.2 fun e he => by
    have hq := h e he
    cases e <;> first | rfl | cases hq

theorem decoding_turn {ms : Int32} {r : ReadResult} {es : List Event} (h : ∀ e ∈ es, e.quiet) (fs : List Event) :
    decoding ([.hidRead ms, .received r] ++ es ++ fs) = es ++ decoding fs := by
  rw [decoding_append, decoding_append, decoding_quiet h]
  rfl

/-- Some steps of the host lead from one device to another, and show the
events of a trace. If what they do has returned, no more and no fewer calls
are waiting after it. -/
def Simulated (returned : Bool) (dev dev' : Device) (es : List Event) : Prop :=
  ∀ n, ∃ steps n', after hostStep ⟨dev, n⟩ steps = ⟨dev', n'⟩ ∧ (returned → n' = n) ∧
    outputs hostStep ⟨dev, n⟩ steps = decoding es

theorem Simulated.refl (returned : Bool) (dev : Device) (es : List Event) (h : decoding es = []) :
    Simulated returned dev dev es :=
  fun n => ⟨[], n, rfl, fun _ => rfl, h.symm⟩

theorem Simulated.trans {returned : Bool} {d₁ d₂ d₃ : Device} {es fs : List Event} (h : Simulated true d₁ d₂ es)
    (h' : Simulated returned d₂ d₃ fs) : Simulated returned d₁ d₃ (es ++ fs) := by
  intro n
  obtain ⟨steps, n₁, hafter, hsame, hout⟩ := h n
  obtain rfl := hsame rfl
  obtain ⟨steps', n₂, hafter', hsame', hout'⟩ := h' n₁
  exact ⟨steps ++ steps', n₂, by rw [after_append, hafter, hafter'], hsame',
    by rw [outputs_append, hafter, hout, hout', decoding_append]⟩

/-- Callbacks that are themselves runs of the host. -/
def SimulatedCallbacks (cbs : Callbacks) : Prop :=
  ∀ cb info env, Simulated (cbs cb info env).returned env.dev (cbs cb info env).env.dev (cbs cb info env).events

section Simulation

variable {cbs : Callbacks} (hcbs : SimulatedCallbacks cbs)
include hcbs

/-- From the entry of the callback on, with the call that invokes it among
those that wait. -/
theorem completeFrame_simulated (dev : Device) (timestamp : UInt8) (reads : List ReadResult) (n : Nat) :
    let c := completeFrame cbs dev timestamp reads
    let entered : Device := { dev with timestampLastCompleted := timestamp }
    ∃ steps n', after hostStep ⟨entered, n + 1⟩ steps = ⟨c.env.dev, n'⟩ ∧ (c.ret.isSome → n' = n) ∧
      .callback dev.cb ⟨dev.userdata, dev.image, timestamp⟩ :: outputs hostStep ⟨entered, n + 1⟩ steps =
        decoding c.events := by
  have hcallback := hcbs dev.cb ⟨dev.userdata, dev.image, timestamp⟩
    ⟨{ dev with timestampLastCompleted := timestamp }, reads⟩ (n + 1)
  simp only [completeFrame]
  generalize cbs dev.cb _ _ = called at hcallback ⊢
  obtain ⟨steps, n', hafter, hsame, hout⟩ := hcallback
  cases hreturned : called.returned with
  | true =>
    obtain rfl := hsame hreturned
    refine ⟨steps ++ [.callbackReturns], n, ?_, fun _ => rfl, ?_⟩
    · rw [after_append, hafter]
      rfl
    · rw [outputs_append, hafter, hout, show outputs hostStep _ [HostStep.callbackReturns] = [] from rfl, List.append_nil]
      rfl
  | false =>
    refine ⟨steps, n', hafter, fun h => (Bool.false_ne_true h).elim, ?_⟩
    rw [hout]
    rfl

theorem eventLoop_simulated (deadline nanos : UInt64) (clock : Clock) (data : Buffer) (dev : Device)
    (reads : List ReadResult) :
    let c := eventLoop cbs deadline nanos clock data dev reads
    Simulated c.ret.isSome dev c.env.dev c.events := by
  induction reads generalizing nanos clock data dev with
  | nil => exact .refl false dev _ rfl
  | cons r reads ih =>
    have hquiet := decodingEvents_quiet dev data r
    have hstep : ∀ n, hostStep ⟨dev, n⟩ (.transfer (data.receive r.bytes) r.res) =
      settle n (data.receive r.bytes).timestamp (interpretTransfer dev (data.receive r.bytes) r.res) := fun _ => rfl
    rw [decodingEvents] at hquiet
    simp only [eventLoop_cons, loopTurn]
    split
    · exact .refl true dev _ rfl
    · generalize interpretTransfer dev (data.receive r.bytes) r.res = d at hquiet hstep
      cases hres : d.res with
      | complete =>
        simp only [settle, hres] at hstep ⊢
        intro n
        obtain ⟨steps, n', hafter, hsame, hout⟩ :=
          completeFrame_simulated hcbs d.dev (data.receive r.bytes).timestamp reads n
        refine ⟨.transfer (data.receive r.bytes) r.res :: steps, n', ?_, hsame, ?_⟩
        · rw [after_cons, hstep, hafter]
        · rw [outputs_cons, hstep, decoding_turn hquiet, ← hout, List.append_assoc, List.singleton_append]
      | error =>
        simp only [settle, hres] at hstep ⊢
        refine fun n => ⟨[.transfer (data.receive r.bytes) r.res], n, ?_, fun _ => rfl, ?_⟩
        · rw [after_cons, hstep, after_nil]
        · rw [outputs_cons, hstep, outputs_nil, List.append_nil, decoding_turn hquiet]
          rfl
      | inProgress | begin =>
        have htransfer : Simulated true dev d.dev ([.hidRead (remaining deadline nanos), .received r] ++ d.events) := by
          simp only [settle, hres] at hstep
          refine fun n => ⟨[.transfer (data.receive r.bytes) r.res], n, ?_, fun _ => rfl, ?_⟩
          · rw [after_cons, hstep, after_nil]
          · rw [outputs_cons, hstep, outputs_nil, List.append_nil, decoding_append, decoding_quiet hquiet]
            rfl
        dsimp only
        split
        · exact htransfer.trans (ih (clock 0) (fun i => clock (i + 1)) (data.receive r.bytes) d.dev)
        · exact htransfer.trans (.refl true d.dev _ rfl)

theorem call_simulated (milliseconds : Int32) (clock : Clock) (env : Env) :
    let c := touchmouseProcessEventsTimeout cbs milliseconds clock env
    Simulated c.ret.isSome env.dev c.env.dev c.events := by
  have henter : ∀ deadline nanos clock', let c := enterLoop cbs deadline nanos clock' env
      Simulated c.ret.isSome env.dev c.env.dev c.events := by
    intro deadline nanos clock'
    simp only [enterLoop_eq]
    split
    · exact .refl true env.dev _ rfl
    · exact eventLoop_simulated hcbs _ _ _ _ _ _
  simp only [touchmouseProcessEventsTimeout_eq]
  split
  · exact (Simulated.refl true env.dev [.clock (clock 0)] rfl).trans (henter _ _ _)
  · exact (Simulated.refl true env.dev [.clock (clock 0), .clock (clock 1)] rfl).trans (henter _ _ _)

theorem exec_simulated (env : Env) (op : Op) :
    Simulated (op.exec cbs env).ret.isSome env.dev (op.exec cbs env).env.dev (op.exec cbs env).events := by
  cases op with
  | setImageUpdateCallback callback => exact fun n => ⟨[.setImageUpdateCallback callback], n, rfl, fun _ => rfl, rfl⟩
  | setDeviceUserdata userdata => exact fun n => ⟨[.setDeviceUserdata userdata], n, rfl, fun _ => rfl, rfl⟩
  | processEventsTimeout milliseconds clock => exact call_simulated hcbs milliseconds clock env

theorem run_simulated_callbacks (ops : List Op) (env : Env) :
    Simulated (run cbs ops env).returned env.dev (run cbs ops env).env.dev (run cbs ops env).events := by
  refine run_induction (fun _ => True) (fun env r => Simulated r.returned env.dev r.env.dev r.events)
    (fun env => .refl true env.dev _ rfl) ?_ ?_ (fun _ _ => trivial) env
  · intro env op _ n
    obtain ⟨steps, n', hafter, -, hout⟩ := exec_simulated hcbs env op n
    exact ⟨steps, n', hafter, fun h => (Bool.false_ne_true h).elim, hout⟩
  · intro env op code rest _ hret hrest
    have hop := exec_simulated hcbs env op
    rw [hret] at hop
    exact hop.trans ((Simulated.refl true _ [.returned code] rfl).trans hrest)

end Simulation

theorem reenter_simulated (program : Program) (depth : Nat) : SimulatedCallbacks (reenter program depth) := by
  induction depth with
  | zero => exact fun _ _ env => .refl true env.dev _ rfl
  | succ depth ih => exact fun cb info env => run_simulated_callbacks ih (program cb info env) env

/-- **A run of a program is a run of the host**, whatever its callbacks do. -/
theorem run_simulated (program : Program) (depth : Nat) (ops : List Op) (env : Env) :
    let r := run (reenter program depth) ops env
    Simulated r.returned env.dev r.env.dev r.events :=
  run_simulated_callbacks (reenter_simulated program depth) ops env

/-! ## The index -/

/-- The index is in bounds where `process_nybble` is called, and so are its
writes to `partial_image`. -/
def Event.Indexed : Event → Prop
  | .processNybble entry _ => entry.bufIndex ≤ 180
  | .access (.partialImage i) => i < 181
  | _ => True

/-- Unpacking does not write pixels. -/
theorem unpack_indexed (p : Vector UInt8 181) {i : Nat} : Access.partialImage i ∉ (unpack p).accesses := by
  rw [unpack_accesses]
  simp

/-- A nybble from a state with room. -/
theorem decodeNybble_indexed {d : Device} (hroom : d.bufIndex ≤ 180) (t : Nat) (nybble : UInt8) :
    (decodeNybble d t nybble).Keeps
      (fun res dev => dev.bufIndex ≤ 181 ∧ (res = .inProgress → dev.bufIndex ≤ 180)) Event.Indexed where
  events := by
    intro e he
    simp only [decodeNybble, List.mem_cons, List.mem_map] at he
    rcases he with rfl | rfl | ⟨a, ha, rfl⟩
    · trivial
    · exact hroom
    · cases a with
      | partialImage i =>
        rcases processNybble_cases d nybble with hp | ⟨state, accesses, htransition, hp⟩ <;> rw [hp] at ha
        · cases ha
        · have hmem := (finishNybble_mem ha).resolve_right (unpack_indexed _)
          obtain ⟨j, hj, hlt⟩ := (htransition.writes hroom).2 _ hmem
          rwa [Access.partialImage.inj hj]
      | _ => trivial
  state := by
    simp only [decodeNybble]
    rcases processNybble_cases d nybble with hp | ⟨state, accesses, htransition, hp⟩ <;> rw [hp]
    · exact ⟨Nat.le_succ_of_le hroom, fun h => by cases h⟩
    · have hle := (htransition.writes hroom).1
      rw [finishNybble_bufIndex]
      refine ⟨hle, fun hres => ?_⟩
      have hfull : state.bufIndex ≠ 181 := fun hfull => by
        simp only [finishNybble_full hfull, reduceCtorEq] at hres
      exact Nat.le_of_lt_succ (Nat.lt_of_le_of_ne hle hfull)

/-- A report that is not decoded on top of a finished frame: it carries
another timestamp, or no data. -/
def Allowed (dev : Device) (data : Buffer) (res : Int) : Prop :=
  IsTouchReport data res → dev.bufIndex = 181 → data.dataLength ≠ 0 → data.timestamp ≠ dev.timestampInProgress

/-- The first nybble of a report with data is decoded in the state that the
report finds. -/
theorem interpretReport_first (dev : Device) {data : Buffer} (h : data.dataLength ≠ 0) :
    .processNybble (matchTimestamp dev data.timestamp) (data.data 0 &&& 0xf) ∈ (interpretReport dev data).events := by
  obtain ⟨n, hn⟩ := Nat.exists_eq_succ_of_ne_zero h
  simp only [interpretReport, Matching.interpretReport, hn, decodeLoop, decodeByte, List.mem_append]
  right
  split <;> split <;> simp [decodeNybble]

/-- A report that finds room is decoded within it. -/
theorem interpretReport_indexed {dev : Device} {data : Buffer} (hroom : (matchTimestamp dev data.timestamp).bufIndex ≤ 180) :
    (∀ e ∈ (interpretReport dev data).events, e.Indexed) ∧ (interpretReport dev data).dev.bufIndex ≤ 181 := by
  have hloop := decodeLoop_keeps data 0 data.dataLength
    (fun i _ _ dev n _ h => decodeNybble_indexed (h.2 rfl) i n) ⟨Nat.le_succ_of_le hroom, fun _ => hroom⟩
  refine ⟨fun e he => ?_, hloop.state.1⟩
  simp only [interpretReport, Matching.interpretReport, dumpReport, List.mem_append, List.mem_map, List.mem_singleton] at he
  rcases he with (⟨t, -, rfl⟩ | rfl) | he
  · trivial
  · trivial
  · exact hloop.events e he

/-- The dump of a transfer has no part in it. -/
theorem interpretTransfer_dump (dev : Device) {data : Buffer} {res : Int} (h : IsTouchReport data res) :
    (∀ e ∈ (interpretTransfer dev data res).events, e.Indexed) ↔ ∀ e ∈ (interpretReport dev data).events, e.Indexed := by
  rw [interpretTransfer_touch dev h]
  simp only [List.forall_mem_append, List.forall_mem_map]
  exact and_iff_right fun _ _ => trivial

/-- **One transfer**, from a state that is in progress or complete. -/
theorem interpretTransfer_indexed {dev : Device} (hdev : dev.bufIndex ≤ 181) (data : Buffer) (res : Int) :
    ((∀ e ∈ (interpretTransfer dev data res).events, e.Indexed) ↔ Allowed dev data res) ∧
      (Allowed dev data res → (interpretTransfer dev data res).dev.bufIndex ≤ 181) := by
  by_cases htouch : IsTouchReport data res
  · rw [interpretTransfer_dump dev htouch, interpretTransfer_touch dev htouch]
    by_cases hroom : (matchTimestamp dev data.timestamp).bufIndex ≤ 180
    · obtain ⟨hevents, hindex⟩ := interpretReport_indexed hroom
      have hallowed : Allowed dev data res := by
        intro _ hfull _ hsame
        -- the guard does not reset on the timestamp in progress
        rw [matchTimestamp, if_neg (fun h => h.2 hsame)] at hroom
        dsimp only at hroom
        omega
      exact ⟨⟨fun _ => hallowed, fun _ => hevents⟩, fun _ => hindex⟩
    · have hfull : dev.bufIndex = 181 ∧ data.timestamp = dev.timestampInProgress := by
        unfold matchTimestamp at hroom
        split at hroom
        · exact absurd (Nat.zero_le 180) hroom
        · next hguard =>
          dsimp only at hroom
          have hindex : dev.bufIndex = 181 := by omega
          exact ⟨hindex, by_contra fun hne => hguard ⟨by omega, hne⟩⟩
      by_cases hdata : data.dataLength = 0
      · -- no data, so nothing is decoded
        have hloop : interpretReport dev data = ⟨matchTimestamp dev data.timestamp, .inProgress, dumpReport data⟩ := by
          simp [interpretReport, Matching.interpretReport, hdata, decodeLoop]
        have hmatch : (matchTimestamp dev data.timestamp).bufIndex = dev.bufIndex := by
          rw [matchTimestamp, if_neg (fun h => h.2 hfull.2)]
        rw [hloop]
        refine ⟨⟨fun _ _ _ h => absurd hdata h, fun _ e he => ?_⟩, fun _ => hmatch ▸ hdev⟩
        simp only [dumpReport, hdata, List.range_zero, List.map_nil, List.nil_append, List.mem_singleton] at he
        rw [he]
        trivial
      · have hnot : ¬ Allowed dev data res := fun h => h htouch hfull.1 hdata hfull.2
        have hbad : ¬ ∀ e ∈ (interpretReport dev data).events, e.Indexed := fun h =>
          hroom (h _ (interpretReport_first dev hdata))
        exact ⟨⟨fun h => absurd h hbad, fun h => absurd h hnot⟩, fun h => absurd h hnot⟩
  · rw [interpretTransfer_other dev htouch]
    refine ⟨⟨fun _ h => absurd h htouch, fun _ e he => ?_⟩, fun _ => hdev⟩
    obtain ⟨j, -, rfl⟩ := List.mem_map.1 he
    trivial

/-- A nybble ends a frame at the last pixel. -/
theorem processNybble_complete_full {d : Device} {nybble : UInt8} (h : (processNybble d nybble).res = .complete) :
    (processNybble d nybble).dev.bufIndex = 181 := by
  rcases processNybble_cases d nybble with hp | ⟨state, accesses, -, hp⟩ <;> rw [hp] at h ⊢
  · cases h
  · rw [finishNybble_bufIndex]
    by_contra hroom
    rw [finishNybble_room hroom] at h
    cases h

/-- And so does a transfer. -/
theorem interpretTransfer_complete {dev : Device} {data : Buffer} {res : Int}
    (h : (interpretTransfer dev data res).res = .complete) : (interpretTransfer dev data res).dev.bufIndex = 181 := by
  by_cases htouch : IsTouchReport data res
  · rw [interpretTransfer_touch dev htouch] at h ⊢
    have hstart : DecoderState.inProgress = .complete → (matchTimestamp dev data.timestamp).bufIndex = 181 := fun h => nomatch h
    have hloop := decodeLoop_keeps (Q := fun res dev => res = .complete → dev.bufIndex = 181) (P := fun _ => True) data 0
      data.dataLength (fun _ _ _ _ _ _ _ => ⟨fun _ _ => trivial, processNybble_complete_full⟩) hstart
    exact hloop.state h
  · rw [interpretTransfer_other dev htouch] at h
    cases h

/-- **Every callback is entered with the index at 181**, past the last pixel. -/
theorem callback_entered_full (h : Host) (step : HostStep) (hwaits : (hostStep h step).1.waiting = h.waiting + 1) :
    (hostStep h step).1.dev.bufIndex = 181 := by
  cases step with
  | transfer data res =>
    simp only [hostStep, settle] at hwaits ⊢
    split at hwaits
    · next hcomplete => exact interpretTransfer_complete hcomplete
    · exact absurd hwaits (Nat.succ_ne_self _).symm
    · exact absurd hwaits (Nat.succ_ne_self _).symm
  | callbackReturns =>
    obtain ⟨dev, n⟩ := h
    cases n with
    | zero => exact absurd hwaits (Nat.succ_ne_self _).symm
    | succ n =>
      simp only [hostStep] at hwaits
      omega
  | setImageUpdateCallback | setDeviceUserdata => simp [hostStep] at hwaits

/-- A step of the host that decodes no report on top of a finished frame. -/
def HostStep.Allowed (h : Host) : HostStep → Prop
  | .transfer data res => TouchMouse.Allowed h.dev data res
  | _ => True

/-- Every step is allowed in the state it is taken in. -/
def AllAllowed (h : Host) (steps : List HostStep) : Prop :=
  ∀ before step later, steps = before ++ step :: later → step.Allowed (after hostStep h before)

theorem settle_indexed (waiting : Nat) (timestamp : UInt8) (d : Decoding) :
    ((∀ e ∈ (settle waiting timestamp d).2, e.Indexed) ↔ ∀ e ∈ d.events, e.Indexed) ∧
      (d.dev.bufIndex ≤ 181 → (settle waiting timestamp d).1.dev.bufIndex ≤ 181) := by
  unfold settle
  split
  · refine ⟨?_, fun h => h⟩
    rw [List.forall_mem_append]
    exact and_iff_left fun e he => by rw [List.mem_singleton.1 he]; trivial
  · refine ⟨?_, fun _ => Nat.zero_le 181⟩
    rw [List.forall_mem_append]
    exact and_iff_left fun e he => by rw [List.mem_singleton.1 he]; trivial
  · exact ⟨Iff.rfl, fun h => h⟩

/-- **Runs of the host**: the index is in bounds all along exactly if every
step is allowed. -/
theorem host_indexed_iff {h : Host} (hindex : h.dev.bufIndex ≤ 181) (steps : List HostStep) :
    (∀ e ∈ outputs hostStep h steps, e.Indexed) ↔ AllAllowed h steps := by
  refine outputs_forall_iff hostStep (I := fun h => h.dev.bufIndex ≤ 181) ?_ ?_ hindex steps
  · intro h s hindex
    cases s with
    | transfer data res =>
      exact (settle_indexed _ _ _).1.trans (interpretTransfer_indexed hindex data res).1
    | callbackReturns =>
      obtain ⟨dev, n⟩ := h
      cases n <;> simp [hostStep, HostStep.Allowed]
    | setImageUpdateCallback | setDeviceUserdata => simp [hostStep, HostStep.Allowed]
  · intro h s hindex hallowed
    cases s with
    | transfer data res =>
      exact (settle_indexed _ _ _).2 ((interpretTransfer_indexed hindex data res).2 hallowed)
    | callbackReturns =>
      obtain ⟨dev, n⟩ := h
      cases n with
      | zero => exact hindex
      | succ n => exact Nat.zero_le 181
    | setImageUpdateCallback | setDeviceUserdata => exact hindex

theorem decoding_indexed (es : List Event) : (∀ e ∈ decoding es, e.Indexed) ↔ ∀ e ∈ es, e.Indexed := by
  constructor
  · intro h e he
    by_cases hd : e.decodes
    · exact h e (List.mem_filter.2 ⟨he, hd⟩)
    · cases e <;> trivial
  · exact fun h e he => h e (List.mem_filter.1 he).1

/-- **Callbacks that call back.** Every run of a program from an opened
device, with callbacks to any depth, decodes as some steps of the host; and
the index is in bounds at every call of `process_nybble`, and every write to
`partial_image` inside it, exactly if those steps decode no report with data
on top of a finished frame under its timestamp. When the callback is entered the
index is 181 (`callback_entered_full`), so there the device is never as it is
between calls. -/
theorem callback_reentry_indexed_iff {handle : Addr} {opened : Device} (hopen : touchmouseOpen handle = some opened)
    (program : Program) (depth : Nat) (ops : List Op) (reads : List ReadResult) :
    let es := (run (reenter program depth) ops ⟨opened, reads⟩).2
    (∃ steps, outputs hostStep ⟨opened, 0⟩ steps = decoding es) ∧
      ∀ steps, outputs hostStep ⟨opened, 0⟩ steps = decoding es →
        ((∀ e ∈ es, e.Indexed) ↔ AllAllowed ⟨opened, 0⟩ steps) := by
  intro es
  obtain ⟨steps, -, -, -, hout⟩ := run_simulated program depth ops ⟨opened, reads⟩ 0
  refine ⟨⟨steps, hout⟩, fun steps hsteps => ?_⟩
  have hindex : opened.bufIndex ≤ 181 := Nat.le_succ_of_le (opened_tracks hopen).room
  rw [← decoding_indexed, ← hsteps]
  exact host_indexed_iff hindex steps

/-- A frame of zeroes in one report. -/
def wholeFrame (timestamp : UInt8) : Packet := ⟨timestamp, List.replicate 10 0xff ++ [0]⟩

/-- A callback that processes events once more. -/
def pollAgain : Program := fun _ _ _ => [.processEventsTimeout (-1) fun _ => 1]

/-- A report without data, and no frame being shown. -/
theorem callback_reentry_indexed_alone :
    .report 1 [] ∈ (run (reenter pollAgain 1) [.processEventsTimeout (-1) fun _ => 1]
        ⟨(touchmouseOpen 1).get (by decide), [.ofPacket ⟨1, []⟩ (by decide)]⟩).2 ∧
      ∀ e ∈ (run (reenter pollAgain 1) [.processEventsTimeout (-1) fun _ => 1]
        ⟨(touchmouseOpen 1).get (by decide), [.ofPacket ⟨1, []⟩ (by decide)]⟩).2, e.Indexed := by
  refine ⟨by decide +kernel, ?_⟩
  refine ((callback_reentry_indexed_iff (Option.some_get _).symm pollAgain 1 _ _).2
    [.transfer (Buffer.zero.receive (ReadResult.ofPacket ⟨1, []⟩ (by decide)).bytes) 32] (by decide +kernel)).2 ?_
  intro before step later he
  cases before with
  | nil =>
    obtain ⟨rfl, -⟩ := List.cons.inj he
    exact fun _ hfull => absurd hfull (by decide)
  | cons b before => simp at he

/-- Such a callback is invoked for a frame and reads a report that carries the
timestamp of the frame: its first pixel is written past the array. -/
theorem callback_reentry_not_indexed :
    ¬ ∀ e ∈ (run (reenter pollAgain 1) [.setImageUpdateCallback 1, .processEventsTimeout (-1) fun _ => 1]
      ⟨(touchmouseOpen 1).get (by decide),
        [.ofPacket (wholeFrame 1) (by decide), .ofPacket ⟨1, [0]⟩ (by decide)]⟩).2, e.Indexed := by
  intro h
  have hany : ((run (reenter pollAgain 1) [.setImageUpdateCallback 1, .processEventsTimeout (-1) fun _ => 1]
      ⟨(touchmouseOpen 1).get (by decide),
        [.ofPacket (wholeFrame 1) (by decide), .ofPacket ⟨1, [0]⟩ (by decide)]⟩).2.any fun e =>
          decide (e = .access (.partialImage 181))) = true := by
    decide +kernel
  obtain ⟨e, he, heq⟩ := List.any_eq_true.1 hany
  have hbad := h e he
  rw [of_decide_eq_true heq] at hbad
  exact Nat.lt_irrefl 181 hbad

end TouchMouse
