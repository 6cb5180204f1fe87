import TouchMouse.Report.Step
import TouchMouse.Decoder.Transition

/-!
# One turn of the event loop

Everything that one turn of the loop of `touchmouse_process_events_timeout`
can do when the callbacks leave the device alone (`eventLoop_turn`), and
everything a call can do before its loop (`call_cases`). The events are seen
through projections, one for each kind a statement talks about; what happens
while a report is decoded is `quiet` to all of them but `signals`.
-/

namespace TouchMouse

/-! ## Projections of the events -/

def Event.received? : Event → Option ReadResult
  | .received r => some r
  | _ => none

def Event.callback? : Event → Option (Addr × CallbackInfo)
  | .callback cb info => some (cb, info)
  | _ => none

def Event.clock? : Event → Option UInt64
  | .clock nanos => some nanos
  | _ => none

def Event.hidRead? : Event → Option Int32
  | .hidRead milliseconds => some milliseconds
  | _ => none

/-- What `hid_read_timeout` returned, in order. -/
def received (es : List Event) : List ReadResult := es.filterMap Event.received?

/-- The callbacks invoked, with their addresses. -/
def callbacks (es : List Event) : List (Addr × CallbackInfo) := es.filterMap Event.callback?

/-- The readings of the clock. -/
def clockReadings (es : List Event) : List UInt64 := es.filterMap Event.clock?

/-- The timeouts passed to `hid_read_timeout`. -/
def hidReads (es : List Event) : List Int32 := es.filterMap Event.hidRead?

/-- What happens while a report is decoded. -/
def Event.quiet : Event → Prop
  | .processNybble _ _ => True
  | .access _ => True
  | .report _ _ => True
  | _ => False

theorem filterMap_quiet {α : Type} {f : Event → Option α} (hf : ∀ e : Event, e.quiet → f e = none) {es : List Event}
    (h : ∀ e ∈ es, e.quiet) : es.filterMap f = [] :=
  List.filterMap_eq_nil_iff.2 fun e he => hf e (h e he)

theorem received_quiet {es : List Event} (h : ∀ e ∈ es, e.quiet) : received es = [] :=
  filterMap_quiet (fun e he => by cases e <;> first | rfl | cases he) h

theorem callbacks_quiet {es : List Event} (h : ∀ e ∈ es, e.quiet) : callbacks es = [] :=
  filterMap_quiet (fun e he => by cases e <;> first | rfl | cases he) h

theorem clockReadings_quiet {es : List Event} (h : ∀ e ∈ es, e.quiet) : clockReadings es = [] :=
  filterMap_quiet (fun e he => by cases e <;> first | rfl | cases he) h

theorem hidReads_quiet {es : List Event} (h : ∀ e ∈ es, e.quiet) : hidReads es = [] :=
  filterMap_quiet (fun e he => by cases e <;> first | rfl | cases he) h

@[simp] theorem signals_append (es fs : List Event) : signals (es ++ fs) = signals es ++ signals fs :=
  List.filterMap_append
@[simp] theorem received_append (es fs : List Event) : received (es ++ fs) = received es ++ received fs :=
  List.filterMap_append
@[simp] theorem callbacks_append (es fs : List Event) : callbacks (es ++ fs) = callbacks es ++ callbacks fs :=
  List.filterMap_append
@[simp] theorem clockReadings_append (es fs : List Event) :
    clockReadings (es ++ fs) = clockReadings es ++ clockReadings fs := List.filterMap_append
@[simp] theorem hidReads_append (es fs : List Event) : hidReads (es ++ fs) = hidReads es ++ hidReads fs :=
  List.filterMap_append

/-! ## Decoding is quiet -/

/-- A stretch of decoding whose events satisfy `P`, and whose last state
satisfies `Q` of the return code it ends with. -/
structure Decoding.Keeps (Q : DecoderState → Device → Prop) (P : Event → Prop) (c : Decoding) : Prop where
  events : ∀ e ∈ c.events, P e
  state : Q c.res c.dev

/-- The return codes of a byte are those of its nybbles. -/
theorem decodeByte_res (data : Buffer) (t : Nat) (dev : Device) :
    (decodeByte data t dev).res = .inProgress ∨ (decodeByte data t dev).res = .complete ∨
      (decodeByte data t dev).res = .error := by
  have hlow := processNybble_res dev (data.data t &&& 0xf)
  simp only [decodeByte]
  split
  · exact hlow
  · exact hlow
  · exact processNybble_res _ _

section Keeps

variable {Q : DecoderState → Device → Prop} {P : Event → Prop}

theorem low_lt (b : UInt8) : b &&& 0xf < 16 := by
  apply UInt8.lt_iff_toNat_lt.2
  rw [UInt8.toNat_and]
  exact Nat.lt_of_le_of_lt Nat.and_le_right (by decide)

theorem high_lt (b : UInt8) : (b &&& 0xf0) >>> 4 < 16 := by
  apply UInt8.lt_iff_toNat_lt.2
  have hb := (b &&& 0xf0).toNat_lt
  show ((b &&& 0xf0) >>> 4).toNat < 16
  rw [UInt8.toNat_shiftRight, show (4 : UInt8).toNat % 8 = 4 from rfl, Nat.shiftRight_eq_div_pow]
  omega

/-- What each nybble keeps while decoding is in progress a byte keeps. -/
theorem decodeByte_keeps (data : Buffer) (t : Nat)
    (h : ∀ dev n, n < 16 → Q .inProgress dev → (decodeNybble dev t n).Keeps Q P) {dev : Device}
    (hdev : Q .inProgress dev) : (decodeByte data t dev).Keeps Q P := by
  have hlow := h dev _ (low_lt (data.data t)) hdev
  simp only [decodeByte]
  split
  · exact hlow
  · exact hlow
  · next hcomplete herror =>
    have hres : (decodeNybble dev t (data.data t &&& 0xf)).res = .inProgress :=
      (processNybble_res dev _).resolve_right (not_or.2 ⟨hcomplete, herror⟩)
    have hstate := hlow.state
    rw [hres] at hstate
    have hhigh := h _ _ (high_lt (data.data t)) hstate
    exact ⟨fun e he => (List.mem_append.1 he).elim (hlow.events e) (hhigh.events e), hhigh.state⟩

/-- The decode loop keeps it too. The nybbles are those of its turns. -/
theorem decodeLoop_keeps (data : Buffer) (t n : Nat)
    (h : ∀ i, t ≤ i → i < t + n → ∀ dev n, n < 16 → Q .inProgress dev → (decodeNybble dev i n).Keeps Q P) {dev : Device}
    (hdev : Q .inProgress dev) : (decodeLoop data t n dev).Keeps Q P := by
  induction n generalizing t dev with
  | zero => exact ⟨by simp [decodeLoop], hdev⟩
  | succ n ih =>
    have hbyte := decodeByte_keeps data t (h t (by omega) (by omega)) hdev
    simp only [decodeLoop]
    split
    · exact hbyte
    · exact hbyte
    · next hcomplete herror =>
      have hres : (decodeByte data t dev).res = .inProgress :=
        (decodeByte_res data t dev).resolve_right (not_or.2 ⟨hcomplete, herror⟩)
      have hstate := hbyte.state
      rw [hres] at hstate
      have hrest := ih (t + 1) (fun i h₁ h₂ => h i (by omega) (by omega)) hstate
      exact ⟨fun e he => (List.mem_append.1 he).elim (hbyte.events e) (hrest.events e), hrest.state⟩

end Keeps

/-- A property of the events of single nybbles holds of the events of a byte. -/
theorem decodeByte_events {P : Event → Prop} (data : Buffer) (t : Nat)
    (h : ∀ dev n, ∀ e ∈ (decodeNybble dev t n).events, P e) (dev : Device) :
    ∀ e ∈ (decodeByte data t dev).events, P e :=
  (decodeByte_keeps (Q := fun _ _ => True) data t (fun dev n _ _ => ⟨h dev n, trivial⟩) trivial).events

/-- And of the events of the decode loop, over the indices of its turns. -/
theorem decodeLoop_events {P : Event → Prop} (data : Buffer) (t n : Nat)
    (h : ∀ i, t ≤ i → i < t + n → ∀ dev n, ∀ e ∈ (decodeNybble dev i n).events, P e) (dev : Device) :
    ∀ e ∈ (decodeLoop data t n dev).events, P e :=
  (decodeLoop_keeps (Q := fun _ _ => True) data t n (fun i h₁ h₂ dev n _ _ => ⟨h i h₁ h₂ dev n, trivial⟩) trivial).events

/-- One nybble is quiet and gives no signal. -/
theorem decodeNybble_quiet (dev : Device) (t : Nat) (n : UInt8) :
    ∀ e ∈ (decodeNybble dev t n).events, e.quiet ∧ e.signal? = none := by
  intro e he
  simp only [decodeNybble, List.mem_cons, List.mem_map] at he
  rcases he with rfl | rfl | ⟨a, -, rfl⟩ <;> exact ⟨trivial, rfl⟩

theorem accesses_quiet {α : Type} (f : α → Access) (l : List α) :
    ∀ e ∈ l.map (fun x => Event.access (f x)), e.quiet ∧ e.signal? = none := by
  intro e he
  obtain ⟨x, -, rfl⟩ := List.mem_map.1 he
  exact ⟨trivial, rfl⟩

theorem signals_none {es : List Event} (h : ∀ e ∈ es, e.quiet ∧ e.signal? = none) : signals es = [] :=
  List.filterMap_eq_nil_iff.2 fun e he => (h e he).2

theorem interpretTransfer_touch (dev : Device) {data : Buffer} {res : Int} (h : IsTouchReport data res) :
    interpretTransfer dev data res =
      { interpretReport dev data with
        events := (List.range res.toNat).map (fun j => .access (.transfer j)) ++ (interpretReport dev data).events } :=
  if_pos h

theorem interpretTransfer_other (dev : Device) {data : Buffer} {res : Int} (h : ¬ IsTouchReport data res) :
    interpretTransfer dev data res =
      ⟨dev, .inProgress, (List.range res.toNat).map fun j => .access (.transfer j)⟩ :=
  if_neg h

/-- Interpreting a read is quiet; it shows a touch report, and no other read. -/
theorem interpretTransfer_events (dev : Device) (data : Buffer) (res : Int) :
    (∀ e ∈ (interpretTransfer dev data res).events, e.quiet) ∧
      signals (interpretTransfer dev data res).events = if IsTouchReport data res then [.report data.packet] else [] := by
  have htransfer := accesses_quiet Access.transfer (List.range res.toNat)
  by_cases h : IsTouchReport data res
  · have hdump := accesses_quiet Access.data (List.range data.dataLength)
    have hloop := decodeLoop_events data 0 data.dataLength (fun i _ _ dev n => decodeNybble_quiet dev i n)
      (matchTimestamp dev data.timestamp)
    simp only [interpretTransfer_touch dev h, interpretReport, Matching.interpretReport, dumpReport, signals_append,
      signals_none htransfer, signals_none hdump, signals_none hloop, if_pos h]
    refine ⟨fun e he => ?_, rfl⟩
    simp only [List.mem_append, List.mem_singleton] at he
    rcases he with he | (he | rfl) | he
    · exact (htransfer e he).1
    · exact (hdump e he).1
    · trivial
    · exact (hloop e he).1
  · simp only [interpretTransfer_other dev h, signals_none htransfer, if_neg h, and_true]
    exact fun e he => (htransfer e he).1

/-! ## What decoding leaves alone -/

/-- The fields of the device that decoding does not touch. -/
def Device.host (d : Device) : Addr × Addr × Addr × UInt8 := (d.dev, d.userdata, d.cb, d.timestampLastCompleted)

theorem zeroRun_host (n : Nat) (d : Device) : (zeroRun n d).1.host = d.host := by
  induction n generalizing d with
  | zero => rfl
  | succ n ih => exact ih (writePixel d 0)

theorem finishNybble_host (d : Device) (accesses : List Access) : (finishNybble d accesses).dev.host = d.host := by
  unfold finishNybble
  by_cases h : d.bufIndex = 181
  · simp only [if_pos h, Device.host]
  · simp only [if_neg h]

theorem processNybble_host (d : Device) (n : UInt8) : (processNybble d n).dev.host = d.host := by
  unfold processNybble
  split
  · rfl
  · split
    · split
      · rfl
      · rw [finishNybble_host]
        exact zeroRun_host (n.toNat + 3) d
    · split
      · exact finishNybble_host _ _
      · exact finishNybble_host _ _

theorem decodeBytes_host (d : Device) (bs : List UInt8) : (decodeBytes d bs).1.host = d.host := by
  induction bs generalizing d with
  | nil => rfl
  | cons b bs ih =>
    have hlow := processNybble_host d (b &&& 0xf)
    have hhigh := (processNybble_host (processNybble d (b &&& 0xf)).dev ((b &&& 0xf0) >>> 4)).trans hlow
    simp only [decodeBytes]
    split
    · exact hlow
    · exact hlow
    · split
      · exact hhigh
      · exact hhigh
      · exact (ih _).trans hhigh

theorem matchTimestamp_host (d : Device) (timestamp : UInt8) : (matchTimestamp d timestamp).host = d.host := by
  unfold matchTimestamp
  split <;> rfl

theorem interpretTransfer_host (dev : Device) (data : Buffer) (res : Int) :
    (interpretTransfer dev data res).dev.host = dev.host := by
  by_cases h : IsTouchReport data res
  · have heq := congrArg Prod.fst (interpretReport_eq dev data)
    rw [interpretTransfer_touch dev h]
    show (interpretReport dev data).dev.host = _
    rw [show (interpretReport dev data).dev = _ from heq, decodeBytes_host, matchTimestamp_host]
  · rw [interpretTransfer_other dev h]

/-! ## Reads as steps -/

/-- What the loop does with a read, with the exit its decoding ends in. -/
theorem interpretTransfer_step (dev : Device) (data : Buffer) (r : ReadResult) :
    readStep (dev, data) r =
      let d := interpretTransfer dev (data.receive r.bytes) r.res
      let e := exits (data.receive r.bytes).timestamp (d.dev, d.res)
      ((e.1, data.receive r.bytes), signals d.events ++ e.2) := by
  have hev := (interpretTransfer_events dev (data.receive r.bytes) r.res).2
  by_cases h : IsTouchReport (data.receive r.bytes) r.res
  · have heq := interpretReport_eq dev (data.receive r.bytes)
    simp only [hev, if_pos h]
    simp only [readStep, if_pos h, reportStep, ← heq, interpretTransfer_touch dev h]
    rfl
  · simp only [hev, if_neg h]
    simp only [readStep, if_neg h, interpretTransfer_other dev h]
    rfl

theorem receive_nil (data : Buffer) : data.receive [] = data := by
  ext i hi
  simp [Buffer.receive]

/-- A failed read changes nothing, not even the buffer. -/
theorem readStep_failed (s : Device × Buffer) {r : ReadResult} (h : r.res < 0) : readStep s r = (s, []) := by
  have hbytes : r.bytes = [] := by
    have := r.length_eq
    rw [Int.toNat_of_nonpos (by omega)] at this
    exact List.length_eq_zero_iff.1 this
  have hnot : ¬ IsTouchReport s.2 r.res := fun ht => by
    have := ht.1
    omega
  simp only [readStep, hbytes, receive_nil, if_neg hnot]

/-! ## One turn -/

/-- What one turn of the loop does with the read `r`. The events of its
decoding are `es`; `after` is the device it leaves. -/
inductive LoopTurn (deadline nanos : UInt64) (clock : Clock) (data : Buffer) (dev : Device) (r : ReadResult)
    (reads : List ReadResult) (es : List Event) : CallResult → Prop where
  | readFailed (failed : r.res < 0) :
      LoopTurn deadline nanos clock data dev r reads es
        ⟨some (-2), ⟨dev, reads⟩, [.hidRead (remaining deadline nanos), .received r]⟩
  | delivered {after : Device} {timestamp : UInt8} {image : Vector UInt8 195} (read : 0 ≤ r.res)
      (step : readStep (dev, data) r = ((after, data.receive r.bytes), signals es ++ [.frame timestamp image]))
      (reset : resetDecoder after = after) (last : after.timestampLastCompleted = timestamp)
      (host : (after.dev, after.userdata, after.cb) = (dev.dev, dev.userdata, dev.cb)) :
      LoopTurn deadline nanos clock data dev r reads es
        ⟨some 0, ⟨after, reads⟩, [.hidRead (remaining deadline nanos), .received r] ++ es ++
          [.callback dev.cb ⟨dev.userdata, image, timestamp⟩]⟩
  | decodeFailed {after : Device} {timestamp : UInt8} (read : 0 ≤ r.res)
      (step : readStep (dev, data) r = ((after, data.receive r.bytes), signals es ++ [.error timestamp]))
      (reset : resetDecoder after = after) (host : after.host = dev.host) :
      LoopTurn deadline nanos clock data dev r reads es
        ⟨some (-1), ⟨after, reads⟩, [.hidRead (remaining deadline nanos), .received r] ++ es ++
          [.decodeError timestamp]⟩
  | timedOut {after : Device} (read : 0 ≤ r.res)
      (step : readStep (dev, data) r = ((after, data.receive r.bytes), signals es))
      (host : after.host = dev.host) (late : ¬ clock 0 < deadline) :
      LoopTurn deadline nanos clock data dev r reads es
        ⟨some 0, ⟨after, reads⟩, [.hidRead (remaining deadline nanos), .received r] ++ es ++ [.clock (clock 0)]⟩
  | goesOn {after : Device} {rest : CallResult} (read : 0 ≤ r.res)
      (step : readStep (dev, data) r = ((after, data.receive r.bytes), signals es))
      (host : after.host = dev.host) (early : clock 0 < deadline)
      (loop : rest = eventLoop passive deadline (clock 0) (fun i => clock (i + 1)) (data.receive r.bytes) after reads) :
      LoopTurn deadline nanos clock data dev r reads es
        ⟨rest.ret, rest.env, [.hidRead (remaining deadline nanos), .received r] ++ es ++
          .clock (clock 0) :: rest.events⟩

/-- The events of the decoding of a read. -/
def decodingEvents (dev : Device) (data : Buffer) (r : ReadResult) : List Event :=
  (interpretTransfer dev (data.receive r.bytes) r.res).events

theorem decodingEvents_quiet (dev : Device) (data : Buffer) (r : ReadResult) :
    ∀ e ∈ decodingEvents dev data r, e.quiet :=
  (interpretTransfer_events dev (data.receive r.bytes) r.res).1

/-- **One turn**, for every read, clock and state. -/
theorem eventLoop_turn (deadline nanos : UInt64) (clock : Clock) (data : Buffer) (dev : Device) (r : ReadResult)
    (reads : List ReadResult) :
    LoopTurn deadline nanos clock data dev r reads (decodingEvents dev data r)
      (eventLoop passive deadline nanos clock data dev (r :: reads)) := by
  have hstep := interpretTransfer_step dev data r
  have hhost := interpretTransfer_host dev (data.receive r.bytes) r.res
  simp only [eventLoop_cons, loopTurn, decodingEvents]
  split
  · next hfail => exact .readFailed hfail
  · next hread =>
    have hread : 0 ≤ r.res := by omega
    generalize interpretTransfer dev (data.receive r.bytes) r.res = d at hstep hhost
    cases hres : d.res with
    | complete =>
      simp only [hres, exits] at hstep
      simp only [Device.host, Prod.mk.injEq] at hhost
      obtain ⟨hdev, huserdata, hcb, -⟩ := hhost
      simp only [completeFrame, passive, huserdata, hcb] at hstep ⊢
      exact .delivered hread hstep rfl rfl (by simp [resetDecoder, hdev])
    | error =>
      simp only [hres, exits] at hstep
      exact .decodeFailed hread hstep rfl hhost
    | inProgress | begin =>
      simp only [hres, exits, List.append_nil] at hstep
      dsimp only
      split
      · next hearly => exact .goesOn hread hstep hhost hearly rfl
      · next hlate => exact .timedOut hread hstep hhost hlate

/-! ## Before the loop -/

/-- The deadline a call computes. -/
def deadlineOf (milliseconds : Int32) (clock : Clock) : UInt64 :=
  if milliseconds < 0 then -1 else finiteDeadline milliseconds (clock 0)

/-- The index of the reading that `nanos` starts with. -/
def startIndex (milliseconds : Int32) : Nat := if milliseconds < 0 then 0 else 1

/-- The readings a call makes before its loop. -/
def startEvents (milliseconds : Int32) (clock : Clock) : List Event :=
  (List.range (startIndex milliseconds + 1)).map fun i => .clock (clock i)

/-- A call either finds its clock broken, or runs its loop. -/
theorem call_cases (milliseconds : Int32) (clock : Clock) (env : Env) :
    ((clock (startIndex milliseconds) = 0 ∨ deadlineOf milliseconds clock = 0) ∧
      touchmouseProcessEventsTimeout passive milliseconds clock env =
        ⟨some (-1), env, startEvents milliseconds clock⟩) ∨
    (clock (startIndex milliseconds) ≠ 0 ∧ deadlineOf milliseconds clock ≠ 0 ∧
      touchmouseProcessEventsTimeout passive milliseconds clock env =
        let c := eventLoop passive (deadlineOf milliseconds clock) (clock (startIndex milliseconds))
          (fun i => clock (i + startIndex milliseconds + 1)) .zero env.dev env.reads
        ⟨c.ret, c.env, startEvents milliseconds clock ++ c.events⟩) := by
  by_cases hms : milliseconds < 0
  · have hindex : startIndex milliseconds = 0 := if_pos hms
    have hdeadline : deadlineOf milliseconds clock = -1 := if_pos hms
    have hstart : startEvents milliseconds clock = [.clock (clock 0)] := by rw [startEvents, hindex]; rfl
    rw [hindex, hdeadline, hstart, touchmouseProcessEventsTimeout_eq, if_pos hms]
    by_cases hclock : clock 0 = 0 ∨ (-1 : UInt64) = 0
    · rw [enterLoop_eq, if_pos hclock]
      exact .inl ⟨hclock, rfl⟩
    · rw [enterLoop_eq, if_neg hclock]
      exact .inr ⟨fun h => hclock (.inl h), fun h => hclock (.inr h), rfl⟩
  · have hindex : startIndex milliseconds = 1 := if_neg hms
    have hdeadline : deadlineOf milliseconds clock = finiteDeadline milliseconds (clock 0) := if_neg hms
    have hstart : startEvents milliseconds clock = [.clock (clock 0), .clock (clock 1)] := by
      rw [startEvents, hindex]
      rfl
    rw [hindex, hdeadline, hstart, touchmouseProcessEventsTimeout_eq, if_neg hms]
    by_cases hclock : clock 1 = 0 ∨ finiteDeadline milliseconds (clock 0) = 0
    · rw [enterLoop_eq, if_pos hclock]
      exact .inl ⟨hclock, rfl⟩
    · rw [enterLoop_eq, if_neg hclock]
      exact .inr ⟨fun h => hclock (.inl h), fun h => hclock (.inr h), rfl⟩

end TouchMouse
