import TouchMouse.Call.Turn

/-!
# A call is a fold of its reads

With callbacks that leave the device alone, whatever the timeout, the clock
and the exit, a call leaves the device that `readStep` makes of the reads it
took, and shows what `readStep` shows (`call_fold`). Where the length bytes
are in range the receive buffers drop out too: a run of calls is a fold of
`reportStep` over the touch reports it took, however the reads were spread
over the calls (`schedule_folds` in `Call.Schedule`).
-/

namespace TouchMouse
open Transducer

/-- What a quiet list of events adds to a trace. -/
theorem received_turn {ms : Int32} {r : ReadResult} {es : List Event} (h : ∀ e ∈ es, e.quiet) (fs : List Event) :
    received ([.hidRead ms, .received r] ++ es ++ fs) = r :: received fs := by
  rw [received_append, received_append, received_quiet h]
  rfl

theorem signals_turn {ms : Int32} {r : ReadResult} {es : List Event} (fs : List Event) :
    signals ([.hidRead ms, .received r] ++ es ++ fs) = signals es ++ signals fs := by
  rw [signals_append, signals_append]
  rfl

theorem callbacks_turn {ms : Int32} {r : ReadResult} {es : List Event} (h : ∀ e ∈ es, e.quiet) (fs : List Event) :
    callbacks ([.hidRead ms, .received r] ++ es ++ fs) = callbacks fs := by
  rw [callbacks_append, callbacks_append, callbacks_quiet h]
  rfl

theorem clockReadings_turn {ms : Int32} {r : ReadResult} {es : List Event} (h : ∀ e ∈ es, e.quiet) (fs : List Event) :
    clockReadings ([.hidRead ms, .received r] ++ es ++ fs) = clockReadings fs := by
  rw [clockReadings_append, clockReadings_append, clockReadings_quiet h]
  rfl

/-- The loop is a fold of the reads it takes, and takes them in order. -/
theorem eventLoop_fold (deadline nanos : UInt64) (clock : Clock) (data : Buffer) (dev : Device)
    (reads : List ReadResult) :
    let c := eventLoop passive deadline nanos clock data dev reads
    c.env.dev = (after readStep (dev, data) (received c.events)).1 ∧
      signals c.events = outputs readStep (dev, data) (received c.events) ∧
      received c.events ++ c.env.reads = reads := by
  induction reads generalizing nanos clock data dev with
  | nil => exact ⟨rfl, rfl, rfl⟩
  | cons r reads ih =>
    have hturn := eventLoop_turn deadline nanos clock data dev r reads
    have hquiet := decodingEvents_quiet dev data r
    dsimp only
    generalize eventLoop passive deadline nanos clock data dev (r :: reads) = c at hturn
    cases hturn with
    | readFailed failed =>
      have hrec : received [.hidRead (remaining deadline nanos), .received r] = [r] := rfl
      simp only [hrec, after_cons, after_nil, outputs_cons, outputs_nil, readStep_failed _ failed]
      exact ⟨trivial, rfl, rfl⟩
    | delivered _ step =>
      rw [received_turn hquiet, signals_turn]
      simp only [after_cons, outputs_cons, step]
      exact ⟨rfl, (List.append_nil _).symm, rfl⟩
    | decodeFailed _ step =>
      rw [received_turn hquiet, signals_turn]
      simp only [after_cons, outputs_cons, step]
      exact ⟨rfl, (List.append_nil _).symm, rfl⟩
    | timedOut _ step =>
      rw [received_turn hquiet, signals_turn]
      simp only [after_cons, outputs_cons, step]
      exact ⟨rfl, rfl, rfl⟩
    | @goesOn after _ _ step _ _ loop =>
      obtain ⟨hdev, hsig, hreads⟩ := ih (clock 0) (fun i => clock (i + 1)) (data.receive r.bytes) after
      subst loop
      rw [received_turn hquiet, signals_turn]
      simp only [after_cons, outputs_cons, step]
      exact ⟨hdev, congrArg _ hsig, by rw [List.cons_append]; exact congrArg (r :: ·) hreads⟩

theorem startEvents_received (milliseconds : Int32) (clock : Clock) : received (startEvents milliseconds clock) = [] := by
  simp [startEvents, received, Event.received?, List.filterMap_map, Function.comp_def]

theorem startEvents_signals (milliseconds : Int32) (clock : Clock) : signals (startEvents milliseconds clock) = [] := by
  simp [startEvents, signals, Event.signal?, List.filterMap_map, Function.comp_def]

/-- **A call is a fold** of `readStep` over the reads it takes, from the
zeroed buffer. -/
theorem call_fold (milliseconds : Int32) (clock : Clock) (env : Env) :
    let c := touchmouseProcessEventsTimeout passive milliseconds clock env
    c.env.dev = (after readStep (env.dev, .zero) (received c.events)).1 ∧
      signals c.events = outputs readStep (env.dev, .zero) (received c.events) ∧
      received c.events ++ c.env.reads = env.reads := by
  rcases call_cases milliseconds clock env with ⟨-, hc⟩ | ⟨-, -, hc⟩
  · simp only [hc, startEvents_received, startEvents_signals]
    exact ⟨rfl, rfl, rfl⟩
  · simp only [hc, received_append, signals_append, startEvents_received, startEvents_signals, List.nil_append]
    exact eventLoop_fold _ _ _ _ _ _

/-! ## Reads with a length byte in range -/

/-- A read of 32 bytes with report id 0x27. -/
def ReadResult.IsTouch (r : ReadResult) : Prop := r.res = 32 ∧ r.bytes[0]? = some 0x27

instance (r : ReadResult) : Decidable r.IsTouch := inferInstanceAs (Decidable (_ ∧ _))

/-- The length byte of a read, if it has one. -/
def ReadResult.lengthByte (r : ReadResult) : Nat := ((r.bytes[1]?).getD 0).toNat

/-- The report in a read, from its own bytes: no more data than there are. -/
def ReadResult.packet (r : ReadResult) : Packet :=
  ⟨(r.bytes[6]?).getD 0, (r.bytes.drop 7).take (r.lengthByte - 1)⟩

def ReadResult.packet? (r : ReadResult) : Option Packet := if r.IsTouch then some r.packet else none

/-- If it is a touch report, it declares no more data than the report has. -/
def ReadResult.InRange (r : ReadResult) : Prop := r.IsTouch → r.lengthByte ≤ 26

/-- The touch reports among some reads. -/
def touchReports (rs : List ReadResult) : List Packet := rs.filterMap ReadResult.packet?

theorem getElem_receive (data : Buffer) (bytes : List UInt8) (i : Nat) (hi : i < 256) (h : i < bytes.length) :
    (data.receive bytes)[i] = bytes[i] := by
  simp [Buffer.receive, h]

theorem ReadResult.IsTouch.length {r : ReadResult} (h : r.IsTouch) : r.bytes.length = 32 := by
  have := r.length_eq
  rw [h.1] at this
  exact this

theorem isTouchReport_receive (data : Buffer) (r : ReadResult) :
    IsTouchReport (data.receive r.bytes) r.res ↔ r.IsTouch := by
  unfold IsTouchReport ReadResult.IsTouch
  refine and_congr_right fun hres => ?_
  have hlen : r.bytes.length = 32 := by
    have := r.length_eq
    rw [hres] at this
    exact this
  rw [Buffer.reportId, getElem_receive data r.bytes 0 (by decide) (by omega), List.getElem?_eq_getElem (by omega),
    Option.some_inj]

/-- In range, the report in the buffer is the report in the read. -/
theorem packet_receive (data : Buffer) {r : ReadResult} (h : r.IsTouch) (hr : r.InRange) :
    (data.receive r.bytes).packet = r.packet := by
  have hlen := h.length
  have hle := hr h
  have hbyte : (data.receive r.bytes).length.toNat = r.lengthByte := by
    rw [Buffer.length, getElem_receive data r.bytes 1 (by decide) (by omega), ReadResult.lengthByte,
      List.getElem?_eq_getElem (by omega), Option.getD_some]
  have htime : (data.receive r.bytes).timestamp = (r.bytes[6]?).getD 0 := by
    rw [Buffer.timestamp, getElem_receive data r.bytes 6 (by decide) (by omega), List.getElem?_eq_getElem (by omega),
      Option.getD_some]
  have hdata : (List.range (data.receive r.bytes).dataLength).map (data.receive r.bytes).data =
      (r.bytes.drop 7).take (r.lengthByte - 1) := by
    rw [Buffer.dataLength, hbyte]
    apply List.ext_getElem
    · simp only [List.length_map, List.length_range, List.length_take, List.length_drop, hlen]
      omega
    · intro i hi hi'
      simp only [List.length_map, List.length_range] at hi
      simp only [List.getElem_map, List.getElem_range, Buffer.data, List.getElem_take, List.getElem_drop]
      rw [Vector.getElem?_eq_getElem (by omega), Option.getD_some,
        getElem_receive data r.bytes (7 + i) (by omega) (by omega)]
  rw [Buffer.packet, ReadResult.packet, htime, hdata]

/-- In range, a read is its report. -/
theorem readStep_packet (s : Device × Buffer) {r : ReadResult} (hr : r.InRange) :
    (readStep s r).1.1 = after reportStep s.1 r.packet?.toList ∧
      (readStep s r).2 = outputs reportStep s.1 r.packet?.toList := by
  by_cases h : r.IsTouch
  · simp [readStep, (isTouchReport_receive s.2 r).2 h, ReadResult.packet?, h, packet_receive s.2 h hr]
  · simp [readStep, mt (isTouchReport_receive s.2 r).1 h, ReadResult.packet?, h]

/-- A read that found nothing. -/
def ReadResult.empty : ReadResult := ⟨0, [], rfl, by decide⟩

@[simp] theorem ReadResult.inRange_empty : ReadResult.empty.InRange := fun h => absurd h.1 (by decide)

/-- A report as the mouse sends it, its data padded with zeroes. -/
def ReadResult.ofPacket (p : Packet) (h : p.data.length ≤ 25) : ReadResult where
  res := 32
  bytes := [0x27, .ofNat (p.data.length + 1), 0x14, 0x01, 0x00, 0x51, p.key] ++
    (p.data ++ List.replicate (25 - p.data.length) 0)
  length_eq := by simp; omega
  fits := by decide

theorem ReadResult.isTouch_ofPacket (p : Packet) (h : p.data.length ≤ 25) : (ofPacket p h).IsTouch := ⟨rfl, rfl⟩

theorem ReadResult.lengthByte_ofPacket (p : Packet) (h : p.data.length ≤ 25) :
    (ofPacket p h).lengthByte = p.data.length + 1 := by
  show (UInt8.ofNat (p.data.length + 1)).toNat = _
  rw [UInt8.toNat_ofNat']
  omega

@[simp] theorem ReadResult.inRange_ofPacket (p : Packet) (h : p.data.length ≤ 25) : (ofPacket p h).InRange := by
  intro _
  rw [lengthByte_ofPacket]
  omega

/-- Sending and receiving a report is the identity. -/
theorem ReadResult.packet?_ofPacket (p : Packet) (h : p.data.length ≤ 25) : (ofPacket p h).packet? = some p := by
  rw [packet?, if_pos (isTouch_ofPacket p h), packet, lengthByte_ofPacket, Nat.add_sub_cancel]
  show some (⟨p.key, List.take _ (p.data ++ _)⟩ : Packet) = _
  rw [List.take_left]

theorem touchReports_eq_flatMap (rs : List ReadResult) :
    touchReports rs = rs.flatMap fun r => r.packet?.toList := by
  rw [touchReports, List.filterMap_eq_flatMap_toList]

/-- In range, a fold of reads is a fold of their touch reports. -/
theorem readStep_fold (dev : Device) (data : Buffer) {rs : List ReadResult} (h : ∀ r ∈ rs, r.InRange) :
    (after readStep (dev, data) rs).1 = after reportStep dev (touchReports rs) ∧
      outputs readStep (dev, data) rs = outputs reportStep dev (touchReports rs) := by
  obtain ⟨hdev, hout⟩ := simulates readStep reportStep (fun r => r.packet?.toList) (fun s => [s])
    (fun s d => s.1 = d) ReadResult.InRange
    (fun s d r hr hs => by
      obtain ⟨h₁, h₂⟩ := readStep_packet s hr
      subst hs
      exact ⟨h₁, by rw [h₂]; simp⟩)
    (rfl : (dev, data).1 = dev) h
  rw [touchReports_eq_flatMap]
  exact ⟨hdev, by rw [hout]; simp⟩

end TouchMouse
