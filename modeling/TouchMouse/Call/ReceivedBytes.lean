import TouchMouse.Call.Trace
import TouchMouse.Decoder.Unpack

/-!
# The bytes that are interpreted

The loops over `r->data` run to the length byte of the report, which nothing
compares with the 25 bytes of the field. A report is interpreted from its own
bytes exactly when the length byte is in range; beyond it the dump loop, which
no exit stops early, reads what earlier transfers left in the buffer.
-/

namespace TouchMouse

/-! ## Only the packet matters -/

/-- The decode loop reads the buffer at its indices only. -/
theorem decodeLoop_congr {data data' : Buffer} {t n : Nat} (h : ∀ i, t ≤ i → i < t + n → data.data i = data'.data i)
    (dev : Device) : decodeLoop data t n dev = decodeLoop data' t n dev := by
  induction n generalizing t dev with
  | zero => rfl
  | succ n ih =>
    have hbyte : decodeByte data t = decodeByte data' t := by
      funext d
      simp only [decodeByte, h t (by omega) (by omega)]
    have hrest : decodeLoop data (t + 1) n = decodeLoop data' (t + 1) n :=
      funext (ih fun i h₁ h₂ => h i (by omega) (by omega))
    simp only [decodeLoop, hbyte, hrest]

/-- A report is interpreted by its timestamp and its data. -/
theorem interpretReport_congr {data data' : Buffer} (h : data.packet = data'.packet) (dev : Device) :
    interpretReport dev data = interpretReport dev data' := by
  simp only [Buffer.packet, Reassembly.Packet.mk.injEq] at h
  obtain ⟨htime, hbytes⟩ := h
  have hlen : data.dataLength = data'.dataLength := by simpa using congrArg List.length hbytes
  rw [← hlen] at hbytes
  have hdata : ∀ i, i < data.dataLength → data.data i = data'.data i := fun i hi =>
    List.map_inj_left.1 hbytes i (List.mem_range.2 hi)
  have hloop := decodeLoop_congr (t := 0) (n := data.dataLength) fun i _ hi => hdata i (by omega)
  simp only [interpretReport, Matching.interpretReport, dumpReport, ← htime, ← hlen, hbytes, hloop]

/-! ## The indices of `r->data` -/

theorem zeroRun_accesses (n : Nat) (d : Device) (t : Nat) : Access.data t ∉ (zeroRun n d).2 := by
  induction n generalizing d with
  | zero => simp [zeroRun]
  | succ n ih => simpa [zeroRun] using ih (writePixel d 0)

theorem finishNybble_accesses (d : Device) {accesses : List Access} {t : Nat} (h : Access.data t ∉ accesses) :
    Access.data t ∉ (finishNybble d accesses).accesses := by
  unfold finishNybble
  split
  · simpa [unpack_accesses] using h
  · exact h

/-- `process_nybble` has no access to the report. -/
theorem processNybble_accesses (d : Device) (n : UInt8) (t : Nat) : Access.data t ∉ (processNybble d n).accesses := by
  unfold processNybble
  split
  · simp
  · split
    · split
      · simp
      · exact finishNybble_accesses _ (zeroRun_accesses _ _ t)
    · split
      · exact finishNybble_accesses _ (by simp)
      · exact finishNybble_accesses _ (by simp)

/-- The decode loop reads at the indices of its turns. -/
theorem decodeLoop_data {data : Buffer} {n : Nat} {dev : Device} {t : Nat}
    (h : Event.access (.data t) ∈ (decodeLoop data 0 n dev).events) : t < n := by
  refine decodeLoop_events (P := fun e => e = .access (.data t) → t < n) data 0 n ?_ dev _ h rfl
  intro i _ hi dev x e he heq
  subst heq
  simp only [decodeNybble, List.mem_cons, Event.access.injEq, Access.data.injEq, reduceCtorEq, false_or,
    List.mem_map] at he
  rcases he with rfl | ⟨a, ha, rfl⟩
  · omega
  · exact absurd ha (processNybble_accesses dev x t)

/-- Interpreting a touch report reads `r->data` at the indices below its
length byte less one, and the dump loop at all of them. -/
theorem interpretTransfer_data (dev : Device) {data : Buffer} {res : Int} (h : IsTouchReport data res) (t : Nat) :
    Event.access (.data t) ∈ (interpretTransfer dev data res).events ↔ t < data.dataLength := by
  rw [interpretTransfer_touch dev h]
  simp only [interpretReport, Matching.interpretReport, dumpReport, List.mem_append, List.mem_map, List.mem_range, List.mem_singleton,
    Event.access.injEq, Access.data.injEq, reduceCtorEq, and_false, exists_false, false_or, or_false, exists_eq_right]
  exact ⟨fun ht => ht.elim id decodeLoop_data, .inl⟩

/-! ## One read -/

/-- What the loop does with a single read uses no other byte than those the
read brought: `r->data` is read within its 25 bytes, and what the buffer held
before does not matter. -/
def OnlyReceivedBytes (dev : Device) (r : ReadResult) : Prop :=
  ∀ deadline nanos clock data,
    (∀ t, .access (.data t) ∈ (eventLoop passive deadline nanos clock data dev [r]).events → t < 25) ∧
      ∀ data', eventLoop passive deadline nanos clock data dev [r] = eventLoop passive deadline nanos clock data' dev [r]

/-- The accesses of a call that reads once are those of the read. -/
theorem eventLoop_access (deadline nanos : UInt64) (clock : Clock) (data : Buffer) (dev : Device) {r : ReadResult}
    (h : 0 ≤ r.res) (a : Access) :
    .access a ∈ (eventLoop passive deadline nanos clock data dev [r]).events ↔
      .access a ∈ decodingEvents dev data r := by
  have hturn := eventLoop_turn deadline nanos clock data dev r []
  generalize eventLoop passive deadline nanos clock data dev [r] = c at hturn
  cases hturn with
  | readFailed failed => omega
  | delivered | decodeFailed | timedOut => simp
  | goesOn _ _ _ _ loop => simp [loop, eventLoop_nil]

theorem dataLength_receive (data : Buffer) {r : ReadResult} (h : r.IsTouch) :
    (data.receive r.bytes).dataLength = r.lengthByte - 1 := by
  have hlen := h.length
  rw [Buffer.dataLength, Buffer.length, getElem_receive data r.bytes 1 (by decide) (by omega), ReadResult.lengthByte,
    List.getElem?_eq_getElem (by omega), Option.getD_some]

/-- In range, a touch report is interpreted the same in any buffer. -/
theorem eventLoop_congr (deadline nanos : UInt64) (clock : Clock) (data data' : Buffer) (dev : Device) {r : ReadResult}
    (h : r.IsTouch) (hr : r.InRange) :
    eventLoop passive deadline nanos clock data dev [r] = eventLoop passive deadline nanos clock data' dev [r] := by
  have hpacket : (data.receive r.bytes).packet = (data'.receive r.bytes).packet :=
    (packet_receive data h hr).trans (packet_receive data' h hr).symm
  have htime : (data.receive r.bytes).timestamp = (data'.receive r.bytes).timestamp := by
    simpa only [Buffer.packet] using congrArg Reassembly.Packet.key hpacket
  have hdecode : interpretTransfer dev (data.receive r.bytes) r.res =
      interpretTransfer dev (data'.receive r.bytes) r.res := by
    rw [interpretTransfer_touch dev ((isTouchReport_receive data r).2 h),
      interpretTransfer_touch dev ((isTouchReport_receive data' r).2 h), interpretReport_congr hpacket]
  simp only [eventLoop_cons, eventLoop_nil, loopTurn, hdecode, htime]

/-- **Only received bytes**, exactly for the reports whose length byte is in
range. -/
theorem only_received_bytes_iff (dev : Device) {r : ReadResult} (h : r.IsTouch) :
    OnlyReceivedBytes dev r ↔ r.lengthByte ≤ 26 := by
  have hread : 0 ≤ r.res := by rw [h.1]; decide
  have hdata : ∀ deadline nanos clock data t,
      .access (.data t) ∈ (eventLoop passive deadline nanos clock data dev [r]).events ↔ t < r.lengthByte - 1 := by
    intro deadline nanos clock data t
    rw [eventLoop_access _ _ _ _ _ hread, decodingEvents,
      interpretTransfer_data dev ((isTouchReport_receive data r).2 h), dataLength_receive data h]
  constructor
  · intro honly
    by_contra hlong
    -- the last turn of the dump loop
    have := (honly 1 1 (fun _ => 1) .zero).1 (r.lengthByte - 2) ((hdata _ _ _ _ _).2 (by omega))
    omega
  · intro hle deadline nanos clock data
    refine ⟨fun t ht => ?_, fun data' => eventLoop_congr _ _ _ _ _ _ h fun _ => hle⟩
    have := (hdata _ _ _ _ _).1 ht
    omega

/-- A report of 25 data bytes, in range. -/
theorem only_received_bytes_full_report :
    OnlyReceivedBytes ((touchmouseOpen 1).get (by decide))
      (.ofPacket ⟨1, List.replicate 25 0⟩ (by decide)) :=
  (only_received_bytes_iff _ (ReadResult.isTouch_ofPacket _ _)).2 (by decide +kernel)

/-- A report whose length byte is 27. -/
def longReport : ReadResult :=
  { ReadResult.ofPacket ⟨0, []⟩ (Nat.zero_le 25) with bytes := 0x27 :: 27 :: List.replicate 30 0, length_eq := rfl }

/-- Both loops read `r->data[25]`, and pixel 50 depends on what it held. -/
theorem long_report_not_only_received_bytes :
    let opened := (touchmouseOpen 1).get (by decide)
    longReport.IsTouch ∧ ¬ OnlyReceivedBytes opened longReport ∧
      (eventLoop passive 1 1 (fun _ => 1) .zero opened [longReport]).env.dev.partialImage[50] ≠
        (eventLoop passive 1 1 (fun _ => 1) (.replicate 256 0x11) opened [longReport]).env.dev.partialImage[50] := by
  refine ⟨by decide, fun h => ?_, by decide +kernel⟩
  have := (h 1 1 (fun _ => 1) .zero).1 25 (by decide +kernel)
  omega

end TouchMouse
