import TouchMouse.Call.Run

/-!
# Index safety

The decoder writes `partial_image` at an index it does not check. Over runs
from an opened device it need not: the decoder is always in the state of a
string that leaves room, so each nybble finds it in bounds and each of its
array accesses stays in extent.
-/

namespace TouchMouse
open Transducer Reassembly

/-- The decoder state is in bounds. -/
structure Device.InBounds (d : Device) : Prop where
  index : d.bufIndex ≤ 180
  flag : d.nextIsRunEncoded = 0 ∨ d.nextIsRunEncoded = 1
  pixels : ∀ v ∈ d.partialImage, v.toNat ≤ 14

/-- What an event must keep to: the state at a call of `process_nybble` is in
bounds, and an access of its arrays is in extent. -/
def Event.Safe : Event → Prop
  | .processNybble entry _ => entry.InBounds
  | .access a => a.InExtent
  | _ => True

theorem after_inBounds (d : Device) {w : List Nybble} (hw : (scheme.values w).length < 181) :
    (d.after w).InBounds where
  index := Nat.le_of_lt_succ hw
  flag := by
    simp only [Device.after]
    split
    · exact .inr rfl
    · exact .inl rfl
  pixels := by
    intro v hv
    obtain ⟨i, hi, rfl⟩ := Vector.mem_iff_getElem.1 hv
    simp only [Device.after, getElem_padded]
    exact pixelByte_le _ i

/-! ## The loops -/

/-- A stretch of decoding that is safe, and leaves the decoder in the state of
a string with room unless the loop is left. -/
structure Decoding.Safe (d : Device) (c : Decoding) : Prop where
  events : ∀ e ∈ c.events, e.Safe
  room : c.res ≠ .complete → c.res ≠ .error → ∃ w, (scheme.values w).length < 181 ∧ c.dev = d.after w

/-- What `Decoding.Safe` says of the state that is left. -/
def HasRoom (d : Device) (res : DecoderState) (dev : Device) : Prop :=
  res ≠ .complete → res ≠ .error → ∃ w, (scheme.values w).length < 181 ∧ dev = d.after w

theorem decodeNybble_safe (d : Device) {w : List Nybble} (hw : (scheme.values w).length < 181) (t : Nat) (x : Nybble) :
    (decodeNybble (d.after w) t (byteOf x)).Safe d where
  events := by
    intro e he
    simp only [decodeNybble, List.mem_cons, List.mem_map] at he
    rcases he with rfl | rfl | ⟨a, ha, rfl⟩
    · trivial
    · exact after_inBounds d hw
    · exact (processNybble_after d hw x).2 a ha
  room := by
    simp only [decodeNybble]
    cases (processNybble_after d hw x).1 with
    | goesOn hl res dev => exact fun _ _ => ⟨_, hl, dev⟩
    | completes hl res dev => exact fun h => absurd res h
    | rejects hl res dev => exact fun _ h => absurd res h

/-- So a loop that starts with room keeps it, nybble by nybble. -/
theorem decodeLoop_safe (d : Device) {w : List Nybble} (hw : (scheme.values w).length < 181) (data : Buffer)
    (t n : Nat) : (decodeLoop data t n (d.after w)).Safe d := by
  have hnybble : ∀ i, t ≤ i → i < t + n → ∀ dev v, v < 16 → HasRoom d .inProgress dev →
      (decodeNybble dev i v).Keeps (HasRoom d) Event.Safe := by
    intro i _ _ dev v hv hdev
    obtain ⟨w', hw', rfl⟩ := hdev (by decide) (by decide)
    obtain ⟨x, rfl⟩ := exists_byteOf hv
    have hsafe := decodeNybble_safe d hw' i x
    exact ⟨hsafe.events, hsafe.room⟩
  have hloop := decodeLoop_keeps data t n hnybble fun _ _ => ⟨w, hw, rfl⟩
  exact ⟨hloop.events, hloop.state⟩

/-- A read is interpreted safely by a device that tracks a block. -/
theorem decodingEvents_safe {d : Device} {block : List Packet} (h : Tracks d block) (data : Buffer) (r : ReadResult) :
    ∀ e ∈ decodingEvents d data r, e.Safe := by
  intro e he
  unfold decodingEvents at he
  by_cases ht : IsTouchReport (data.receive r.bytes) r.res
  · have hroom := (frameReader_more_iff _).1 (kept_more frameReader h.collecting (data.receive r.bytes).timestamp)
    rw [interpretTransfer_touch d ht, interpretReport, Matching.interpretReport, matchTimestamp_tracks h] at he
    simp only [dumpReport, List.mem_append, List.mem_map, List.mem_singleton] at he
    rcases he with ⟨j, -, rfl⟩ | (⟨t, -, rfl⟩ | rfl) | he
    · trivial
    · trivial
    · trivial
    · exact (decodeLoop_safe _ hroom _ _ _).events e he
  · rw [interpretTransfer_other d ht] at he
    obtain ⟨j, -, rfl⟩ := List.mem_map.1 he
    trivial

/-! ## Calls and runs -/

theorem readStep_tracks {d : Device} {block : List Packet} (h : Tracks d block) (data : Buffer) (r : ReadResult) :
    ∃ block', Tracks (readStep (d, data) r).1.1 block' := by
  obtain ⟨ps, hdev, -⟩ := readStep_reports (d, data) r
  rw [hdev]
  exact ⟨_, (reports_refine h ps).1⟩

theorem eventLoop_safe (deadline nanos : UInt64) (clock : Clock) (data : Buffer) {dev : Device} {block : List Packet}
    (h : Tracks dev block) (reads : List ReadResult) :
    ∀ e ∈ (eventLoop passive deadline nanos clock data dev reads).events, e.Safe := by
  induction reads generalizing nanos clock data dev block with
  | nil =>
    intro e he
    rw [List.mem_singleton.1 he]
    trivial
  | cons r reads ih =>
    have hturn := eventLoop_turn deadline nanos clock data dev r reads
    have hsafe := decodingEvents_safe h data r
    obtain ⟨block', htracks⟩ := readStep_tracks h data r
    generalize eventLoop passive deadline nanos clock data dev (r :: reads) = c at hturn
    intro e he
    cases hturn with
    | readFailed =>
      simp only [List.mem_cons, List.not_mem_nil, or_false] at he
      rcases he with rfl | rfl <;> trivial
    | delivered | decodeFailed | timedOut =>
      simp only [List.mem_append, List.mem_cons, List.not_mem_nil, or_false] at he
      rcases he with ((rfl | rfl) | he) | rfl <;> first | trivial | exact hsafe e he
    | goesOn _ step _ _ loop =>
      rw [step] at htracks
      simp only [List.mem_append, List.mem_cons, List.not_mem_nil, or_false] at he
      rcases he with ((rfl | rfl) | he) | rfl | he
      · trivial
      · trivial
      · exact hsafe e he
      · trivial
      · rw [loop] at he
        exact ih (clock 0) _ _ htracks e he

theorem startEvents_safe (milliseconds : Int32) (clock : Clock) : ∀ e ∈ startEvents milliseconds clock, e.Safe := by
  intro e he
  obtain ⟨i, -, rfl⟩ := List.mem_map.1 he
  trivial

theorem exec_safe {env : Env} {block : List Packet} (h : Tracks env.dev block) (op : Op) :
    ∀ e ∈ (op.exec passive env).events, e.Safe := by
  cases op with
  | setImageUpdateCallback callback => exact fun e he => nomatch he
  | setDeviceUserdata userdata => exact fun e he => nomatch he
  | processEventsTimeout milliseconds clock =>
    have hstart := startEvents_safe milliseconds clock
    rw [Op.exec_processEventsTimeout]
    rcases call_cases milliseconds clock env with ⟨-, hc⟩ | ⟨-, -, hc⟩ <;> rw [hc]
    · exact hstart
    · exact fun e he => (List.mem_append.1 he).elim (hstart e) (eventLoop_safe _ _ _ _ h _ e)

theorem run_safe (env : Env) {block : List Packet} (h : Tracks env.dev block) (ops : List Op) :
    ∀ e ∈ (run passive ops env).2, e.Safe := by
  refine run_induction (fun _ => True) (fun env r => ∀ block, Tracks env.dev block → ∀ e ∈ r.2, e.Safe)
    (by simp) (fun env op _ block h => exec_safe h op) ?_ (fun _ _ => trivial) env block h
  intro env op code rest _ _ ih block h e he
  rcases List.mem_append.1 he with he | he
  · exact exec_safe h op e he
  · rcases List.mem_cons.1 he with rfl | he
    · trivial
    · exact ih _ (exec_refines env h op).tracks e he

theorem Tracks.image {d : Device} {block : List Packet} (h : Tracks d block) : d.image = .replicate 195 0 :=
  (congrArg Device.image h.stream).symm

/-- **Index safety.** Over every run from an opened device, whatever is read,
every call of `process_nybble` finds the decoder in bounds, every access of
its arrays is in extent, and the image is all zero at the end. -/
theorem index_safety {handle : Addr} {opened : Device} (hopen : touchmouseOpen handle = some opened) (ops : List Op)
    (reads : List ReadResult) :
    (∀ e ∈ (run passive ops ⟨opened, reads⟩).2, e.Safe) ∧
      (run passive ops ⟨opened, reads⟩).1.dev.image = .replicate 195 0 := by
  have h := opened_tracks hopen
  exact ⟨run_safe _ h ops, (run_refines _ h ops).tracks.image⟩

/-- A report with a length byte of 255 and nothing but F nybbles. -/
theorem index_safety_long_report :
    (run passive [.processEventsTimeout (-1) fun _ => 1]
      ⟨(touchmouseOpen 1).get (by decide),
        [⟨32, 0x27 :: 0xff :: List.replicate 30 0xff, by decide, by decide⟩]⟩).1.dev.image = .replicate 195 0 :=
  (index_safety (Option.some_get _).symm _ _).2

end TouchMouse
