import TouchMouse.Model.ProcessEvents
import TouchMouse.Stream.Transducer
import TouchMouse.Stream.Reassembly

/-!
# One report as a step

The effect of a touch report on the device as a function of its timestamp and
its data bytes alone (`reportStep`), and of a read as a function of the
report buffer before it (`readStep`). `interpretReport_step` connects the
first to the loops of the event loop, which read the buffer index by index.
-/

namespace TouchMouse
open Transducer

/-- A touch report: its timestamp is the key, its bytes the data. -/
abbrev Packet := Reassembly.Packet UInt8 UInt8

/-- The report in the buffer, with the bytes the loops read as its data. -/
def Buffer.packet (data : Buffer) : Packet := ⟨data.timestamp, (List.range data.dataLength).map data.data⟩

/-- The bytes of a report decoded one after the other, low nybble first, up to
a completed frame or an error. -/
def decodeBytes : Device → List UInt8 → Device × DecoderState
  | dev, [] => (dev, .inProgress)
  | dev, b :: bs =>
    let low := processNybble dev (b &&& 0xf)
    match low.res with
    | .complete | .error => (low.dev, low.res)
    | _ =>
      let high := processNybble low.dev ((b &&& 0xf0) >>> 4)
      match high.res with
      | .complete | .error => (high.dev, high.res)
      | _ => decodeBytes high.dev bs

/-- What a call shows of its decoding: the touch reports it reads, the frames
it hands to the callback, and its decode errors. -/
inductive Signal where
  | report (p : Packet)
  | frame (timestamp : UInt8) (image : Vector UInt8 195)
  | error (timestamp : UInt8)
  deriving DecidableEq

def Event.signal? : Event → Option Signal
  | .report timestamp data => some (.report ⟨timestamp, data⟩)
  | .callback _ info => some (.frame info.timestamp info.image)
  | .decodeError timestamp => some (.error timestamp)
  | _ => none

def signals (es : List Event) : List Signal := es.filterMap Event.signal?

/-- The exits of the decode loop: a completed frame is handed to the callback,
an error is reported, and either resets the decoder. -/
def exits (timestamp : UInt8) : Device × DecoderState → Device × List Signal
  | (dev, .complete) =>
    (resetDecoder { dev with timestampLastCompleted := timestamp }, [.frame timestamp dev.image])
  | (dev, .error) => (resetDecoder dev, [.error timestamp])
  | (dev, _) => (dev, [])

/-- A touch report: the state it leaves, and what it shows of itself. -/
def reportStep (dev : Device) (p : Packet) : Device × List Signal :=
  let e := exits p.key (decodeBytes (matchTimestamp dev p.key) p.data)
  (e.1, .report p :: e.2)

/-- A 32-byte read with report id 0x27, in the buffer it was read into. -/
def IsTouchReport (data : Buffer) (res : Int) : Prop := res = 32 ∧ data.reportId = 0x27

instance (data : Buffer) (res : Int) : Decidable (IsTouchReport data res) := inferInstanceAs (Decidable (_ ∧ _))

/-- A read that arrives while the buffer still holds what earlier reads of the
call left in it. -/
def readStep (s : Device × Buffer) (r : ReadResult) : (Device × Buffer) × List Signal :=
  let data := s.2.receive r.bytes
  if IsTouchReport data r.res then (((reportStep s.1 data.packet).1, data), (reportStep s.1 data.packet).2)
  else ((s.1, data), [])

/-! ## The loops -/

theorem decodeByte_eq (data : Buffer) (t : Nat) (dev : Device) (bs : List UInt8) :
    decodeBytes dev (data.data t :: bs) =
      match (decodeByte data t dev).res with
      | .complete | .error => ((decodeByte data t dev).dev, (decodeByte data t dev).res)
      | _ => decodeBytes (decodeByte data t dev).dev bs := by
  simp only [decodeBytes, decodeByte, decodeNybble]
  cases (processNybble dev (data.data t &&& 0xf)).res <;> rfl

/-- The decode loop decodes the bytes it reads. -/
theorem decodeLoop_eq (data : Buffer) (t n : Nat) (dev : Device) :
    ((decodeLoop data t n dev).dev, (decodeLoop data t n dev).res) =
      decodeBytes dev ((List.range' t n).map data.data) := by
  induction n generalizing t dev with
  | zero => rfl
  | succ n ih =>
    rw [List.range'_succ, List.map_cons, decodeByte_eq, decodeLoop]
    cases hres : (decodeByte data t dev).res with
    | complete => simp only [hres]
    | error => simp only [hres]
    | begin => simpa only using ih (t + 1) (decodeByte data t dev).dev
    | inProgress => simpa only using ih (t + 1) (decodeByte data t dev).dev

theorem interpretReport_eq (dev : Device) (data : Buffer) :
    ((interpretReport dev data).dev, (interpretReport dev data).res) =
      decodeBytes (matchTimestamp dev data.packet.key) data.packet.data := by
  have h := decodeLoop_eq data 0 data.dataLength (matchTimestamp dev data.timestamp)
  rw [← List.range_eq_range'] at h
  exact h

end TouchMouse
