import TouchMouse.Call.Run
import Mathlib.Data.List.Forall2

/-!
# Every callback shows one block of reports

The blocks that the callbacks of a run come from are disjoint stretches of
consecutive touch reports, in order. Each carries one timestamp, and its bytes
decode to the callback's image from the first byte to the nybble that fills
the last pixel.
-/

namespace TouchMouse
open Transducer Reassembly

/-! ## What the callbacks are shown -/

def Signal.frame? : Signal → Option (UInt8 × Vector UInt8 195)
  | .frame timestamp image => some (timestamp, image)
  | _ => none

/-- The timestamps and images handed to the callbacks. -/
def shown (es : List Event) : List (UInt8 × Vector UInt8 195) :=
  (callbacks es).map fun c => (c.2.timestamp, c.2.image)

theorem shown_signals (es : List Event) : shown es = (signals es).filterMap Signal.frame? := by
  rw [shown, callbacks, signals, List.map_filterMap, List.filterMap_filterMap]
  congr 1
  funext e
  cases e <;> rfl

/-- What a frame of the reassembler looks like in a callback. -/
def frameShown (f : Frame UInt8 UInt8 (List Pixel)) : UInt8 × Vector UInt8 195 := (f.key, imageOf (padded f.value))

theorem frames_emissions (trace : List (Packet × Option (Emission UInt8 UInt8 (List Pixel)))) :
    (trace.flatMap emissionSignals).filterMap Signal.frame? = (trace.filterMap frame?).map frameShown := by
  induction trace with
  | nil => rfl
  | cons x trace ih =>
    obtain ⟨p, e⟩ := x
    rw [List.flatMap_cons, List.filterMap_append, ih]
    rcases e with - | (- | -) <;> rfl

/-- The callbacks of a trace that refines the reassembler show its frames. -/
theorem Refines.shown {block : List Packet} {env env' : Env} {es : List Event} (h : Refines block env env' es) :
    shown es = (frames frameReader block (reports (signals es))).map frameShown := by
  rw [shown_signals, h.shows, frames_emissions, ← h.shows]
  rfl

/-! ## Blocks -/

/-- The block decodes to what a callback is shown. -/
structure DecodesTo (block : List Packet) (info : CallbackInfo) : Prop where
  nonempty : block ≠ []
  timestamp : ∀ p ∈ block, p.key = info.timestamp
  decodes : ∃ tokens rest, nybbles (data block) = scheme.encode tokens ++ rest ∧
    (scheme.expand tokens).length = 181 ∧ info.image = imageOf (padded (scheme.expand tokens))
  last : (scheme.values (nybbles (data block.dropLast))).length < 181

theorem decodesTo_of_exact {f : Frame UInt8 UInt8 (List Pixel)} (h : f.Exact frameReader) {info : CallbackInfo}
    (hinfo : frameShown f = (info.timestamp, info.image)) : DecodesTo f.block info := by
  obtain ⟨htime, himage⟩ := Prod.mk.inj hinfo
  obtain ⟨tokens, rest, hdata, hvalue, hlen⟩ := (scheme.verdict_full_iff (by decide) _ _).1 h.full
  refine ⟨h.nonempty, fun p hp => (h.key p hp).trans htime, ⟨tokens, rest, hdata, by rw [hvalue, hlen], ?_⟩,
    (frameReader_more_iff _).1 h.last⟩
  rw [hvalue, himage]

/-- **No mixing of frames.** In every run from an opened device, over reads in
range, the callbacks come from disjoint stretches of the touch reports, in
order, each decoding to what its callback is shown. -/
theorem no_mixing {handle : Addr} {opened : Device} (hopen : touchmouseOpen handle = some opened) (ops : List Op)
    {reads : List ReadResult} (hrange : ∀ r ∈ reads, r.InRange) :
    let es := (run passive ops ⟨opened, reads⟩).2
    ∃ blocks, Segments (touchReports (received es)) blocks ∧
      List.Forall₂ (fun block c => DecodesTo block c.2) blocks (callbacks es) := by
  intro es
  have hrefines := run_refines ⟨opened, reads⟩ (opened_tracks hopen) ops
  have hreports : reports (signals es) = touchReports (received es) := run_reports ⟨opened, reads⟩ ops (hrefines.inRange hrange)
  have hshown : shown es = _ := hrefines.shown
  have hexact := frames_exact frameReader (collecting_nil frameReader) (reports (signals es))
  rw [← hreports]
  refine ⟨(frames frameReader [] (reports (signals es))).map Frame.block, frames_segments frameReader [] _, ?_⟩
  generalize frames frameReader [] (reports (signals es)) = fs at hshown hexact
  have hpairs : List.Forall₂ (· = ·) (fs.map frameShown) (shown es) := by
    rw [List.forall₂_eq_eq_eq, hshown]
  rw [shown, List.forall₂_map_left_iff, List.forall₂_map_right_iff] at hpairs
  rw [List.forall₂_map_left_iff]
  exact ((List.forall₂_and_left _ _).2 ⟨hexact, hpairs⟩).imp fun f c h => decodesTo_of_exact h.1 h.2

/-- A frame in two reports, after one that it does not match. -/
theorem no_mixing_two_reports :
    let reads := [ReadResult.ofPacket ⟨7, [0x11]⟩ (by decide), .ofPacket ⟨8, List.replicate 10 0xff⟩ (by decide),
      .ofPacket ⟨8, [0]⟩ (by decide)]
    let es := (run passive [.setImageUpdateCallback 1, .processEventsTimeout (-1) fun _ => 1]
      ⟨(touchmouseOpen 1).get (by decide), reads⟩).2
    (callbacks es).length = 1 ∧ ∃ blocks, Segments (touchReports (received es)) blocks ∧
      List.Forall₂ (fun block c => DecodesTo block c.2) blocks (callbacks es) := by
  intro reads es
  exact ⟨by decide +kernel, no_mixing (rfl : touchmouseOpen 1 = some _) _ (by simp [reads])⟩

end TouchMouse
