import TouchMouse.Report.Step
import TouchMouse.Decoder.Stream

/-!
# The device refines the reassembler

The device keeps no reports: only the decoder state that the bytes of the
current block lead to. `Tracks` says so, and `reportStep_refines` that each
report does to the device what it does to the reassembler of
`Stream.Reassembly`, which reads the whole block again each time. The guard
on the timestamp is the one point where the two differ in form: the device
skips the reset when its index is 0, and then the block has no bytes.
-/

namespace TouchMouse
open Transducer Reassembly

def low (b : UInt8) : Nybble := ⟨b.toNat % 16, Nat.mod_lt _ (by decide)⟩
def high (b : UInt8) : Nybble := ⟨b.toNat / 16, by have := b.toNat_lt; omega⟩

/-- The nybbles of a byte in the order they are decoded. -/
def byteNybbles (b : UInt8) : List Nybble := [low b, high b]

def nybbles (bs : List UInt8) : List Nybble := bs.flatMap byteNybbles

@[simp] theorem nybbles_append (bs cs : List UInt8) : nybbles (bs ++ cs) = nybbles bs ++ nybbles cs :=
  List.flatMap_append

theorem byteOf_low (b : UInt8) : byteOf (low b) = b &&& 0xf := by
  apply UInt8.toNat_inj.1
  rw [byteOf_toNat (by decide), UInt8.toNat_and]
  exact (Nat.and_two_pow_sub_one_eq_mod b.toNat 4).symm

theorem byteOf_high (b : UInt8) : byteOf (high b) = (b &&& 0xf0) >>> 4 := by
  have h : ∀ n : Fin 256, byteOf (high (.ofNat n)) = (UInt8.ofNat n &&& 0xf0) >>> 4 := by decide +kernel
  simpa using h ⟨b.toNat, b.toNat_lt⟩

/-- The frames of the mouse, read from bytes. -/
def frameReader : Reader UInt8 (List Pixel) := (scheme.reader (n := 181) (by decide)).spell byteNybbles

theorem frameReader_more_iff (bs : List UInt8) :
    frameReader.verdict bs = .more ↔ (scheme.values (nybbles bs)).length < 181 :=
  scheme.verdict_more_iff (by decide) _

/-- Any byte adds a pixel. -/
theorem values_nybbles_pos {bs : List UInt8} (h : bs ≠ []) : 0 < (scheme.values (nybbles bs)).length := by
  obtain ⟨b, bs, rfl⟩ := List.exists_cons_of_ne_nil h
  have hle := scheme.values_length_le [low b, high b] (nybbles bs)
  have hlow := scheme.values_length_le [low b] [high b]
  refine Nat.lt_of_lt_of_le ?_ hle
  by_cases hesc : low b = scheme.esc
  · have hp : scheme.pending [low b] = true := by
      have := scheme.pending_snoc [] (low b)
      simpa [hesc] using this
    have hv := scheme.values_snoc_run hp (high b)
    have := scheme.runLength_pos (high b)
    simp only [List.singleton_append] at hv
    rw [hv, List.length_append, List.length_replicate]
    omega
  · have hv := scheme.values_snoc_literal scheme.pending_nil hesc
    simp only [List.nil_append, EscapeCode.values_nil] at hv
    rw [hv, List.length_singleton] at hlow
    exact hlow

/-! ## Decoding bytes -/

/-- What decoding all the bytes `w` of a block comes to. -/
inductive Decodes (d : Device) (w : List UInt8) : Device × DecoderState → Prop where
  | goesOn (verdict : frameReader.verdict w = .more) : Decodes d w (d.after (nybbles w), .inProgress)
  | completes {px : List Pixel} (verdict : frameReader.verdict w = .full px) : Decodes d w (d.complete px, .complete)
  | rejects {u : List Nybble} (verdict : frameReader.verdict w = .bad) : Decodes d w (d.after u, .error)

/-- A nybble that reaches or passes the end of a frame decides the verdict. -/
theorem verdict_of_step {u v : List Nybble} {x : Nybble} {w : List UInt8} (hw : nybbles w = u ++ x :: v)
    (hu : (scheme.values u).length < 181) (hux : 181 ≤ (scheme.values (u ++ [x])).length) :
    frameReader.verdict w =
      if (scheme.values (u ++ [x])).length = 181 then .full (scheme.values (u ++ [x])) else .bad := by
  rw [← scheme.verdict_split (v := v) hu hux, ← hw]
  rfl

/-- Decoding more bytes of a block that leaves room. -/
theorem decodeBytes_after (d : Device) {w : List UInt8} (hw : frameReader.verdict w = .more) (bs : List UInt8) :
    Decodes d (w ++ bs) (decodeBytes (d.after (nybbles w)) bs) := by
  induction bs generalizing w with
  | nil => rw [List.append_nil]; exact .goesOn hw
  | cons b bs ih =>
    have hu := (frameReader_more_iff w).1 hw
    have hn : nybbles (w ++ b :: bs) = nybbles w ++ low b :: high b :: nybbles bs := by
      rw [nybbles_append]; rfl
    have hn' : nybbles (w ++ b :: bs) = (nybbles w ++ [low b]) ++ high b :: nybbles bs := by rw [hn]; simp
    simp only [decodeBytes, ← byteOf_low, ← byteOf_high]
    cases (processNybble_after d hu (low b)).1 with
    | completes hl res dev =>
      have hv := verdict_of_step hn hu (Nat.le_of_eq hl.symm)
      rw [if_pos hl] at hv
      simp only [res, dev]
      exact .completes hv
    | rejects hl res dev =>
      have hv := verdict_of_step hn hu (Nat.le_of_lt hl)
      rw [if_neg (Nat.ne_of_gt hl)] at hv
      simp only [res, dev]
      exact .rejects hv
    | goesOn hl res dev =>
      simp only [res, dev]
      cases (processNybble_after d hl (high b)).1 with
      | completes hl' res dev =>
        have hv := verdict_of_step hn' hl (Nat.le_of_eq hl'.symm)
        rw [if_pos hl'] at hv
        simp only [res, dev]
        exact .completes hv
      | rejects hl' res dev =>
        have hv := verdict_of_step hn' hl (Nat.le_of_lt hl')
        rw [if_neg (Nat.ne_of_gt hl')] at hv
        simp only [res, dev]
        exact .rejects hv
      | goesOn hl' res dev =>
        have hb : nybbles (w ++ [b]) = nybbles w ++ [low b] ++ [high b] := by rw [nybbles_append]; simp [nybbles, byteNybbles]
        simp only [res, dev, ← hb]
        have := ih (w := w ++ [b]) ((frameReader_more_iff _).2 (by rw [hb]; exact hl'))
        rwa [List.append_assoc, List.singleton_append] at this

/-! ## Reports -/

/-- The device is in the decoder state of the block's bytes, under the block's
timestamp. -/
structure Tracks (d : Device) (block : List Packet) : Prop where
  stream : d.after (nybbles (data block)) = d
  collecting : Collecting frameReader block
  timestamp : ∀ q ∈ block, q.key = d.timestampInProgress

/-- A reset device tracks the empty block. -/
theorem tracks_reset {d : Device} (h : resetDecoder d = d) : Tracks d [] where
  stream := by rw [data_nil]; exact (resetDecoder_eq d).symm.trans h
  collecting := collecting_nil frameReader
  timestamp := by simp

/-- The index is that of a string with room. -/
theorem Tracks.room {d : Device} {block : List Packet} (h : Tracks d block) : d.bufIndex ≤ 180 := by
  have hindex : d.bufIndex = (scheme.values (nybbles (data block))).length := congrArg Device.bufIndex h.stream.symm
  have := (frameReader_more_iff _).1 h.collecting.more
  omega

/-- The guard: a report finds the decoder in the state of the block it joins. -/
theorem matchTimestamp_tracks {d : Device} {block : List Packet} (h : Tracks d block) (timestamp : UInt8) :
    matchTimestamp d timestamp =
      { d with timestampInProgress := timestamp }.after (nybbles (data (kept block timestamp))) := by
  have hindex : d.bufIndex = (scheme.values (nybbles (data block))).length := congrArg Device.bufIndex h.stream.symm
  have hstay : { d with timestampInProgress := timestamp } =
      { d with timestampInProgress := timestamp }.after (nybbles (data block)) :=
    congrArg (fun e : Device => { e with timestampInProgress := timestamp }) h.stream.symm
  by_cases hkeys : ∀ q ∈ block, q.key = timestamp
  · -- the block is kept: either it is empty, and so is the decoder, or the timestamps agree
    rw [kept, if_pos hkeys, ← hstay, matchTimestamp, if_neg]
    rintro ⟨hne, hts⟩
    cases block with
    | nil => exact hne hindex
    | cons q block => exact hts ((hkeys q (by simp)).symm.trans (h.timestamp q (by simp)))
  · rw [kept, if_neg hkeys, data_nil]
    have hts : timestamp ≠ d.timestampInProgress := fun e => hkeys fun q hq => (h.timestamp q hq).trans e.symm
    by_cases hdata : data block = []
    · -- no bytes, so the index is 0 and the reset is skipped; it would change nothing
      rw [hdata] at hindex hstay
      rw [matchTimestamp, if_neg (fun hc => hc.1 hindex)]
      exact hstay
    · have hpos := values_nybbles_pos hdata
      rw [matchTimestamp, if_pos ⟨by omega, hts⟩, resetDecoder_eq]
      rfl

/-- What the device shows of what the reassembler makes of a packet. -/
def emissionSignals : Packet × Option (Emission UInt8 UInt8 (List Pixel)) → List Signal
  | (p, none) => [.report p]
  | (p, some (.frame _ px)) => [.report p, .frame p.key (imageOf (padded px))]
  | (p, some (.error _)) => [.report p, .error p.key]

/-- **One report.** -/
theorem reportStep_refines {d : Device} {block : List Packet} (h : Tracks d block) (p : Packet) :
    Tracks (reportStep d p).1 (step frameReader block p).1 ∧
      (reportStep d p).2 = (step frameReader block p).2.flatMap emissionSignals := by
  have hmore := kept_more frameReader h.collecting p.key
  have hdecodes := decodeBytes_after { d with timestampInProgress := p.key } hmore p.data
  rw [← matchTimestamp_tracks h] at hdecodes
  have hdata : data (kept block p.key) ++ p.data = data (kept block p.key ++ [p]) := by simp
  rw [hdata] at hdecodes
  have hnext := step_collecting frameReader block p h.collecting
  simp only [reportStep]
  generalize decodeBytes (matchTimestamp d p.key) p.data = r at hdecodes
  cases hdecodes with
  | goesOn hv =>
    have hs : step frameReader block p = (kept block p.key ++ [p], [(p, none)]) := by rw [step, hv]
    rw [hs] at hnext ⊢
    exact ⟨⟨rfl, hnext, joined_key⟩, rfl⟩
  | @completes px hv =>
    have hs : step frameReader block p = ([], [(p, some (.frame (kept block p.key ++ [p]) px))]) := by rw [step, hv]
    rw [hs]
    exact ⟨tracks_reset rfl, rfl⟩
  | rejects hv =>
    have hs : step frameReader block p = ([], [(p, some (.error (kept block p.key ++ [p])))]) := by rw [step, hv]
    rw [hs]
    exact ⟨tracks_reset rfl, rfl⟩

/-- **All reports.** -/
theorem reports_refine {d : Device} {block : List Packet} (h : Tracks d block) (ps : List Packet) :
    Tracks (after reportStep d ps) (after (step frameReader) block ps) ∧
      outputs reportStep d ps = (outputs (step frameReader) block ps).flatMap emissionSignals := by
  have hsim := simulates reportStep (step frameReader) (fun p => [p]) emissionSignals Tracks (fun _ => True)
    (fun d block p _ h => by simpa using reportStep_refines h p) h (fun p (_ : p ∈ ps) => trivial)
  simpa using hsim

end TouchMouse
