import TouchMouse.Call.Run

/-!
# Decode errors and the reports after them

After a decode error the decoder is reset to the state it has between frames,
while the rest of the broken frame is still to come under the same timestamp.
That rest is decoded from pixel 0; a frame comes out of it exactly when it
begins with the encoding of one.
-/

namespace TouchMouse
open Transducer Reassembly

/-! ## The signals of a reassembled trace -/

/-- A signal that a stretch of reports with this timestamp can contain. -/
def Signal.inStretch (timestamp : UInt8) : Signal → Bool
  | .report p => p.key = timestamp
  | _ => true

/-- The signals up to the next report with another timestamp. -/
def stretch (timestamp : UInt8) (ss : List Signal) : List Signal := ss.takeWhile (Signal.inStretch timestamp)

/-- The trace of the reassembler, one entry for each packet. -/
abbrev Trace := List (Packet × Option (Emission UInt8 UInt8 (List Pixel)))

theorem reports_emissions (trace : Trace) : reports (trace.flatMap emissionSignals) = trace.map Prod.fst := by
  induction trace with
  | nil => rfl
  | cons x trace ih =>
    obtain ⟨p, e⟩ := x
    rw [List.flatMap_cons, reports_append, ih]
    rcases e with - | (- | -) <;> rfl

/-- Of one packet's signals either all are in the stretch, or the first is not. -/
theorem emissionSignals_inStretch (timestamp : UInt8) (x : Packet × Option (Emission UInt8 UInt8 (List Pixel))) :
    (x.1.key = timestamp → ∀ s ∈ emissionSignals x, s.inStretch timestamp) ∧
      (x.1.key ≠ timestamp → ∃ ss, emissionSignals x = .report x.1 :: ss) := by
  obtain ⟨p, e⟩ := x
  rcases e with - | (- | -) <;> simp [emissionSignals, Signal.inStretch]

theorem stretch_emissions (timestamp : UInt8) (trace : Trace) :
    stretch timestamp (trace.flatMap emissionSignals) =
      (trace.takeWhile fun x => x.1.key = timestamp).flatMap emissionSignals := by
  induction trace with
  | nil => rfl
  | cons x trace ih =>
    obtain ⟨hall, hfirst⟩ := emissionSignals_inStretch timestamp x
    rw [stretch] at ih
    rw [stretch, List.flatMap_cons]
    by_cases hx : x.1.key = timestamp
    · rw [List.takeWhile_append_of_pos (hall hx), ih, List.takeWhile_cons_of_pos (by simpa using hx), List.flatMap_cons]
    · obtain ⟨ss, hss⟩ := hfirst hx
      rw [List.takeWhile_cons_of_neg (by simpa using hx), hss, List.cons_append,
        List.takeWhile_cons_of_neg (by simpa [Signal.inStretch] using hx), List.flatMap_nil]

theorem reports_stretch (timestamp : UInt8) (trace : Trace) :
    reports (stretch timestamp (trace.flatMap emissionSignals)) =
      (trace.map Prod.fst).takeWhile fun q => q.key = timestamp := by
  rw [stretch_emissions, reports_emissions, List.takeWhile_map]
  rfl

theorem frame_mem_emissions {trace : Trace} {timestamp : UInt8} {image : Vector UInt8 195} :
    .frame timestamp image ∈ trace.flatMap emissionSignals ↔
      ∃ q b px, (q, some (.frame b px)) ∈ trace ∧ q.key = timestamp ∧ imageOf (padded px) = image := by
  rw [List.mem_flatMap]
  constructor
  · rintro ⟨⟨q, e⟩, hmem, hs⟩
    rcases e with - | (⟨b, px⟩ | b)
    · simp [emissionSignals] at hs
    · simp only [emissionSignals, List.mem_cons, reduceCtorEq, Signal.frame.injEq, List.not_mem_nil, or_false,
        false_or] at hs
      exact ⟨q, b, px, hmem, hs.1.symm, hs.2.symm⟩
    · simp [emissionSignals] at hs
  · rintro ⟨q, b, px, hmem, rfl, rfl⟩
    exact ⟨_, hmem, by simp [emissionSignals]⟩

/-- An error among the signals is one of the trace, and what follows it
follows there. -/
theorem error_split {trace : Trace} {timestamp : UInt8} {pre post : List Signal} :
    trace.flatMap emissionSignals = pre ++ .error timestamp :: post ↔
      ∃ before p b later, trace = before ++ (p, some (.error b)) :: later ∧ p.key = timestamp ∧
        pre = before.flatMap emissionSignals ++ [.report p] ∧ post = later.flatMap emissionSignals := by
  constructor
  · intro h
    induction trace generalizing pre with
    | nil => simp at h
    | cons x trace ih =>
      have hrest : ∀ pre', trace.flatMap emissionSignals = pre' ++ .error timestamp :: post →
          pre = emissionSignals x ++ pre' → ∃ before p b later, x :: trace = before ++ (p, some (.error b)) :: later ∧
            p.key = timestamp ∧ pre = before.flatMap emissionSignals ++ [.report p] ∧
            post = later.flatMap emissionSignals := by
        rintro pre' htrace rfl
        obtain ⟨before, p, b, later, rfl, hkey, rfl, rfl⟩ := ih htrace
        exact ⟨x :: before, p, b, later, rfl, hkey, by simp, rfl⟩
      rw [List.flatMap_cons, List.append_eq_append_iff] at h
      rcases h with ⟨pre', hpre, htrace⟩ | ⟨tail, hx, htail⟩
      · exact hrest pre' htrace hpre
      · cases tail with
        | nil => exact hrest [] htail.symm (by simpa using hx.symm)
        | cons s tail =>
          -- the error is one of the signals of `x`
          obtain ⟨rfl, rfl⟩ := List.cons.inj htail
          obtain ⟨p, e⟩ := x
          rcases e with - | (⟨b, px⟩ | b)
          · have hmem : Signal.error timestamp ∈ emissionSignals (p, none) := by rw [hx]; simp
            simp [emissionSignals] at hmem
          · have hmem : Signal.error timestamp ∈ emissionSignals (p, some (.frame b px)) := by rw [hx]; simp
            simp [emissionSignals] at hmem
          · rcases pre with - | ⟨s, pre⟩
            · simp [emissionSignals] at hx
            · simp only [emissionSignals, List.cons_append, List.cons.injEq] at hx
              obtain ⟨rfl, hx⟩ := hx
              rcases pre with - | ⟨s, pre⟩
              · simp only [List.nil_append, List.cons.injEq, Signal.error.injEq] at hx
                obtain ⟨hkey, rfl⟩ := hx
                exact ⟨[], p, b, trace, rfl, hkey, rfl, rfl⟩
              · simp at hx
  · rintro ⟨before, p, b, later, rfl, rfl, rfl, rfl⟩
    simp [emissionSignals]

/-! ## Containment -/

/-- After a decode error nothing is delivered before a report with another
timestamp. -/
def ErrorContained (ss : List Signal) : Prop :=
  ∀ pre timestamp post, ss = pre ++ .error timestamp :: post →
    ∀ timestamp' image, .frame timestamp' image ∉ stretch timestamp post

/-- The data of the reports, from its first byte, begins with whole tokens
for exactly 181 pixels. -/
def BeginsFrame (ps : List Packet) : Prop :=
  ∃ tokens rest, nybbles (data ps) = scheme.encode tokens ++ rest ∧ (scheme.expand tokens).length = 181

theorem beginsFrame_iff (ps : List Packet) : BeginsFrame ps ↔ ∃ px, frameReader.verdict (data ps) = .full px := by
  constructor
  · rintro ⟨tokens, rest, hdata, hlen⟩
    exact ⟨_, (scheme.verdict_full_iff (by decide) _ _).2 ⟨tokens, rest, hdata, rfl, hlen⟩⟩
  · rintro ⟨px, hfull⟩
    obtain ⟨tokens, rest, hdata, rfl, hlen⟩ := (scheme.verdict_full_iff (by decide) _ _).1 hfull
    exact ⟨tokens, rest, hdata, hlen⟩

/-- Containment of the signals is containment of the trace. -/
theorem errorContained_emissions (trace : Trace) : ErrorContained (trace.flatMap emissionSignals) ↔ Contained trace := by
  constructor
  · rintro hc before p b later rfl q b' px hmem
    apply hc _ p.key _ (error_split.2 ⟨before, p, b, later, rfl, rfl, rfl, rfl⟩) q.key (imageOf (padded px))
    rw [stretch_emissions]
    exact frame_mem_emissions.2 ⟨q, b', px, hmem, rfl, rfl⟩
  · intro hc pre timestamp post hss timestamp' image hmem
    obtain ⟨before, p, b, later, htrace, rfl, -, rfl⟩ := error_split.1 hss
    rw [stretch_emissions] at hmem
    obtain ⟨q, b', px, hmem, -, -⟩ := frame_mem_emissions.1 hmem
    exact hc before p b later htrace q b' px hmem

/-- **Error containment**, over every run from an opened device: exactly when
after no decode error the reports that follow with its timestamp begin with a
frame. -/
theorem error_contained_iff {handle : Addr} {opened : Device} (hopen : touchmouseOpen handle = some opened)
    (ops : List Op) (reads : List ReadResult) :
    let ss := signals (run passive ops ⟨opened, reads⟩).2
    ErrorContained ss ↔
      ∀ pre timestamp post, ss = pre ++ .error timestamp :: post → ¬ BeginsFrame (reports (stretch timestamp post)) := by
  intro ss
  have hshows : ss = _ := (run_refines ⟨opened, reads⟩ (opened_tracks hopen) ops).shows
  rw [hshows, errorContained_emissions, contained_iff]
  constructor
  · intro hall pre timestamp post hss hbegins
    obtain ⟨before, p, b, later, htrace, rfl, -, rfl⟩ := error_split.1 hss
    obtain ⟨px, hfull⟩ := (beginsFrame_iff _).1 hbegins
    rw [reports_stretch] at hfull
    exact hall before p b later htrace px hfull
  · intro hall before p b later htrace px hfull
    refine hall _ p.key _ (error_split.2 ⟨before, p, b, later, htrace, rfl, rfl, rfl⟩) ((beginsFrame_iff _).2 ⟨px, ?_⟩)
    rw [reports_stretch]
    exact hfull

/-- Eleven bytes of FF overrun the frame. -/
def overrun : Packet := ⟨1, List.replicate 11 0xff⟩

/-- A single byte after an overrun is not a frame. -/
theorem error_contained_short_tail :
    let reads := [ReadResult.ofPacket overrun (by decide), .ofPacket ⟨1, [0]⟩ (by decide)]
    ErrorContained (signals
      (run passive [.processEventsTimeout (-1) fun _ => 1, .processEventsTimeout (-1) fun _ => 1]
        ⟨(touchmouseOpen 1).get (by decide), reads⟩).2) := by
  intro reads
  apply (error_contained_iff (rfl : touchmouseOpen 1 = some _) _ reads).2
  intro pre timestamp post hss hbegins
  have hsignals : signals (run passive [.processEventsTimeout (-1) fun _ => 1, .processEventsTimeout (-1) fun _ => 1]
      ⟨(touchmouseOpen 1).get (by decide), reads⟩).2 = [.report overrun, .error 1, .report ⟨1, [0]⟩] := by
    decide +kernel
  have hss' := hsignals.symm.trans hss
  -- the error is the second of the three signals
  rcases pre with - | ⟨s, - | ⟨s', - | ⟨s'', pre⟩⟩⟩ <;> simp at hss'
  obtain ⟨-, rfl, rfl⟩ := hss'
  obtain ⟨px, hfull⟩ := (beginsFrame_iff _).1 hbegins
  have hmore : frameReader.verdict (data (reports (stretch 1 [.report ⟨1, [0]⟩]))) = .more := by decide +kernel
  rw [hmore] at hfull
  cases hfull

/-- A whole frame after an overrun, under the same timestamp, is delivered to
the callback. -/
theorem not_error_contained_frame_tail :
    let tail : Packet := ⟨1, List.replicate 10 0xff ++ [0]⟩
    let reads := [ReadResult.ofPacket overrun (by decide), .ofPacket tail (by decide)]
    ¬ ErrorContained (signals
      (run passive
        [.setImageUpdateCallback 1, .processEventsTimeout (-1) fun _ => 1, .processEventsTimeout (-1) fun _ => 1]
        ⟨(touchmouseOpen 1).get (by decide), reads⟩).2) := by
  intro tail reads hc
  let calls : List Op :=
    [.setImageUpdateCallback 1, .processEventsTimeout (-1) fun _ => 1, .processEventsTimeout (-1) fun _ => 1]
  let env : Env := ⟨(touchmouseOpen 1).get (by decide), reads⟩
  have hrefines := run_refines env (opened_tracks (rfl : touchmouseOpen 1 = some _)) calls
  have hdrained : (run passive calls env).1.reads = [] := by decide +kernel
  have hreads := hrefines.reads
  rw [hdrained, List.append_nil] at hreads
  have hreports := run_reports env calls (hrefines.inRange (by simp [env, reads]))
  rw [hreads, show touchReports env.reads = [overrun, tail] from rfl] at hreports
  have htrace : outputs (step frameReader) [] [overrun, tail] =
      [(overrun, some (.error [overrun])), (tail, some (.frame [tail] (List.replicate 181 0)))] := by decide +kernel
  have hshows := hrefines.shows
  rw [hreports, htrace] at hshows
  apply (errorContained_emissions _).1 (hshows ▸ hc) [] overrun [overrun] _ rfl tail [tail] (List.replicate 181 0)
  rw [List.takeWhile_cons_of_pos (by decide)]
  exact .head _

end TouchMouse
