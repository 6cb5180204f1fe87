import TouchMouse.Call.Run

/-!
# A call with a timeout of 0

The deadline of such a call is its first reading of the clock, and has passed
at the end of the first turn. The call reads once, whatever is waiting.
-/

namespace TouchMouse
open Transducer Reassembly

/-- The deadline of a call that does not wait has passed: it turns once. -/
theorem nonblocking_turn {clock : Clock} (hclock : clock 0 ≠ 0) (hmono : ∀ i, clock i ≤ clock (i + 1)) (d : Device)
    (q : ReadResult) (queue : List ReadResult) :
    ∃ c, LoopTurn (clock 0) (clock 1) (fun i => clock (i + 2)) .zero d q queue (decodingEvents d .zero q) c ∧
      touchmouseProcessEventsTimeout passive 0 clock ⟨d, q :: queue⟩ =
        ⟨c.ret, c.env, startEvents 0 clock ++ c.events⟩ ∧ ¬ clock 2 < clock 0 := by
  have hdeadline : deadlineOf 0 clock = clock 0 := by
    rw [deadlineOf, if_neg (by decide), finiteDeadline]
    exact UInt64.add_zero (clock 0)
  have hnanos : clock 1 ≠ 0 := by
    intro h
    have := hmono 0
    rw [h] at this
    exact hclock (UInt64.le_zero_iff.1 this)
  rcases call_cases 0 clock ⟨d, q :: queue⟩ with ⟨hbroken, -⟩ | ⟨-, -, hc⟩
  · rw [hdeadline] at hbroken
    exact absurd hbroken (not_or.2 ⟨hnanos, hclock⟩)
  · rw [hdeadline] at hc
    exact ⟨_, eventLoop_turn _ _ _ _ _ _ _, hc, UInt64.not_lt.2 (UInt64.le_trans (hmono 0) (hmono 1))⟩

/-- Decoding by itself shows no frame. -/
theorem signals_quiet_frame {es : List Event} (h : ∀ e ∈ es, e.quiet) (timestamp : UInt8) (image : Vector UInt8 195) :
    Signal.frame timestamp image ∉ signals es := by
  intro hmem
  obtain ⟨e, he, hsignal⟩ := List.mem_filterMap.1 hmem
  have hq := h e he
  cases e <;> first | exact False.elim hq | cases hsignal

/-- **A call that does not wait delivers a waiting frame** exactly if the
first of the pending reads completes it: it takes no other. -/
theorem nonblocking_delivers_iff {clock : Clock} (hclock : clock 0 ≠ 0) (hmono : ∀ i, clock i ≤ clock (i + 1))
    (d : Device) (pre post : List ReadResult) {r : ReadResult} {timestamp : UInt8} {image : Vector UInt8 195}
    (hpre : ∀ s ∈ outputs readStep (d, .zero) pre, ∃ p, s = .report p)
    (hframe : .frame timestamp image ∈ (readStep (after readStep (d, .zero) pre) r).2) :
    (d.cb, ⟨d.userdata, image, timestamp⟩) ∈
      callbacks (touchmouseProcessEventsTimeout passive 0 clock ⟨d, pre ++ r :: post⟩).events ↔ pre = [] := by
  have hstart : callbacks (startEvents 0 clock) = [] := rfl
  constructor
  · intro hmem
    cases pre with
    | nil => rfl
    | cons q pre =>
      obtain ⟨c, hturn, hcall, hlate⟩ := nonblocking_turn hclock hmono d q (pre ++ r :: post)
      have hquiet := decodingEvents_quiet d .zero q
      rw [List.cons_append, hcall] at hmem
      simp only [callbacks_append, hstart, List.nil_append] at hmem
      cases hturn with
      | readFailed => cases hmem
      | decodeFailed | timedOut =>
        rw [callbacks_turn hquiet] at hmem
        cases hmem
      | goesOn _ _ _ early => exact absurd early hlate
      | delivered _ step =>
        obtain ⟨p, hp⟩ := hpre _ (by rw [outputs_cons, step]; simp; exact .inr (.inl rfl))
        cases hp
  · rintro rfl
    obtain ⟨c, hturn, hcall, hlate⟩ := nonblocking_turn hclock hmono d r post
    have hquiet := decodingEvents_quiet d .zero r
    have hnone := signals_quiet_frame hquiet timestamp image
    rw [List.nil_append, hcall]
    simp only [callbacks_append, hstart, List.nil_append]
    rw [after_nil] at hframe
    cases hturn with
    | readFailed failed =>
      rw [readStep_failed _ failed] at hframe
      cases hframe
    | decodeFailed _ step =>
      rw [step] at hframe
      simp [hnone] at hframe
    | timedOut _ step =>
      rw [step] at hframe
      exact absurd hframe hnone
    | goesOn _ _ _ early => exact absurd early hlate
    | delivered _ step =>
      rw [step] at hframe
      simp only [List.mem_append, hnone, List.mem_singleton, Signal.frame.injEq, false_or] at hframe
      obtain ⟨rfl, rfl⟩ := hframe
      rw [callbacks_turn hquiet]
      exact List.mem_singleton.2 rfl

/-- The frame of zeroes in one report. -/
def zeroReport : Packet := ⟨1, List.replicate 10 0xff ++ [0]⟩

theorem nonblocking_delivers_one_report :
    let d := touchmouseSetImageUpdateCallback ((touchmouseOpen 1).get (by decide)) 1
    let r := ReadResult.ofPacket zeroReport (by decide)
    (d.cb, ⟨d.userdata, imageOf (padded (List.replicate 181 0)), 1⟩) ∈
      callbacks (touchmouseProcessEventsTimeout passive 0 (fun _ => 1) ⟨d, [r]⟩).events := by
  intro d r
  refine (nonblocking_delivers_iff (by decide) (fun _ => UInt64.le_refl _) d [] [] (by simp) ?_).2 rfl
  have htracks : Tracks d [] := (opened_tracks (rfl : touchmouseOpen 1 = some _)).setImageUpdateCallback 1
  have hone : outputs (step frameReader) [] [zeroReport] =
      [(zeroReport, some (.frame [zeroReport] (List.replicate 181 0)))] := by decide +kernel
  have hrange : ∀ q ∈ [r], q.InRange := by simp [r]
  have hread := reads_refine htracks .zero hrange
  rw [show touchReports [r] = [zeroReport] from rfl, hone] at hread
  rw [after_nil, show (readStep (d, .zero) r).2 = _ from (List.append_nil _).symm.trans hread]
  exact .tail _ (.head _)

/-- In two reports it stays where it is: the call reads the first and returns. -/
theorem nonblocking_leaves_two_reports :
    let d := touchmouseSetImageUpdateCallback ((touchmouseOpen 1).get (by decide)) 1
    let p : Packet := ⟨1, List.replicate 10 0xff⟩
    let q : Packet := ⟨1, [0]⟩
    let queue := [ReadResult.ofPacket p (by decide), .ofPacket q (by decide)]
    outputs readStep (d, .zero) queue =
        [.report p, .report q, .frame 1 (imageOf (padded (List.replicate 181 0)))] ∧
      callbacks (touchmouseProcessEventsTimeout passive 0 (fun _ => 1) ⟨d, queue⟩).events = [] ∧
      (touchmouseProcessEventsTimeout passive 0 (fun _ => 1) ⟨d, queue⟩).ret = some 0 := by
  intro d p q queue
  have htracks : Tracks d [] := (opened_tracks (rfl : touchmouseOpen 1 = some _)).setImageUpdateCallback 1
  have hrange : ∀ r ∈ queue, r.InRange := by simp [queue]
  have htwo : outputs (step frameReader) [] [p, q] =
      [(p, none), (q, some (.frame [p, q] (List.replicate 181 0)))] := by decide +kernel
  refine ⟨?_, by decide +kernel, by decide +kernel⟩
  rw [reads_refine htracks .zero hrange, show touchReports queue = [p, q] from rfl, htwo]
  rfl

end TouchMouse
