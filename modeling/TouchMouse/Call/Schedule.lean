import TouchMouse.Call.Run

/-!
# Schedules of calls

Reads spread over calls in two ways, with other timeouts and other clocks:
what the calls show and the device they leave depend on the reads alone. A call
with a working clock takes a read if there is one, so as many calls as there
are reads take them all (`schedule_drains`).
-/

namespace TouchMouse
open Transducer Reassembly

/-- The calls of a schedule, each with its timeout and its clock. -/
def schedule (calls : List (Int32 × Clock)) : List Op := calls.map fun c => .processEventsTimeout c.1 c.2

/-- What a run is when all of its operations are calls: a fold over the
reports it took. -/
structure Folds (env env' : Env) (es : List Event) : Prop where
  dev : env'.dev = after reportStep env.dev (touchReports (received es))
  shows : signals es = outputs reportStep env.dev (touchReports (received es))
  reads : received es ++ env'.reads = env.reads

theorem call_folds (milliseconds : Int32) (clock : Clock) {env : Env} (h : ∀ r ∈ env.reads, r.InRange) :
    let c := touchmouseProcessEventsTimeout passive milliseconds clock env
    Folds env c.env c.events := by
  intro c
  obtain ⟨hdev, hsig, hreads⟩ := call_fold milliseconds clock env
  have hrange : ∀ r ∈ received c.events, r.InRange := fun r hr => h r (by rw [← hreads]; exact List.mem_append_left _ hr)
  obtain ⟨hdev', hsig'⟩ := readStep_fold env.dev .zero hrange
  exact ⟨hdev.trans hdev', hsig.trans hsig', hreads⟩

/-- A schedule is a fold over the reports it took. -/
theorem schedule_folds (calls : List (Int32 × Clock)) (env : Env) (h : ∀ r ∈ env.reads, r.InRange) :
    Folds env (run passive (schedule calls) env).1 (run passive (schedule calls) env).2 := by
  refine run_induction (fun op => ∃ milliseconds clock, op = .processEventsTimeout milliseconds clock)
    (fun env r => (∀ q ∈ env.reads, q.InRange) → Folds env r.1 r.2) (fun env _ => ⟨rfl, rfl, rfl⟩) ?_ ?_ ?_ env h
  · rintro env _ ⟨milliseconds, clock, rfl⟩ h
    exact call_folds milliseconds clock h
  · rintro env _ code rest ⟨milliseconds, clock, rfl⟩ - ih h
    have hcall := call_folds milliseconds clock h
    rw [Op.exec_processEventsTimeout] at ih ⊢
    have hrest := ih fun r hr => h r (by rw [← hcall.reads]; exact List.mem_append_right _ hr)
    refine ⟨?_, ?_, ?_⟩ <;>
      simp only [signals_append, received_append, signals_returned, received_returned, touchReports_append,
        after_append, outputs_append, ← hcall.dev, ← hcall.shows]
    · exact hrest.dev
    · rw [hrest.shows]
    · rw [List.append_assoc, hrest.reads, hcall.reads]
  · intro op hop
    obtain ⟨c, -, rfl⟩ := List.mem_map.1 hop
    exact ⟨c.1, c.2, rfl⟩

/-! ## Progress -/

/-- The clock of a call passes the check before the loop. -/
def Working (milliseconds : Int32) (clock : Clock) : Prop :=
  clock (startIndex milliseconds) ≠ 0 ∧ deadlineOf milliseconds clock ≠ 0

/-- A loop takes the next read. -/
theorem eventLoop_takes (deadline nanos : UInt64) (clock : Clock) (data : Buffer) (dev : Device) (r : ReadResult)
    (reads : List ReadResult) :
    ∃ later, received (eventLoop passive deadline nanos clock data dev (r :: reads)).events = r :: later := by
  have hturn := eventLoop_turn deadline nanos clock data dev r reads
  have hquiet := decodingEvents_quiet dev data r
  generalize eventLoop passive deadline nanos clock data dev (r :: reads) = c at hturn
  cases hturn with
  | readFailed => exact ⟨[], rfl⟩
  | delivered | decodeFailed | timedOut | goesOn => exact ⟨_, received_turn hquiet _⟩

/-- A loop that waits for ever has taken all there was. -/
theorem eventLoop_waits (deadline nanos : UInt64) (clock : Clock) (data : Buffer) (dev : Device) (reads : List ReadResult)
    (h : (eventLoop passive deadline nanos clock data dev reads).ret = none) :
    (eventLoop passive deadline nanos clock data dev reads).env.reads = [] := by
  induction reads generalizing nanos clock data dev with
  | nil => rfl
  | cons r reads ih =>
    have hturn := eventLoop_turn deadline nanos clock data dev r reads
    generalize eventLoop passive deadline nanos clock data dev (r :: reads) = c at hturn h
    cases hturn with
    | readFailed | delivered | decodeFailed | timedOut => cases h
    | goesOn _ _ _ _ loop =>
      subst loop
      exact ih _ _ _ _ h

/-- **Progress.** A call whose clock works leaves fewer reads than it found, and
none if it waits for ever. -/
theorem call_takes {milliseconds : Int32} {clock : Clock} (hworking : Working milliseconds clock) (env : Env) :
    let c := touchmouseProcessEventsTimeout passive milliseconds clock env
    (env.reads ≠ [] → c.env.reads.length < env.reads.length) ∧ (c.ret = none → c.env.reads = []) := by
  intro c
  have hreads : received c.events ++ c.env.reads = env.reads := (call_fold milliseconds clock env).2.2
  rcases call_cases milliseconds clock env with ⟨hbroken, -⟩ | ⟨-, -, hc⟩
  · exact absurd hbroken (not_or.2 hworking)
  · refine ⟨fun hne => ?_, fun hret => ?_⟩
    · obtain ⟨r, reads, hnext⟩ := List.exists_cons_of_ne_nil hne
      obtain ⟨later, htaken⟩ := eventLoop_takes (deadlineOf milliseconds clock) (clock (startIndex milliseconds))
        (fun i => clock (i + startIndex milliseconds + 1)) .zero env.dev r reads
      have hreceived : received c.events = r :: later := by
        simp only [c, hc, received_append, startEvents_received, List.nil_append]
        rw [hnext]
        exact htaken
      rw [hreceived] at hreads
      rw [← hreads, List.length_append, List.length_cons]
      omega
    · simp only [c, hc] at hret ⊢
      exact eventLoop_waits _ _ _ _ _ _ hret

/-- As many calls as there are reads take them all. -/
theorem schedule_drains {calls : List (Int32 × Clock)} (hworking : ∀ c ∈ calls, Working c.1 c.2) {env : Env}
    (hlong : env.reads.length ≤ calls.length) : (run passive (schedule calls) env).1.reads = [] := by
  induction calls generalizing env with
  | nil => exact List.length_eq_zero_iff.1 (Nat.le_zero.1 hlong)
  | cons call calls ih =>
    obtain ⟨hfewer, hwaits⟩ := call_takes (hworking call (by simp)) env
    simp only [schedule, List.map_cons, run_cons, Op.exec_processEventsTimeout]
    cases hret : (touchmouseProcessEventsTimeout passive call.1 call.2 env).ret with
    | none => exact hwaits hret
    | some code =>
      apply ih fun c hc => hworking c (List.mem_cons_of_mem _ hc)
      rw [List.length_cons] at hlong
      by_cases hne : env.reads = []
      · have hreads := (call_fold call.1 call.2 env).2.2
        rw [hne] at hreads
        rw [(List.append_eq_nil_iff.1 hreads).2]
        exact Nat.zero_le _
      · have := hfewer hne
        omega

/-! ## Two schedules -/

/-- **Schedules do not matter.** Two schedules that take the same reads show
the same reports, frames and errors in the same order, leave the same device,
and are one fold of `reportStep` over the reports among the reads. -/
theorem schedule_independent (d : Device) {reads : List ReadResult} (hrange : ∀ r ∈ reads, r.InRange)
    (calls calls' : List (Int32 × Clock))
    (hdrained : (run passive (schedule calls) ⟨d, reads⟩).1.reads = [])
    (hdrained' : (run passive (schedule calls') ⟨d, reads⟩).1.reads = []) :
    let r := run passive (schedule calls) ⟨d, reads⟩
    let r' := run passive (schedule calls') ⟨d, reads⟩
    signals r.2 = signals r'.2 ∧ r.1.dev = r'.1.dev ∧
      signals r.2 = outputs reportStep d (touchReports reads) ∧
      r.1.dev = after reportStep d (touchReports reads) := by
  obtain ⟨hdev, hsig, hreads⟩ := schedule_folds calls ⟨d, reads⟩ hrange
  obtain ⟨hdev', hsig', hreads'⟩ := schedule_folds calls' ⟨d, reads⟩ hrange
  rw [hdrained, List.append_nil] at hreads
  rw [hdrained', List.append_nil] at hreads'
  rw [hreads] at hdev hsig
  rw [hreads'] at hdev' hsig'
  exact ⟨hsig.trans hsig'.symm, hdev.trans hdev'.symm, hsig, hdev⟩

/-- A frame of 181 zeroes in two reports, read by one call that waits for
ever and by two calls that do not wait. -/
theorem schedule_independent_two_reports :
    let d := touchmouseSetImageUpdateCallback ((touchmouseOpen 1).get (by decide)) 1
    let p : Packet := ⟨1, List.replicate 10 0xff⟩
    let q : Packet := ⟨1, [0]⟩
    let reads := [ReadResult.ofPacket p (by decide), .ofPacket q (by decide)]
    let frame : List Signal := [.report p, .report q, .frame 1 (imageOf (padded (List.replicate 181 0)))]
    signals (run passive (schedule [(-1, fun _ => 1)]) ⟨d, reads⟩).2 = frame ∧
      signals (run passive (schedule [(0, fun _ => 1), (0, fun _ => 1)]) ⟨d, reads⟩).2 = frame := by
  intro d p q reads frame
  have hrange : ∀ r ∈ reads, r.InRange := by simp [reads]
  have hdrained : (run passive (schedule [(0, fun _ => 1), (0, fun _ => 1)]) ⟨d, reads⟩).1.reads = [] := by
    apply schedule_drains
    · unfold Working
      decide
    · exact Nat.le_refl 2
  obtain ⟨hsame, -, hfold, -⟩ := schedule_independent d hrange [(-1, fun _ => 1)] _ (by decide +kernel) hdrained
  have htracks : Tracks d [] := (opened_tracks (rfl : touchmouseOpen 1 = some _)).setImageUpdateCallback 1
  have htwo : outputs (step frameReader) [] [p, q] = [(p, none), (q, some (.frame [p, q] (List.replicate 181 0)))] := by
    decide +kernel
  rw [show touchReports reads = [p, q] from rfl, (reports_refine htracks [p, q]).2, htwo] at hfold
  exact ⟨hfold, hsame.symm.trans hfold⟩

end TouchMouse
