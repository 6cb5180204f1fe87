import TouchMouse.Call.Own
import TouchMouse.Call.Outcome

/-!
# Readings of a broken clock

`mono_timer_nanos` returns 0 on error. A call checks its second reading, or
its first if it has no deadline to compute, and the deadline; it does not
check the readings at the ends of its turns, nor the first reading by itself.
-/

namespace TouchMouse

/-- A call reports each failure of its clock: it reads no more after it, and
returns -1 without having invoked the callback. -/
def Reported (c : CallResult) : Prop :=
  ∀ before after, own c.events = before ++ .clock 0 :: after →
    hidReads after = [] ∧ c.ret = some (-1) ∧ callbacks (own c.events) = []

/-- The readings of a call at the ends of its turns. -/
def turnReadings (milliseconds : Int32) (c : CallResult) : List UInt64 :=
  (clockReadings (own c.events)).drop (startIndex milliseconds + 1)

/-- The readings that the check before the loop sees through: with a timeout
of at least 0 a first reading of 0 shows in the deadline only if the product
in it is 0. -/
def StartChecked (milliseconds : Int32) (clock : Clock) : Prop :=
  0 ≤ milliseconds → clock 0 = 0 → clock 1 = 0 ∨ milliseconds * 1000000 = 0

/-! ## The loop does not report -/

/-- A reading of 0 is before any deadline: the loop reads on after it. -/
theorem eventLoop_zero {deadline : UInt64} (hdeadline : deadline ≠ 0) (nanos : UInt64) (clock : Clock) (data : Buffer)
    (dev : Device) (reads : List ReadResult) :
    let c := eventLoop passive deadline nanos clock data dev reads
    0 ∈ clockReadings c.events → ∃ before after, c.events = before ++ .clock 0 :: after ∧ hidReads after ≠ [] := by
  induction reads generalizing nanos clock data dev with
  | nil => intro c hzero; cases hzero
  | cons r reads ih =>
    have hturn := eventLoop_turn deadline nanos clock data dev r reads
    have hquiet := decodingEvents_quiet dev data r
    dsimp only
    generalize eventLoop passive deadline nanos clock data dev (r :: reads) = c at hturn
    generalize decodingEvents dev data r = es at hturn hquiet
    intro hzero
    cases hturn with
    | readFailed => cases hzero
    | delivered | decodeFailed =>
      rw [clockReadings_turn hquiet] at hzero
      cases hzero
    | timedOut _ _ _ late =>
      rw [clockReadings_turn hquiet] at hzero
      rw [← List.mem_singleton.1 hzero] at late
      exact absurd (UInt64.pos_iff_ne_zero.2 hdeadline) late
    | @goesOn after rest _ _ _ _ loop =>
      subst loop
      have hreads := eventLoop_hidReads deadline (clock 0) (fun i => clock (i + 1)) (data.receive r.bytes) after reads
      dsimp only at hreads
      by_cases hclock : clock 0 = 0
      · refine ⟨_, _, by rw [hclock], ?_⟩
        rw [← hclock, hreads]
        exact List.cons_ne_nil _ _
      · rw [clockReadings_turn hquiet] at hzero
        have hlater := (List.mem_cons.1 hzero).resolve_left (Ne.symm hclock)
        obtain ⟨before, after', hevents, hne⟩ := ih (clock 0) (fun i => clock (i + 1)) (data.receive r.bytes) after hlater
        refine ⟨[.hidRead (remaining deadline nanos), .received r] ++ es ++ .clock (clock 0) :: before, after', ?_, hne⟩
        rw [hevents]
        simp

/-! ## A call -/

theorem mem_clockReadings {es : List Event} {nanos : UInt64} : nanos ∈ clockReadings es ↔ .clock nanos ∈ es := by
  constructor
  · intro h
    obtain ⟨e, he, heq⟩ := List.mem_filterMap.1 h
    cases e <;> cases heq
    exact he
  · intro h
    exact List.mem_filterMap.2 ⟨_, h, rfl⟩

theorem startEvents_clocks (milliseconds : Int32) (clock : Clock) :
    clockReadings (startEvents milliseconds clock) = (List.range (startIndex milliseconds + 1)).map clock := by
  simp [startEvents, clockReadings, Event.clock?, List.filterMap_map, Function.comp_def]

/-- Where the readings before the loop are all there is to a call. -/
theorem turnReadings_eq {cbs : Callbacks} {milliseconds : Int32} {clock : Clock} {env : Env} {es : List Event}
    (h : (touchmouseProcessEventsTimeout passive milliseconds clock env).events = startEvents milliseconds clock ++ es) :
    turnReadings milliseconds (touchmouseProcessEventsTimeout cbs milliseconds clock env) = clockReadings es := by
  rw [turnReadings, (call_own cbs milliseconds clock env).1, h, clockReadings_append, startEvents_clocks]
  exact List.drop_left' (by simp)

/-- The deadline of a call whose first reading is 0. -/
theorem finiteDeadline_zero (milliseconds : Int32) : finiteDeadline milliseconds 0 = 0 ↔ milliseconds * 1000000 = 0 := by
  rw [finiteDeadline, UInt64.zero_add]
  constructor
  · intro h
    apply Int32.toInt_inj.1
    rw [← Int32.toInt_toInt64, ← Int64.toInt64_toUInt64 (milliseconds * 1000000).toInt64, h]
    rfl
  · intro h
    rw [h]
    rfl

/-- What the check before the loop rejects is within what it sees. -/
theorem startChecked_of_broken {milliseconds : Int32} {clock : Clock}
    (h : clock (startIndex milliseconds) = 0 ∨ deadlineOf milliseconds clock = 0) : StartChecked milliseconds clock := by
  intro hms hzero
  have hneg : ¬ milliseconds < 0 := Int32.not_lt.2 hms
  rwa [startIndex, deadlineOf, if_neg hneg, if_neg hneg, hzero, finiteDeadline_zero] at h

/-- And of what it sees it lets no failure pass. -/
theorem startEvents_nonzero {milliseconds : Int32} {clock : Clock} (h : StartChecked milliseconds clock)
    (hclock : clock (startIndex milliseconds) ≠ 0) (hdeadline : deadlineOf milliseconds clock ≠ 0) :
    0 ∉ clockReadings (startEvents milliseconds clock) := by
  rw [startEvents_clocks]
  intro hmem
  obtain ⟨i, hi, hzero⟩ := List.mem_map.1 hmem
  have hi := List.mem_range.1 hi
  by_cases hms : milliseconds < 0
  · rw [startIndex, if_pos hms] at hclock hi
    obtain rfl : i = 0 := by omega
    exact hclock hzero
  · rw [startIndex, if_neg hms] at hclock hi
    rw [deadlineOf, if_neg hms] at hdeadline
    have hi' : i = 0 ∨ i = 1 := by omega
    rcases hi' with rfl | rfl
    · rcases h (Int32.not_lt.1 hms) hzero with hsecond | hproduct
      · exact hclock hsecond
      · rw [hzero] at hdeadline
        exact hdeadline ((finiteDeadline_zero milliseconds).2 hproduct)
    · exact hclock hzero

/-- A call that does not get to its loop reports. -/
theorem reported_of_broken {cbs : Callbacks} {milliseconds : Int32} {clock : Clock} {env : Env}
    (hc : touchmouseProcessEventsTimeout passive milliseconds clock env =
      ⟨some (-1), env, startEvents milliseconds clock⟩) :
    Reported (touchmouseProcessEventsTimeout cbs milliseconds clock env) := by
  obtain ⟨hown, hret⟩ := call_own cbs milliseconds clock env
  rw [hc] at hret
  intro before after hevents
  rw [hown, hc] at hevents ⊢
  rw [hret (startEvents_callbacks milliseconds clock)]
  have hreads := startEvents_hidReads milliseconds clock
  rw [show startEvents milliseconds clock = _ from hevents, hidReads_append] at hreads
  exact ⟨(List.append_eq_nil_iff.1 hreads).2, rfl, startEvents_callbacks milliseconds clock⟩

/-- **Clock failure is reported**, in every call, exactly if no reading at the
end of a turn fails, and the first reading only where the check before the
loop sees it. -/
theorem clock_failure_reported_iff (cbs : Callbacks) (milliseconds : Int32) (clock : Clock) (env : Env) :
    let c := touchmouseProcessEventsTimeout cbs milliseconds clock env
    Reported c ↔ StartChecked milliseconds clock ∧ 0 ∉ turnReadings milliseconds c := by
  intro c
  have hown := (call_own cbs milliseconds clock env).1
  rcases call_cases milliseconds clock env with ⟨hbroken, hc⟩ | ⟨hclock, hdeadline, hc⟩
  · have hnone : (touchmouseProcessEventsTimeout passive milliseconds clock env).events =
        startEvents milliseconds clock ++ [] := by rw [hc, List.append_nil]
    have hturns : turnReadings milliseconds c = [] := turnReadings_eq hnone
    rw [hturns]
    exact ⟨fun _ => ⟨startChecked_of_broken hbroken, List.not_mem_nil⟩, fun _ => reported_of_broken hc⟩
  · have hreads := eventLoop_hidReads (deadlineOf milliseconds clock) (clock (startIndex milliseconds))
      (fun i => clock (i + startIndex milliseconds + 1)) .zero env.dev env.reads
    have hlater := eventLoop_zero hdeadline (clock (startIndex milliseconds))
      (fun i => clock (i + startIndex milliseconds + 1)) .zero env.dev env.reads
    dsimp only at hc hreads hlater
    generalize eventLoop passive (deadlineOf milliseconds clock) (clock (startIndex milliseconds))
      (fun i => clock (i + startIndex milliseconds + 1)) .zero env.dev env.reads = l at hc hreads hlater
    have hturns : turnReadings milliseconds c = clockReadings l.events := turnReadings_eq (by rw [hc])
    have hevents : own c.events = startEvents milliseconds clock ++ l.events := hown.trans (by rw [hc])
    rw [hturns]
    constructor
    · intro hreported
      refine ⟨fun hms hzero => ?_, fun hzero => ?_⟩
      · -- the first reading failed, and still the loop was entered
        have hneg : ¬ milliseconds < 0 := Int32.not_lt.2 hms
        have hstart : startEvents milliseconds clock = .clock 0 :: [.clock (clock 1)] := by
          rw [startEvents, startIndex, if_neg hneg, ← hzero]
          rfl
        rw [hstart] at hevents
        have hsilent : hidReads l.events = [] := (hreported [] (.clock (clock 1) :: l.events) hevents).1
        rw [hsilent] at hreads
        cases hreads
      · obtain ⟨before, after, hsplit, hne⟩ := hlater hzero
        rw [hsplit, ← List.append_assoc] at hevents
        exact hne (hreported _ after hevents).1
    · rintro ⟨hstart, hturn⟩ before after hsplit
      have hmem : (0 : UInt64) ∈ clockReadings (own c.events) := mem_clockReadings.2 (by rw [hsplit]; simp)
      rw [hevents, clockReadings_append, List.mem_append] at hmem
      rcases hmem with hmem | hmem
      · exact absurd hmem (startEvents_nonzero hstart hclock hdeadline)
      · exact absurd hmem hturn

/-- A clock that fails once, at the end of the first turn of a call that waits
for ever: the call reads on. -/
theorem not_clock_failure_reported :
    ¬ Reported (touchmouseProcessEventsTimeout passive (-1) (fun i => if i = 1 then 0 else 1)
      ⟨(touchmouseOpen 1).get (by decide), [.empty]⟩) := by
  intro h
  have hevents : own (touchmouseProcessEventsTimeout passive (-1) (fun i => if i = 1 then 0 else 1)
      ⟨(touchmouseOpen 1).get (by decide), [.empty]⟩).events =
        [.clock 1, .hidRead (remaining (-1) 1), .received .empty] ++ .clock 0 :: [.hidRead (remaining (-1) 0)] := by
    decide
  exact absurd (h _ _ hevents).1 (by decide)

end TouchMouse
