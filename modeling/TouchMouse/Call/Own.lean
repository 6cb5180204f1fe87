import TouchMouse.Call.Trace

/-!
# What a call does itself

A callback may call the library again, and the events of a call then go on
with what it does. The events up to the callback are the call's own, and are
the same whatever the callback does (`call_own`). In the loop each timeout
passed to `hid_read_timeout` comes from a reading of the clock: the one the
loop was entered with, and those at the ends of turns that are before the
deadline (`eventLoop_hidReads`).
-/

namespace TouchMouse

/-- The events of a call without those of its callback, which is the last
thing it does. -/
def own : List Event → List Event
  | [] => []
  | .callback cb info :: _ => [.callback cb info]
  | e :: es => e :: own es

theorem own_append {es : List Event} (h : callbacks es = []) (fs : List Event) : own (es ++ fs) = es ++ own fs := by
  induction es with
  | nil => rfl
  | cons e es ih =>
    cases e with
    | callback cb info => cases h
    | _ => exact congrArg (_ :: ·) (ih h)

/-- The loop is the same up to its callback, and returns the same code if it
invokes none. -/
theorem eventLoop_own (cbs : Callbacks) (deadline nanos : UInt64) (clock : Clock) (data : Buffer) (dev : Device)
    (reads : List ReadResult) :
    own (eventLoop cbs deadline nanos clock data dev reads).events =
        (eventLoop passive deadline nanos clock data dev reads).events ∧
      (callbacks (eventLoop passive deadline nanos clock data dev reads).events = [] →
        (eventLoop cbs deadline nanos clock data dev reads).ret =
          (eventLoop passive deadline nanos clock data dev reads).ret) := by
  induction reads generalizing nanos clock data dev with
  | nil => exact ⟨rfl, fun _ => rfl⟩
  | cons r reads ih =>
    have hquiet := callbacks_quiet (decodingEvents_quiet dev data r)
    have hbefore : callbacks ([.hidRead (remaining deadline nanos), .received r] ++ decodingEvents dev data r) = [] := by
      rw [callbacks_append, hquiet]
      rfl
    rw [decodingEvents] at hbefore
    simp only [eventLoop_cons, loopTurn]
    split
    · exact ⟨rfl, fun _ => rfl⟩
    · cases (interpretTransfer dev (data.receive r.bytes) r.res).res with
      | complete =>
        simp only [completeFrame_events]
        refine ⟨own_append hbefore _, fun hnone => ?_⟩
        rw [callbacks_append] at hnone
        cases (List.append_eq_nil_iff.1 hnone).2
      | error => exact ⟨own_append hbefore _, fun _ => rfl⟩
      | inProgress | begin =>
        dsimp only
        split
        · obtain ⟨hevents, hret⟩ := ih (clock 0) (fun i => clock (i + 1)) (data.receive r.bytes)
            (interpretTransfer dev (data.receive r.bytes) r.res).dev
          refine ⟨(own_append hbefore _).trans (congrArg (fun es => _ ++ Event.clock (clock 0) :: es) hevents),
            fun hnone => hret ?_⟩
          rw [callbacks_append] at hnone
          exact (List.append_eq_nil_iff.1 hnone).2
        · exact ⟨own_append hbefore _, fun _ => rfl⟩

/-- **A call is the same up to its callback**, and returns the same code if it
invokes none. -/
theorem call_own (cbs : Callbacks) (milliseconds : Int32) (clock : Clock) (env : Env) :
    own (touchmouseProcessEventsTimeout cbs milliseconds clock env).events =
        (touchmouseProcessEventsTimeout passive milliseconds clock env).events ∧
      (callbacks (touchmouseProcessEventsTimeout passive milliseconds clock env).events = [] →
        (touchmouseProcessEventsTimeout cbs milliseconds clock env).ret =
          (touchmouseProcessEventsTimeout passive milliseconds clock env).ret) := by
  have henter : ∀ deadline nanos clock', own (enterLoop cbs deadline nanos clock' env).events =
        (enterLoop passive deadline nanos clock' env).events ∧
      (callbacks (enterLoop passive deadline nanos clock' env).events = [] →
        (enterLoop cbs deadline nanos clock' env).ret = (enterLoop passive deadline nanos clock' env).ret) := by
    intro deadline nanos clock'
    simp only [enterLoop_eq]
    split
    · exact ⟨rfl, fun _ => rfl⟩
    · exact eventLoop_own _ _ _ _ _ _ _
  simp only [touchmouseProcessEventsTimeout_eq]
  split
  · exact ⟨congrArg (_ :: ·) (henter _ _ _).1, (henter _ _ _).2⟩
  · exact ⟨congrArg (_ :: _ :: ·) (henter _ _ _).1, (henter _ _ _).2⟩

/-! ## The timeouts of the reads -/

theorem hidReads_turn {ms : Int32} {r : ReadResult} {es : List Event} (h : ∀ e ∈ es, e.quiet) (fs : List Event) :
    hidReads ([.hidRead ms, .received r] ++ es ++ fs) = ms :: hidReads fs := by
  rw [hidReads_append, hidReads_append, hidReads_quiet h]
  rfl

/-- The timeouts of a loop: one for the reading it is entered with, and one
for each later reading before the deadline. -/
theorem eventLoop_hidReads (deadline nanos : UInt64) (clock : Clock) (data : Buffer) (dev : Device)
    (reads : List ReadResult) :
    let c := eventLoop passive deadline nanos clock data dev reads
    hidReads c.events = (nanos :: (clockReadings c.events).filter (· < deadline)).map (remaining deadline) := by
  induction reads generalizing nanos clock data dev with
  | nil => rfl
  | cons r reads ih =>
    have hturn := eventLoop_turn deadline nanos clock data dev r reads
    have hquiet := decodingEvents_quiet dev data r
    dsimp only
    generalize eventLoop passive deadline nanos clock data dev (r :: reads) = c at hturn
    cases hturn with
    | readFailed => rfl
    | delivered | decodeFailed =>
      rw [hidReads_turn hquiet, clockReadings_turn hquiet]
      rfl
    | timedOut _ _ _ late =>
      rw [hidReads_turn hquiet, clockReadings_turn hquiet]
      simp [hidReads, clockReadings, Event.hidRead?, Event.clock?, late]
    | @goesOn after rest _ _ _ early loop =>
      subst loop
      have hrest := ih (clock 0) (fun i => clock (i + 1)) (data.receive r.bytes) after
      rw [hidReads_turn hquiet, clockReadings_turn hquiet, List.map_cons]
      refine congrArg (remaining deadline nanos :: ·) (hrest.trans ?_)
      simp [clockReadings, Event.clock?, early]

/-- The readings of a loop are those of its clock. -/
theorem eventLoop_clockReadings (deadline nanos : UInt64) (clock : Clock) (data : Buffer) (dev : Device)
    (reads : List ReadResult) :
    ∃ n, clockReadings (eventLoop passive deadline nanos clock data dev reads).events = (List.range n).map clock := by
  induction reads generalizing nanos clock data dev with
  | nil => exact ⟨0, rfl⟩
  | cons r reads ih =>
    have hturn := eventLoop_turn deadline nanos clock data dev r reads
    have hquiet := decodingEvents_quiet dev data r
    generalize eventLoop passive deadline nanos clock data dev (r :: reads) = c at hturn
    cases hturn with
    | readFailed => exact ⟨0, rfl⟩
    | delivered | decodeFailed => exact ⟨0, clockReadings_turn hquiet _⟩
    | timedOut => exact ⟨1, clockReadings_turn hquiet _⟩
    | goesOn _ _ _ _ loop =>
      subst loop
      obtain ⟨n, hn⟩ := ih (clock 0) (fun i => clock (i + 1)) (data.receive r.bytes) _
      refine ⟨n + 1, (clockReadings_turn hquiet _).trans ?_⟩
      rw [List.range_succ_eq_map, List.map_cons, List.map_map]
      exact congrArg (clock 0 :: ·) hn

theorem startEvents_hidReads (milliseconds : Int32) (clock : Clock) : hidReads (startEvents milliseconds clock) = [] := by
  simp [startEvents, hidReads, Event.hidRead?, List.filterMap_map, Function.comp_def]

end TouchMouse
