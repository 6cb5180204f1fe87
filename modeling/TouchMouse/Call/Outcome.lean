import TouchMouse.Call.Trace

/-!
# The outcome of a call

Each exit of the loop pairs a return code with what was invoked and with the
state it leaves. `Outcome` is the contract of one call; `eventLoop_outcome`
proves it turn by turn, over any number of turns.
-/

namespace TouchMouse
open Transducer

def Event.decodeError? : Event → Option UInt8
  | .decodeError timestamp => some timestamp
  | _ => none

/-- The timestamps of the decode errors. -/
def decodeErrors (es : List Event) : List UInt8 := es.filterMap Event.decodeError?

@[simp] theorem decodeErrors_append (es fs : List Event) : decodeErrors (es ++ fs) = decodeErrors es ++ decodeErrors fs :=
  List.filterMap_append

theorem decodeErrors_quiet {es : List Event} (h : ∀ e ∈ es, e.quiet) : decodeErrors es = [] :=
  filterMap_quiet (fun e he => by cases e <;> first | rfl | cases he) h

theorem decodeErrors_turn {ms : Int32} {r : ReadResult} {es : List Event} (h : ∀ e ∈ es, e.quiet) (fs : List Event) :
    decodeErrors ([.hidRead ms, .received r] ++ es ++ fs) = decodeErrors fs := by
  rw [decodeErrors_append, decodeErrors_append, decodeErrors_quiet h]
  rfl

/-- A decoder as `reset_decoder` leaves it. -/
structure IsReset (d : Device) : Prop where
  bufIndex : d.bufIndex = 0
  nextIsRunEncoded : d.nextIsRunEncoded = 0
  partialImage : d.partialImage = .replicate 181 0
  image : d.image = .replicate 195 0

theorem isReset_of_eq {d : Device} (h : resetDecoder d = d) : IsReset d where
  bufIndex := (congrArg Device.bufIndex h).symm
  nextIsRunEncoded := (congrArg Device.nextIsRunEncoded h).symm
  partialImage := (congrArg Device.partialImage h).symm
  image := (congrArg Device.image h).symm

/-- The contract of one call on the device `dev`. The callback and a decode
error are the last thing a call does, so nothing is read after them. -/
structure Outcome (dev : Device) (c : CallResult) : Prop where
  once : (callbacks c.events).length ≤ 1
  delivered : ∀ cb info, (cb, info) ∈ callbacks c.events →
    c.ret = some 0 ∧ c.events.getLast? = some (.callback cb info) ∧ IsReset c.env.dev ∧
      c.env.dev.timestampLastCompleted = info.timestamp
  decodeFailed : ∀ timestamp ∈ decodeErrors c.events,
    c.ret = some (-1) ∧ callbacks c.events = [] ∧ c.events.getLast? = some (.decodeError timestamp) ∧
      IsReset c.env.dev
  readFailed : c.ret = some (-2) ↔ ∃ r ∈ received c.events, r.res < 0
  lastRead : ∀ before r later, received c.events = before ++ r :: later → r.res < 0 → later = []
  silent : callbacks c.events = [] → c.env.dev.timestampLastCompleted = dev.timestampLastCompleted
  host : (c.env.dev.dev, c.env.dev.userdata, c.env.dev.cb) = (dev.dev, dev.userdata, dev.cb)

/-- A turn that goes on adds a successful read and no more. -/
theorem Outcome.goesOn {dev after : Device} {rest : CallResult} (h : Outcome after rest) (hhost : after.host = dev.host)
    {r : ReadResult} (hread : 0 ≤ r.res) {es : List Event} (hquiet : ∀ e ∈ es, e.quiet) (ms : Int32) (nanos : UInt64) :
    Outcome dev ⟨rest.ret, rest.env, [.hidRead ms, .received r] ++ es ++ .clock nanos :: rest.events⟩ := by
  have hcallbacks : callbacks ([.hidRead ms, .received r] ++ es ++ .clock nanos :: rest.events) =
      callbacks rest.events := callbacks_turn hquiet _
  have herrors : decodeErrors ([.hidRead ms, .received r] ++ es ++ .clock nanos :: rest.events) =
      decodeErrors rest.events := decodeErrors_turn hquiet _
  have hreceived : received ([.hidRead ms, .received r] ++ es ++ .clock nanos :: rest.events) =
      r :: received rest.events := received_turn hquiet _
  have hlast : ∀ e, rest.events.getLast? = some e →
      ([Event.hidRead ms, .received r] ++ es ++ .clock nanos :: rest.events).getLast? = some e := by
    intro e he
    rw [List.getLast?_append, List.getLast?_cons, he]
    rfl
  simp only [Device.host, Prod.mk.injEq] at hhost
  obtain ⟨hdev, huserdata, hcb, htlc⟩ := hhost
  refine ⟨?_, ?_, ?_, ?_, ?_, ?_, ?_⟩
  · simpa only [hcallbacks] using h.once
  · intro cb info hmem
    rw [hcallbacks] at hmem
    obtain ⟨hret, hlast', hreset⟩ := h.delivered cb info hmem
    exact ⟨hret, hlast _ hlast', hreset⟩
  · intro timestamp hmem
    rw [herrors] at hmem
    obtain ⟨hret, hnone, hlast', hreset⟩ := h.decodeFailed timestamp hmem
    exact ⟨hret, hcallbacks.trans hnone, hlast _ hlast', hreset⟩
  · rw [hreceived, h.readFailed]
    simp only [List.mem_cons, exists_eq_or_imp]
    exact ⟨.inr, fun h => h.resolve_left (by omega)⟩
  · intro before r' later heq hneg
    rw [hreceived] at heq
    cases before with
    | nil =>
      obtain ⟨rfl, -⟩ := List.cons.inj heq
      omega
    | cons b before => exact h.lastRead before r' later (List.cons.inj heq).2 hneg
  · intro hnone
    rw [hcallbacks] at hnone
    exact (h.silent hnone).trans htlc
  · rw [h.host, hdev, huserdata, hcb]

/-- A list of one read has no later ones. -/
theorem later_nil {r : ReadResult} : ∀ before r' later, [r] = before ++ r' :: later → r'.res < 0 → later = [] := by
  intro before r' later heq _
  cases before with
  | nil => exact (List.cons.inj heq).2.symm
  | cons b before => simp at heq

theorem eventLoop_outcome (deadline nanos : UInt64) (clock : Clock) (data : Buffer) (dev : Device)
    (reads : List ReadResult) : Outcome dev (eventLoop passive deadline nanos clock data dev reads) := by
  induction reads generalizing nanos clock data dev with
  | nil =>
    refine ⟨Nat.zero_le 1, by simp [eventLoop_nil, callbacks, Event.callback?],
      by simp [eventLoop_nil, decodeErrors, Event.decodeError?],
      by simp [eventLoop_nil, received, Event.received?], ?_, fun _ => rfl, rfl⟩
    intro before r later heq
    change [] = _ at heq
    simp at heq
  | cons r reads ih =>
    have hturn := eventLoop_turn deadline nanos clock data dev r reads
    have hquiet := decodingEvents_quiet dev data r
    generalize eventLoop passive deadline nanos clock data dev (r :: reads) = c at hturn
    generalize decodingEvents dev data r = es at hturn hquiet
    cases hturn with
    | readFailed failed =>
      exact ⟨Nat.zero_le 1, by simp [callbacks, Event.callback?], by simp [decodeErrors, Event.decodeError?],
        by simpa [received, Event.received?] using failed, later_nil, fun _ => rfl, rfl⟩
    | delivered hread _ reset last host =>
      have hread' : ¬ r.res < 0 := by omega
      refine ⟨?_, ?_, ?_, ?_, ?_, ?_, host⟩ <;>
        simp only [callbacks_turn hquiet, decodeErrors_turn hquiet, received_turn hquiet]
      · exact Nat.le_refl 1
      · intro cb info hmem
        simp only [callbacks, Event.callback?, List.filterMap_cons, List.filterMap_nil, List.mem_singleton,
          Prod.mk.injEq] at hmem
        obtain ⟨rfl, rfl⟩ := hmem
        exact ⟨trivial, List.getLast?_concat, isReset_of_eq reset, last⟩
      · simp [decodeErrors, Event.decodeError?]
      · simp [received, Event.received?, hread']
      · exact later_nil
      · intro hnone
        cases hnone
    | decodeFailed hread _ reset host =>
      have hread' : ¬ r.res < 0 := by omega
      simp only [Device.host, Prod.mk.injEq] at host
      refine ⟨?_, ?_, ?_, ?_, ?_, ?_, ?_⟩ <;>
        simp only [callbacks_turn hquiet, decodeErrors_turn hquiet, received_turn hquiet]
      · exact Nat.zero_le 1
      · simp [callbacks, Event.callback?]
      · intro timestamp hmem
        obtain rfl : timestamp = _ := List.mem_singleton.1 hmem
        exact ⟨trivial, rfl, List.getLast?_concat, isReset_of_eq reset⟩
      · simp [received, Event.received?, hread']
      · exact later_nil
      · exact fun _ => host.2.2.2
      · rw [host.1, host.2.1, host.2.2.1]
    | timedOut hread _ host =>
      have hread' : ¬ r.res < 0 := by omega
      simp only [Device.host, Prod.mk.injEq] at host
      refine ⟨?_, ?_, ?_, ?_, ?_, ?_, ?_⟩ <;>
        simp only [callbacks_turn hquiet, decodeErrors_turn hquiet, received_turn hquiet]
      · exact Nat.zero_le 1
      · simp [callbacks, Event.callback?]
      · simp [decodeErrors, Event.decodeError?]
      · simp [received, Event.received?, hread']
      · exact later_nil
      · exact fun _ => host.2.2.2
      · rw [host.1, host.2.1, host.2.2.1]
    | goesOn hread step host _ loop =>
      subst loop
      exact (ih (clock 0) (fun i => clock (i + 1)) (data.receive r.bytes) _).goesOn host hread hquiet _ _

theorem startEvents_callbacks (milliseconds : Int32) (clock : Clock) :
    callbacks (startEvents milliseconds clock) = [] := by
  simp [startEvents, callbacks, Event.callback?, List.filterMap_map, Function.comp_def]

theorem startEvents_decodeErrors (milliseconds : Int32) (clock : Clock) :
    decodeErrors (startEvents milliseconds clock) = [] := by
  simp [startEvents, decodeErrors, Event.decodeError?, List.filterMap_map, Function.comp_def]

/-- The readings before the loop do not matter. -/
theorem call_outcome (milliseconds : Int32) (clock : Clock) (env : Env) :
    Outcome env.dev (touchmouseProcessEventsTimeout passive milliseconds clock env) := by
  have hcallbacks := startEvents_callbacks milliseconds clock
  have herrors := startEvents_decodeErrors milliseconds clock
  have hreceived := startEvents_received milliseconds clock
  rcases call_cases milliseconds clock env with ⟨-, hc⟩ | ⟨-, -, hc⟩ <;> rw [hc]
  · exact ⟨by simp [hcallbacks], by simp [hcallbacks], by simp [herrors], by simp [hreceived], by simp [hreceived],
      fun _ => rfl, rfl⟩
  · have h := eventLoop_outcome (deadlineOf milliseconds clock) (clock (startIndex milliseconds))
      (fun i => clock (i + startIndex milliseconds + 1)) .zero env.dev env.reads
    dsimp only
    generalize eventLoop passive (deadlineOf milliseconds clock) (clock (startIndex milliseconds))
      (fun i => clock (i + startIndex milliseconds + 1)) .zero env.dev env.reads = c at h
    have hlast : ∀ e, c.events.getLast? = some e → (startEvents milliseconds clock ++ c.events).getLast? = some e := by
      intro e he
      rw [List.getLast?_append, he]
      rfl
    refine ⟨?_, ?_, ?_, ?_, ?_, ?_, h.host⟩ <;>
      simp only [callbacks_append, decodeErrors_append, received_append, hcallbacks, herrors, hreceived, List.nil_append]
    · exact h.once
    · intro cb info hmem
      obtain ⟨hret, hlast', hreset⟩ := h.delivered cb info hmem
      exact ⟨hret, hlast _ hlast', hreset⟩
    · intro timestamp hmem
      obtain ⟨hret, hnone, hlast', hreset⟩ := h.decodeFailed timestamp hmem
      exact ⟨hret, hnone, hlast _ hlast', hreset⟩
    · exact h.readFailed
    · exact h.lastRead
    · exact h.silent

/-- **The outcome of one call**, for every timeout, clock, device and reads in
range: the contract; the callback and the decode error are those of the
reports that were read; and the device is the fold of them, in particular when
the call returns without either. -/
theorem process_events_outcome (milliseconds : Int32) (clock : Clock) (env : Env)
    (hrange : ∀ r ∈ env.reads, r.InRange) :
    let c := touchmouseProcessEventsTimeout passive milliseconds clock env
    Outcome env.dev c ∧ signals c.events = outputs reportStep env.dev (touchReports (received c.events)) ∧
      c.env.dev = after reportStep env.dev (touchReports (received c.events)) := by
  obtain ⟨hdev, hsignals, hreads⟩ := call_fold milliseconds clock env
  obtain ⟨hfold, hshown⟩ := readStep_fold env.dev .zero fun r hr =>
    hrange r (by rw [← hreads]; exact List.mem_append_left _ hr)
  exact ⟨call_outcome milliseconds clock env, hsignals.trans hshown, hdev.trans hfold⟩

/-- A call that reads half a frame and times out. -/
theorem process_events_outcome_half_frame :
    let env : Env := ⟨(touchmouseOpen 1).get (by decide), [.ofPacket ⟨1, [0xff]⟩ (by decide)]⟩
    let c := touchmouseProcessEventsTimeout passive 0 (fun _ => 1) env
    c.env.dev = after reportStep env.dev (touchReports (received c.events)) := by
  intro env c
  exact (process_events_outcome 0 (fun _ => 1) env (by simp [env])).2.2

end TouchMouse
