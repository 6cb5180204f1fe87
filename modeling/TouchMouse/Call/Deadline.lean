import TouchMouse.Call.Trace

/-!
# The deadline of a call

When the loop stops reading is decided by comparing two readings of the clock,
with a deadline that mixes a 32-bit product with a 64-bit sum. The deadline is
exact as long as the product does not overflow, up to 2147 ms.
-/

namespace TouchMouse
open Transducer

/-! ## The exit of the loop -/

theorem startEvents_clockReadings {milliseconds : Int32} (h : ¬ milliseconds < 0) (clock : Clock) :
    clockReadings (startEvents milliseconds clock) = [clock 0, clock 1] := by
  simp [startEvents, startIndex, h, List.range_succ, clockReadings, Event.clock?]

/-- A loop that ends without a callback does the same with any callbacks. -/
theorem eventLoop_callbacks (cbs : Callbacks) (deadline nanos : UInt64) (clock : Clock) (data : Buffer) (dev : Device)
    (reads : List ReadResult) (h : callbacks (eventLoop cbs deadline nanos clock data dev reads).events = []) :
    eventLoop cbs deadline nanos clock data dev reads = eventLoop passive deadline nanos clock data dev reads := by
  induction reads generalizing nanos clock data dev with
  | nil => rfl
  | cons r reads ih =>
    simp only [eventLoop_cons, loopTurn] at h ⊢
    split at h
    · next hfail => simp only [if_pos hfail]
    · next hread =>
      simp only [if_neg hread]
      cases hres : (interpretTransfer dev (data.receive r.bytes) r.res).res with
      | complete =>
        simp only [hres, callbacks_append, completeFrame_events] at h
        cases (List.append_eq_nil_iff.1 h).2
      | error => rfl
      | inProgress | begin =>
        simp only [hres] at h ⊢
        split at h
        · next hearly =>
          have hrest := ih (clock 0) (fun i => clock (i + 1)) (data.receive r.bytes)
            (interpretTransfer dev (data.receive r.bytes) r.res).dev (by
              simp only [callbacks_append] at h
              exact (List.append_eq_nil_iff.1 h).2)
          simp only [if_pos hearly, hrest]
        · next hlate => simp only [if_neg hlate]

/-- So does a call. -/
theorem call_callbacks (cbs : Callbacks) (milliseconds : Int32) (clock : Clock) (env : Env)
    (h : callbacks (touchmouseProcessEventsTimeout cbs milliseconds clock env).events = []) :
    touchmouseProcessEventsTimeout cbs milliseconds clock env =
      touchmouseProcessEventsTimeout passive milliseconds clock env := by
  have henter : ∀ deadline nanos clock', callbacks (enterLoop cbs deadline nanos clock' env).events = [] →
      enterLoop cbs deadline nanos clock' env = enterLoop passive deadline nanos clock' env := by
    intro deadline nanos clock' hnone
    simp only [enterLoop_eq] at hnone ⊢
    split at hnone
    · next hbroken => rw [if_pos hbroken, if_pos hbroken]
    · next hclock => rw [if_neg hclock, if_neg hclock, eventLoop_callbacks cbs _ _ _ _ _ _ hnone]
  simp only [touchmouseProcessEventsTimeout_eq] at h ⊢
  split at h
  · next hms => simp only [if_pos hms, henter _ _ _ h]
  · next hms => simp only [if_neg hms, henter _ _ _ h]

/-- The readings at the end of the turns of a loop that times out: all but
the last are before the deadline, the last is not. -/
theorem eventLoop_readings (deadline nanos : UInt64) (clock : Clock) (data : Buffer) (dev : Device)
    (reads : List ReadResult) :
    let c := eventLoop passive deadline nanos clock data dev reads
    c.ret = some 0 → callbacks c.events = [] →
      ∃ earlier last, clockReadings c.events = earlier ++ [last] ∧ deadline ≤ last ∧ ∀ x ∈ earlier, x < deadline := by
  induction reads generalizing nanos clock data dev with
  | nil => intro c hret; cases hret
  | cons r reads ih =>
    have hturn := eventLoop_turn deadline nanos clock data dev r reads
    have hquiet := decodingEvents_quiet dev data r
    dsimp only
    generalize eventLoop passive deadline nanos clock data dev (r :: reads) = c at hturn
    generalize decodingEvents dev data r = es at hturn hquiet
    intro hret hnone
    cases hturn with
    | readFailed failed => simp at hret
    | decodeFailed => simp at hret
    | delivered =>
      rw [callbacks_turn hquiet] at hnone
      cases hnone
    | timedOut _ _ _ late =>
      rw [clockReadings_turn hquiet]
      exact ⟨[], clock 0, rfl, UInt64.not_lt.1 late, by simp⟩
    | @goesOn after rest _ _ _ early loop =>
      subst loop
      rw [callbacks_turn hquiet] at hnone
      obtain ⟨earlier, last, hreadings, hlast, hearlier⟩ :=
        ih (clock 0) (fun i => clock (i + 1)) (data.receive r.bytes) after hret hnone
      rw [clockReadings_turn hquiet]
      refine ⟨clock 0 :: earlier, last, congrArg (clock 0 :: ·) hreadings, hlast, ?_⟩
      intro x hx
      rcases List.mem_cons.1 hx with rfl | hx
      · exact early
      · exact hearlier x hx

/-! ## The product -/

/-- The product does not overflow up to 2147 ms, and does from there on. -/
theorem product_iff {milliseconds : Int32} (h : 0 < milliseconds) :
    (milliseconds * 1000000).toInt = milliseconds.toInt * 1000000 ↔ milliseconds ≤ 2147 := by
  have hpos : 0 < milliseconds.toInt := Int32.lt_iff_toInt_lt.1 h
  have hlit : (1000000 : Int32).toInt = 1000000 := rfl
  rw [Int32.le_iff_toInt_le, show (2147 : Int32).toInt = 2147 from rfl, Int32.toInt_mul, hlit]
  constructor
  · intro he
    have := Int.bmod_lt (x := milliseconds.toInt * 1000000) (m := 2 ^ 32) (by decide)
    rw [he] at this
    omega
  · intro hle
    rw [Int.bmod_eq_of_le] <;> omega

/-- Without overflow of the product the deadline is the time the timeout asks
for, modulo 2^64. -/
theorem finiteDeadline_mod {milliseconds : Int32} (hnonneg : 0 ≤ milliseconds.toInt)
    (hproduct : (milliseconds * 1000000).toInt = milliseconds.toInt * 1000000) (nanos : UInt64) :
    (finiteDeadline milliseconds nanos).toNat =
      (nanos.toNat + milliseconds.toInt.toNat * 1000000) % UInt64.size := by
  have hcast : (milliseconds * 1000000).toInt64.toUInt64.toNat = milliseconds.toInt.toNat * 1000000 := by
    rw [Int64.toNat_toUInt64_of_le]
    · rw [← Int64.toNat_toInt, Int32.toInt_toInt64, hproduct]
      omega
    · rw [Int64.le_iff_toInt_le, Int32.toInt_toInt64, hproduct]
      show (0 : Int) ≤ _
      omega
  rw [finiteDeadline, UInt64.toNat_add, hcast]

/-- Without overflow of the sum either it is that time. -/
theorem finiteDeadline_toNat {milliseconds : Int32} (hpos : 0 < milliseconds) (hle : milliseconds ≤ 2147)
    {nanos : UInt64} (hsum : nanos.toNat + milliseconds.toInt.toNat * 1000000 < UInt64.size) :
    (finiteDeadline milliseconds nanos).toNat = nanos.toNat + milliseconds.toInt.toNat * 1000000 := by
  have hms : 0 < milliseconds.toInt := Int32.lt_iff_toInt_lt.1 hpos
  rw [finiteDeadline_mod (Int.le_of_lt hms) ((product_iff hpos).2 hle), Nat.mod_eq_of_lt hsum]

/-- A call with this timeout and this first reading of the clock keeps its
deadline exactly: the product in it does not overflow, and when the call gives
up, its last reading is at or after the deadline and its earlier ones at the
ends of turns are before it. -/
structure ExactDeadline (milliseconds : Int32) (first : UInt64) : Prop where
  noOverflow : (milliseconds * 1000000).toInt = milliseconds.toInt * 1000000
  exact : ∀ cbs clock env, clock 0 = first → (∀ i, clock i ≤ clock (i + 1)) →
    let c := touchmouseProcessEventsTimeout cbs milliseconds clock env
    c.ret = some 0 → callbacks c.events = [] →
      ∃ earlier last, (clockReadings c.events).drop 2 = earlier ++ [last] ∧
        first.toNat + milliseconds.toInt.toNat * 1000000 ≤ last.toNat ∧
        ∀ x ∈ earlier, x.toNat < first.toNat + milliseconds.toInt.toNat * 1000000

/-- **Exact deadlines**, exactly up to 2147 ms. -/
theorem exact_deadline_iff {milliseconds : Int32} {first : UInt64} (hpos : 0 < milliseconds)
    (hsum : first.toNat + milliseconds.toInt.toNat * 1000000 < UInt64.size) :
    ExactDeadline milliseconds first ↔ milliseconds ≤ 2147 := by
  refine ⟨fun h => (product_iff hpos).1 h.noOverflow, fun hle => ⟨(product_iff hpos).2 hle, ?_⟩⟩
  intro cbs clock env hfirst _ c hret hnone
  have hdeadline := finiteDeadline_toNat hpos hle hsum
  have hms : ¬ milliseconds < 0 := Int32.not_lt.2 (Int32.le_of_lt hpos)
  have hc : c = touchmouseProcessEventsTimeout passive milliseconds clock env := call_callbacks _ _ _ _ hnone
  rw [hc] at hret hnone ⊢
  rcases call_cases milliseconds clock env with ⟨-, hbroken⟩ | ⟨-, -, hloop⟩
  · rw [hbroken] at hret
    simp at hret
  · rw [hloop] at hret hnone ⊢
    rw [callbacks_append, List.append_eq_nil_iff] at hnone
    obtain ⟨earlier, last, hreadings, hlast, hearlier⟩ := eventLoop_readings _ _ _ _ _ _ hret hnone.2
    simp only [deadlineOf, if_neg hms, hfirst] at hlast hearlier
    refine ⟨earlier, last, ?_, ?_, ?_⟩
    · rw [clockReadings_append, startEvents_clockReadings hms]
      exact hreadings
    · rw [← hdeadline]
      exact UInt64.le_iff_toNat_le.1 hlast
    · intro x hx
      rw [← hdeadline]
      exact UInt64.lt_iff_toNat_lt.1 (hearlier x hx)

theorem exact_deadline_one_second : ExactDeadline 1000 1 :=
  (exact_deadline_iff (by decide) (by decide)).2 (by decide)

/-- With 2148 ms the product is negative and the deadline far in the future:
the call reads on after a reading that is 2148 ms past the first. -/
theorem not_exact_deadline_2148 :
    ¬ ExactDeadline 2148 1 ∧
      let clock : Clock := fun i => if i < 2 then 1 else if i = 2 then 2148000001 else 18446744073709551615
      let c := touchmouseProcessEventsTimeout passive 2148 clock
        ⟨(touchmouseOpen 1).get (by decide), [.empty, .empty]⟩
      c.ret = some 0 ∧ callbacks c.events = [] ∧
        (clockReadings c.events).drop 2 = [2148000001, 18446744073709551615] := by
  refine ⟨fun h => ?_, by decide +kernel, by decide +kernel, by decide +kernel⟩
  have := h.noOverflow
  revert this
  decide

end TouchMouse
