import TouchMouse.Model.ProcessNybble

/-!
# One nybble, from any state

Everything that a call of `process_nybble` can do, whatever state it finds:
it is an error that changes nothing, or one of three transitions, after which
a frame that is full is unpacked (`processNybble_cases`).
-/

namespace TouchMouse

theorem zeroRun_bufIndex (n : Nat) (d : Device) : (zeroRun n d).1.bufIndex = d.bufIndex + n := by
  induction n generalizing d with
  | zero => rfl
  | succ n ih =>
    show (zeroRun n (writePixel d 0)).1.bufIndex = _
    rw [ih]
    show d.bufIndex + 1 + n = _
    omega

/-- The state that a nybble takes the decoder to and the accesses on the way,
before a frame that is full is unpacked. -/
inductive Transition (d : Device) (nybble : UInt8) : Device → List Access → Prop where
  | run (pending : d.nextIsRunEncoded ≠ 0) (fits : d.bufIndex + nybble.toNat + 3 ≤ 181) :
      Transition d nybble { (zeroRun (nybble.toNat + 3) d).1 with nextIsRunEncoded := 0 } (zeroRun (nybble.toNat + 3) d).2
  | escape (idle : d.nextIsRunEncoded = 0) (esc : nybble = 0xf) : Transition d nybble { d with nextIsRunEncoded := 1 } []
  | literal (idle : d.nextIsRunEncoded = 0) (lit : nybble ≠ 0xf) :
      Transition d nybble (writePixel d nybble) [.partialImage d.bufIndex]

/-- **One nybble**, from any state. -/
theorem processNybble_cases (d : Device) (nybble : UInt8) :
    processNybble d nybble = ⟨d, .error, []⟩ ∨
      ∃ state accesses, Transition d nybble state accesses ∧ processNybble d nybble = finishNybble state accesses := by
  unfold processNybble
  split
  · exact .inl rfl
  · split
    · next pending =>
      split
      · exact .inl rfl
      · next fits => exact .inr ⟨_, _, .run pending (by omega), rfl⟩
    · next pending =>
      have idle : d.nextIsRunEncoded = 0 := Decidable.not_not.1 pending
      split
      · next esc => exact .inr ⟨_, _, .escape idle esc, rfl⟩
      · next lit => exact .inr ⟨_, _, .literal idle lit, rfl⟩

theorem zeroRun_writes {n : Nat} {d : Device} {a : Access} (h : a ∈ (zeroRun n d).2) :
    ∃ i, a = .partialImage i ∧ i < d.bufIndex + n := by
  induction n generalizing d with
  | zero => cases h
  | succ n ih =>
    rcases List.mem_cons.1 h with rfl | h
    · exact ⟨d.bufIndex, rfl, by omega⟩
    · obtain ⟨i, rfl, hi⟩ := ih h
      have hi : i < d.bufIndex + 1 + n := hi
      exact ⟨i, rfl, by omega⟩

/-- From a state with room a transition writes pixels of the array, and goes
no further than its end. -/
theorem Transition.writes {d state : Device} {nybble : UInt8} {accesses : List Access}
    (h : Transition d nybble state accesses) (hroom : d.bufIndex ≤ 180) :
    state.bufIndex ≤ 181 ∧ ∀ a ∈ accesses, ∃ i, a = .partialImage i ∧ i < 181 := by
  cases h with
  | run pending fits =>
    refine ⟨?_, fun a ha => ?_⟩
    · show (zeroRun (nybble.toNat + 3) d).1.bufIndex ≤ 181
      rw [zeroRun_bufIndex]
      omega
    · obtain ⟨i, rfl, hi⟩ := zeroRun_writes ha
      exact ⟨i, rfl, by omega⟩
  | escape => exact ⟨Nat.le_succ_of_le hroom, fun a ha => nomatch ha⟩
  | literal =>
    refine ⟨Nat.succ_le_succ hroom, fun a ha => ?_⟩
    rw [List.mem_singleton.1 ha]
    exact ⟨d.bufIndex, rfl, Nat.lt_succ_of_le hroom⟩

theorem finishNybble_full {state : Device} (h : state.bufIndex = 181) (accesses : List Access) :
    finishNybble state accesses =
      ⟨{ state with image := (unpack state.partialImage).image }, .complete,
        accesses ++ (unpack state.partialImage).accesses⟩ := if_pos h

theorem finishNybble_room {state : Device} (h : state.bufIndex ≠ 181) (accesses : List Access) :
    finishNybble state accesses = ⟨state, .inProgress, accesses⟩ := if_neg h

theorem finishNybble_bufIndex (state : Device) (accesses : List Access) :
    (finishNybble state accesses).dev.bufIndex = state.bufIndex := by
  unfold finishNybble
  by_cases h : state.bufIndex = 181
  · simp only [if_pos h]
  · simp only [if_neg h]

theorem finishNybble_mem {state : Device} {accesses : List Access} {a : Access}
    (h : a ∈ (finishNybble state accesses).accesses) : a ∈ accesses ∨ a ∈ (unpack state.partialImage).accesses := by
  by_cases hfull : state.bufIndex = 181
  · simpa only [finishNybble_full hfull, List.mem_append] using h
  · simp only [finishNybble_room hfull] at h
    exact .inl h

/-- A nybble leaves the decoder in progress only by a transition. -/
theorem processNybble_inProgress {d : Device} {nybble : UInt8} (h : (processNybble d nybble).res = .inProgress) :
    ∃ accesses, Transition d nybble (processNybble d nybble).dev accesses ∧ (processNybble d nybble).dev.bufIndex ≠ 181 := by
  rcases processNybble_cases d nybble with he | ⟨state, accesses, htransition, he⟩
  · rw [he] at h
    cases h
  · rw [he] at h ⊢
    by_cases hfull : state.bufIndex = 181
    · rw [finishNybble_full hfull] at h
      cases h
    · rw [finishNybble_room hfull]
      exact ⟨accesses, htransition, hfull⟩

/-- The return codes: in progress, or the end of a frame or an error. -/
theorem processNybble_res (d : Device) (nybble : UInt8) :
    (processNybble d nybble).res = .inProgress ∨ (processNybble d nybble).res = .complete ∨
      (processNybble d nybble).res = .error := by
  rcases processNybble_cases d nybble with he | ⟨state, accesses, -, he⟩ <;> rw [he]
  · exact .inr (.inr rfl)
  · by_cases hfull : state.bufIndex = 181
    · rw [finishNybble_full hfull]
      exact .inr (.inl rfl)
    · rw [finishNybble_room hfull]
      exact .inl rfl

end TouchMouse
