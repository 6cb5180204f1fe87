import TouchMouse.Call.ReceivedBytes
import TouchMouse.Call.Run
import TouchMouse.Decoder.Progress

/-!
# How far a report is decoded

Each byte that leaves the decoder in progress uses up two of the nybbles it
has left, so the decode loop is left within 91 bytes, whatever the report's
length byte claims.
-/

namespace TouchMouse

/-- A byte in progress is two nybbles in progress. -/
theorem decodeByte_progress (data : Buffer) (t : Nat) {d : Device} (hroom : d.bufIndex ≤ 180)
    (hcomplete : (decodeByte data t d).res ≠ .complete) (herror : (decodeByte data t d).res ≠ .error) :
    (decodeByte data t d).dev.bufIndex ≤ 180 ∧ nybblesLeft (decodeByte data t d).dev + 2 ≤ nybblesLeft d := by
  have hlow := processNybble_res d (data.data t &&& 0xf)
  have hhigh := processNybble_res (processNybble d (data.data t &&& 0xf)).dev ((data.data t &&& 0xf0) >>> 4)
  simp only [decodeByte, decodeNybble] at hcomplete herror ⊢
  rcases hlow with hlow | hlow | hlow <;> simp only [hlow] at hcomplete herror ⊢
  · obtain ⟨hroom', hlt⟩ := progress_lt hroom hlow
    obtain ⟨hroom'', hlt'⟩ := progress_lt hroom' ((hhigh.resolve_right (not_or.2 ⟨hcomplete, herror⟩)))
    exact ⟨hroom'', by omega⟩
  · exact absurd rfl hcomplete
  · exact absurd rfl herror

theorem decodeByte_index (data : Buffer) (t : Nat) (d : Device) {i : Nat}
    (h : Event.access (.data i) ∈ (decodeByte data t d).events) : i = t := by
  refine decodeByte_events (P := fun e => e = .access (.data i) → i = t) data t ?_ d _ h rfl
  intro dev n e he heq
  subst heq
  simp only [decodeNybble, List.mem_cons, Event.access.injEq, Access.data.injEq, reduceCtorEq, false_or,
    List.mem_map] at he
  rcases he with rfl | ⟨a, ha, rfl⟩
  · rfl
  · exact absurd ha (processNybble_accesses dev n i)

/-- The decode loop reads no further than the nybbles it has left. -/
theorem decodeLoop_index {data : Buffer} {t n : Nat} {d : Device} (hroom : d.bufIndex ≤ 180) {i : Nat}
    (h : Event.access (.data i) ∈ (decodeLoop data t n d).events) : 2 * i ≤ 2 * t + nybblesLeft d := by
  induction n generalizing t d with
  | zero => cases h
  | succ n ih =>
    have hbyte := decodeByte_progress data t hroom
    simp only [decodeLoop] at h
    split at h
    · have := decodeByte_index data t d h
      omega
    · have := decodeByte_index data t d h
      omega
    · next hcomplete herror =>
      obtain ⟨hroom', hle⟩ := hbyte hcomplete herror
      rcases List.mem_append.1 h with h | h
      · have := decodeByte_index data t d h
        omega
      · have := ih hroom' h
        omega

/-- Every reachable device has room. -/
theorem Reachable.room {d : Device} (h : Reachable d) : d.bufIndex ≤ 180 := by
  obtain ⟨block, htracks⟩ := h.tracks
  exact htracks.room

/-- **Progress.** From a state with room, pending run or not, a frame is
complete or in error within `182 - bufIndex` nybbles; without a pending run
some string takes that many; and the decode loop of a report reads no data
byte past index 90, whatever is in the buffer. -/
theorem decoder_progress {d : Device} (hroom : d.bufIndex ≤ 180) :
    (∀ w : List Nybble, 182 - d.bufIndex ≤ w.length →
      ∃ code ∈ (returnCodes d w).take (182 - d.bufIndex), code = .complete ∨ code = .error) ∧
    (d.nextIsRunEncoded = 0 → ∃ w : List Nybble, w.length = 182 - d.bufIndex ∧
      (returnCodes d w).take (181 - d.bufIndex) = List.replicate (181 - d.bufIndex) .inProgress) ∧
    ∀ (data : Buffer) (i : Nat),
      .access (.data i) ∈ (decodeLoop data 0 data.dataLength (matchTimestamp d data.timestamp)).events → i ≤ 90 := by
  refine ⟨?_, ?_, ?_⟩
  · intro w hw
    by_contra hnone
    have hall : ∀ code ∈ returnCodes d (w.take (182 - d.bufIndex)), code = .inProgress := by
      intro code hcode
      rcases returnCodes_mem hcode with hprogress | hend
      · exact hprogress
      · exact absurd ⟨code, by rw [returnCodes_take]; exact hcode, hend⟩ hnone
    have hle := length_le_nybblesLeft hroom hall
    rw [List.length_take, Nat.min_eq_left hw, nybblesLeft] at hle
    omega
  · intro idle
    refine ⟨List.replicate (180 - d.bufIndex) 0 ++ [15] ++ [0], ?_, ?_⟩
    · simp only [List.length_append, List.length_replicate, List.length_singleton]
      omega
    · have hcodes := returnCodes_literals idle (k := 180 - d.bufIndex) (by omega)
      rw [show 180 - d.bufIndex + 1 = 181 - d.bufIndex from by omega] at hcodes
      rw [returnCodes_take, List.take_left', hcodes]
      simp only [List.length_append, List.length_replicate, List.length_singleton]
      omega
  · intro data i hi
    have hle := decodeLoop_index (matchTimestamp_room hroom data.timestamp) hi
    have : nybblesLeft (matchTimestamp d data.timestamp) ≤ 181 := by
      rw [nybblesLeft]
      omega
    omega

/-- An opened device: its decoder is done within 182 nybbles. -/
theorem decoder_progress_opened :
    ((touchmouseOpen 1).get (by decide)).bufIndex = 0 ∧
      ∀ w : List Nybble, 182 ≤ w.length →
        ∃ code ∈ (returnCodes ((touchmouseOpen 1).get (by decide)) w).take 182, code = .complete ∨ code = .error :=
  ⟨by decide, (decoder_progress (d := (touchmouseOpen 1).get (by decide)) (by decide)).1⟩

end TouchMouse
