import TouchMouse.Decoder.Stream
import TouchMouse.Stream.Transducer

/-!
# The strings the decoder accepts and rejects

`process_nybble` fed a whole string from the reset state, without a caller
that stops it: the last nybble completes a frame, or is an error, exactly on
the strings that the grammar of the compression scheme says.
-/

namespace TouchMouse
open Transducer

/-- A call of `process_nybble`, with its return code as output. -/
def nybbleStep (dev : Device) (x : Nybble) : Device × List DecoderState :=
  ((processNybble dev (byteOf x)).dev, [(processNybble dev (byteOf x)).res])

/-- The return codes over a string fed one nybble at a time. -/
def returnCodes (dev : Device) (w : List Nybble) : List DecoderState := outputs nybbleStep dev w

/-- The state after a string fed one nybble at a time. -/
def fed (dev : Device) (w : List Nybble) : Device := after nybbleStep dev w

theorem returnCodes_snoc (d : Device) (u : List Nybble) (x : Nybble) :
    returnCodes d (u ++ [x]) = returnCodes d u ++ [(processNybble (fed d u) (byteOf x)).res] := by
  rw [returnCodes, outputs_append]
  rfl

theorem fed_snoc (d : Device) (u : List Nybble) (x : Nybble) :
    fed d (u ++ [x]) = (processNybble (fed d u) (byteOf x)).dev := by
  rw [fed, after_append]
  rfl

/-- The decoder is in progress all along a string exactly if the string
leaves room, and is then in the string's state. -/
theorem returnCodes_inProgress_iff (d : Device) (w : List Nybble) :
    (returnCodes (d.after []) w = List.replicate w.length .inProgress ↔ (scheme.values w).length < 181) ∧
      ((scheme.values w).length < 181 → fed (d.after []) w = d.after w) := by
  induction w using List.reverseRecOn with
  | nil => exact ⟨by simp [returnCodes], fun _ => rfl⟩
  | append_singleton u x ih =>
    obtain ⟨hcodes, hfed⟩ := ih
    have hle := scheme.values_length_le u [x]
    rw [returnCodes_snoc, fed_snoc, List.length_append, List.length_singleton, List.replicate_succ']
    by_cases hu : (scheme.values u).length < 181
    · rw [hcodes.2 hu, hfed hu, List.append_right_inj]
      cases (processNybble_after d hu x).1 with
      | goesOn hl res dev => exact ⟨by simp [res, hl], fun _ => dev⟩
      | completes hl res => exact ⟨by simp [res, hl], fun h => by omega⟩
      | rejects hl res => exact ⟨by simp [res]; omega, fun h => by omega⟩
    · refine ⟨⟨fun h => ?_, fun h => by omega⟩, fun h => by omega⟩
      exact absurd (hcodes.1 (List.append_inj' h rfl).1) hu

/-- The return codes of a string that ends with a given code other than in
progress. -/
theorem returnCodes_ends_iff (d : Device) (u : List Nybble) (x : Nybble) (code : DecoderState) :
    returnCodes (d.after []) (u ++ [x]) = List.replicate u.length .inProgress ++ [code] ↔
      (scheme.values u).length < 181 ∧ (processNybble (d.after u) (byteOf x)).res = code := by
  obtain ⟨hcodes, hfed⟩ := returnCodes_inProgress_iff d u
  rw [returnCodes_snoc]
  constructor
  · intro h
    obtain ⟨hinit, hlast⟩ := List.append_inj' h rfl
    have hu := hcodes.1 hinit
    rw [hfed hu] at hlast
    exact ⟨hu, by simpa using hlast⟩
  · rintro ⟨hu, hres⟩
    rw [hcodes.2 hu, hfed hu, hres]

theorem returnCodes_complete_iff (d : Device) (u : List Nybble) (x : Nybble) :
    returnCodes (d.after []) (u ++ [x]) = List.replicate u.length .inProgress ++ [.complete] ↔
      (scheme.values u).length < 181 ∧ (scheme.values (u ++ [x])).length = 181 := by
  rw [returnCodes_ends_iff]
  refine and_congr_right fun hu => ?_
  cases (processNybble_after d hu x).1 with
  | goesOn hl res => simp [res]; omega
  | completes hl res => simp [res, hl]
  | rejects hl res => simp [res]; omega

theorem returnCodes_error_iff (d : Device) (u : List Nybble) (x : Nybble) :
    returnCodes (d.after []) (u ++ [x]) = List.replicate u.length .inProgress ++ [.error] ↔
      (scheme.values u).length < 181 ∧ 181 < (scheme.values (u ++ [x])).length := by
  rw [returnCodes_ends_iff]
  refine and_congr_right fun hu => ?_
  cases (processNybble_after d hu x).1 with
  | goesOn hl res => simp [res]; omega
  | completes hl res => simp [res, hl]
  | rejects hl res => simp [res, hl]

/-- The state a complete string leaves. -/
theorem fed_complete (d : Device) {ts : List (EscapeCode.Token Nybble Pixel)}
    (hts : (scheme.expand ts).length = 181) :
    (fed (d.after []) (scheme.encode ts)).partialImage = padded (scheme.expand ts) := by
  rcases List.eq_nil_or_concat (scheme.encode ts) with he | ⟨u, x, he⟩
  · have := scheme.values_encode ts
    rw [he, scheme.values_nil] at this
    rw [← this] at hts
    cases hts
  · rw [List.concat_eq_append] at he
    obtain ⟨hu, hl⟩ := scheme.snoc_full_iff.2 ⟨ts, he.symm, hts⟩
    rw [he, fed_snoc, (returnCodes_inProgress_iff d u).2 hu, ← scheme.values_encode ts, he]
    cases (processNybble_after d hu x).1 with
    | goesOn hl' => omega
    | completes _ _ dev => rw [dev]; rfl
    | rejects hl' => omega

theorem padded_toList {px : List Pixel} (h : px.length = 181) : (padded px).toList = px.map byteOf := by
  apply List.ext_getElem
  · simp [h]
  · intro i hi hi'
    simp only [List.length_map] at hi'
    simp [pixelByte, hi']

/-- **The decoder accepts exactly the compressed frames.** From the reset
state, a string is in progress up to its last nybble, which completes a frame,
exactly if it is made of whole tokens that expand to 181 pixels; it is in
progress up to its last nybble, which is an error, exactly if it is made of
tokens that leave room and a run that does not fit into it. Every pixel array
has a string that completes it. -/
theorem process_nybble_accepts_grammar (d : Device) :
    (∀ w, w ≠ [] →
      (returnCodes (resetDecoder d) w = List.replicate (w.length - 1) .inProgress ++ [.complete] ↔
        ∃ ts, w = scheme.encode ts ∧ (scheme.expand ts).length = 181)) ∧
    (∀ ts, (scheme.expand ts).length = 181 →
      (fed (resetDecoder d) (scheme.encode ts)).partialImage.toList = (scheme.expand ts).map byteOf) ∧
    (∀ w, w ≠ [] →
      (returnCodes (resetDecoder d) w = List.replicate (w.length - 1) .inProgress ++ [.error] ↔
        ∃ ts, ∃ x : Nybble, w = scheme.encode ts ++ [15, x] ∧ (scheme.expand ts).length ≤ 180 ∧
          181 < (scheme.expand ts).length + x + 3)) ∧
    ∀ frame : Vector Pixel 181, ∃ w, w ≠ [] ∧
      returnCodes (resetDecoder d) w = List.replicate (w.length - 1) .inProgress ++ [.complete] ∧
      (fed (resetDecoder d) w).partialImage.toList = frame.toList.map byteOf := by
  have hcomplete : ∀ w, w ≠ [] →
      (returnCodes (resetDecoder d) w = List.replicate (w.length - 1) .inProgress ++ [.complete] ↔
        ∃ ts, w = scheme.encode ts ∧ (scheme.expand ts).length = 181) := by
    intro w hw
    obtain ⟨u, x, rfl⟩ := (List.eq_nil_or_concat' w).resolve_left hw
    rw [resetDecoder_eq, List.length_append, List.length_singleton, Nat.add_sub_cancel, returnCodes_complete_iff,
      scheme.snoc_full_iff]
  have himage : ∀ ts, (scheme.expand ts).length = 181 →
      (fed (resetDecoder d) (scheme.encode ts)).partialImage.toList = (scheme.expand ts).map byteOf := by
    intro ts hts
    rw [resetDecoder_eq, fed_complete d hts, padded_toList hts]
  refine ⟨hcomplete, himage, ?_, ?_⟩
  · intro w hw
    obtain ⟨u, x, rfl⟩ := (List.eq_nil_or_concat' w).resolve_left hw
    rw [resetDecoder_eq, List.length_append, List.length_singleton, Nat.add_sub_cancel, returnCodes_error_iff,
      scheme.snoc_bad_iff]
    constructor
    · rintro ⟨ts, he, hlt, hover⟩
      exact ⟨ts, x, he, Nat.le_of_lt_succ hlt, hover⟩
    · rintro ⟨ts, y, he, hle, hover⟩
      obtain rfl : x = y := by
        have : u ++ [x] = (scheme.encode ts ++ [15]) ++ [y] := by simpa using he
        simpa using (List.append_inj' this rfl).2
      exact ⟨ts, he, Nat.lt_succ_of_le hle, hover⟩
  · intro frame
    have hexp : scheme.expand (frame.toList.map .literal) = frame.toList := scheme.expand_literals _
    have hlen : (scheme.expand (frame.toList.map .literal)).length = 181 := by rw [hexp, Vector.length_toList]
    have hne : scheme.encode (frame.toList.map .literal) ≠ [] := by
      intro h
      have := scheme.values_encode (frame.toList.map .literal)
      rw [h, scheme.values_nil] at this
      rw [← this] at hlen
      cases hlen
    exact ⟨_, hne, (hcomplete _ hne).2 ⟨_, rfl, hlen⟩, by rw [himage _ hlen, hexp]⟩

end TouchMouse
