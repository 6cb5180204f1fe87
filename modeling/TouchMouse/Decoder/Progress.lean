import TouchMouse.Decoder.Transition
import TouchMouse.Decoder.Grammar
import TouchMouse.Model.ProcessEvents

/-!
# Progress of the decoder

Pixels left is not a measure of progress: an escape leaves them as they are.
With one less while an escape is pending it is one (`progress_lt`): a run has
at least three pixels. So at most 182 nybbles are decoded before a frame is
complete or in error, and of a report at most its first 91 bytes.
-/

namespace TouchMouse
open Transducer

/-- How many more nybbles can leave the decoder in progress. -/
def nybblesLeft (d : Device) : Nat := 181 - d.bufIndex - if d.nextIsRunEncoded = 0 then 0 else 1

/-- A transition that leaves the decoder in progress uses up one at least. -/
theorem nybblesLeft_lt {d state : Device} {nybble : UInt8} {accesses : List Access} (hroom : d.bufIndex ≤ 180)
    (h : Transition d nybble state accesses) (hfull : state.bufIndex ≠ 181) :
    state.bufIndex ≤ 180 ∧ nybblesLeft state < nybblesLeft d := by
  cases h with
  | run pending fits =>
    have hindex := zeroRun_bufIndex (nybble.toNat + 3) d
    dsimp only at hfull
    simp only [nybblesLeft, if_neg pending, if_true]
    omega
  | escape idle =>
    simp only [nybblesLeft, if_pos idle, show (1 : Int) ≠ 0 from by decide, if_false]
    omega
  | literal idle =>
    have hindex : (writePixel d nybble).bufIndex = d.bufIndex + 1 := rfl
    have hflag : (writePixel d nybble).nextIsRunEncoded = 0 := idle
    simp only [nybblesLeft, if_pos idle, if_pos hflag]
    omega

theorem progress_lt {d : Device} {nybble : UInt8} (hroom : d.bufIndex ≤ 180)
    (h : (processNybble d nybble).res = .inProgress) :
    (processNybble d nybble).dev.bufIndex ≤ 180 ∧ nybblesLeft (processNybble d nybble).dev < nybblesLeft d := by
  obtain ⟨accesses, htransition, hfull⟩ := processNybble_inProgress h
  exact nybblesLeft_lt hroom htransition hfull

/-- A report finds room where there was room before. -/
theorem matchTimestamp_room {d : Device} (h : d.bufIndex ≤ 180) (timestamp : UInt8) :
    (matchTimestamp d timestamp).bufIndex ≤ 180 := by
  unfold matchTimestamp
  split
  · exact Nat.zero_le _
  · exact h

/-! ## Strings of nybbles -/

theorem returnCodes_cons (d : Device) (x : Nybble) (w : List Nybble) :
    returnCodes d (x :: w) =
      (processNybble d (byteOf x)).res :: returnCodes (processNybble d (byteOf x)).dev w := rfl

/-- A string that is in progress all along is no longer than the measure. -/
theorem length_le_nybblesLeft {d : Device} (hroom : d.bufIndex ≤ 180) {w : List Nybble}
    (h : ∀ code ∈ returnCodes d w, code = .inProgress) : w.length ≤ nybblesLeft d := by
  induction w generalizing d with
  | nil => exact Nat.zero_le _
  | cons x w ih =>
    rw [returnCodes_cons] at h
    obtain ⟨hfirst, hrest⟩ := List.forall_mem_cons.1 h
    obtain ⟨hroom', hlt⟩ := progress_lt hroom hfirst
    have := ih hroom' hrest
    rw [List.length_cons]
    omega

theorem returnCodes_take (d : Device) (w : List Nybble) (n : Nat) :
    (returnCodes d w).take n = returnCodes d (w.take n) := by
  induction n generalizing d w with
  | zero => rw [List.take_zero, List.take_zero]; rfl
  | succ n ih =>
    cases w with
    | nil => rfl
    | cons x w => rw [returnCodes_cons, List.take_succ_cons, List.take_succ_cons, returnCodes_cons, ih]

/-- A return code other than in progress. -/
theorem returnCodes_mem {d : Device} {w : List Nybble} {code : DecoderState} (h : code ∈ returnCodes d w) :
    code = .inProgress ∨ code = .complete ∨ code = .error := by
  induction w generalizing d with
  | nil => cases h
  | cons x w ih =>
    rcases List.mem_cons.1 h with rfl | h
    · exact processNybble_res d (byteOf x)
    · exact ih h

/-- Literal pixels go on as long as there is room for one more. -/
theorem returnCodes_literals {d : Device} (idle : d.nextIsRunEncoded = 0) {k : Nat} (h : d.bufIndex + k ≤ 180) :
    returnCodes d (List.replicate k 0 ++ [15]) = List.replicate (k + 1) .inProgress := by
  induction k generalizing d with
  | zero =>
    have he : processNybble d 0xf = ⟨{ d with nextIsRunEncoded := 1 }, .inProgress, []⟩ := by
      rw [processNybble, if_neg (by decide), if_neg (not_not.2 idle), if_pos rfl]
      exact finishNybble_room (by dsimp only; omega) _
    show [(processNybble d 0xf).res] = _
    rw [he]
    rfl
  | succ k ih =>
    have he : processNybble d 0 = ⟨writePixel d 0, .inProgress, [.partialImage d.bufIndex]⟩ := by
      rw [processNybble, if_neg (by decide), if_neg (not_not.2 idle), if_neg (by decide)]
      exact finishNybble_room (by show d.bufIndex + 1 ≠ 181; omega) _
    rw [List.replicate_succ, List.cons_append, returnCodes_cons]
    show (processNybble d 0).res :: returnCodes (processNybble d 0).dev _ = _
    rw [he, ih (by exact idle) (by show d.bufIndex + 1 + k ≤ 180; omega)]
    rfl

end TouchMouse
