import TouchMouse.Codec.EscapeCode
import TouchMouse.Decoder.Unpack

/-!
# The decoder on a stream of nybbles

The compression scheme of the mouse as an escape code, and the decoder state
as a function of the nybbles since the last reset: `Device.after d w` is
computed from `w` alone, not by running the decoder. `processNybble_after`
says everything one call does from such a state: it goes on to the state of
the longer string, completes the frame, or rejects a run that is too long.
-/

namespace TouchMouse

abbrev Nybble := Fin 16
abbrev Pixel := Fin 15

/-- A nybble or a pixel as the byte that holds it. -/
def byteOf {n : Nat} (x : Fin n) : UInt8 := .ofNat x

theorem byteOf_toNat {n : Nat} (h : n ≤ 256) (x : Fin n) : (byteOf x).toNat = x := by
  have := x.isLt
  simp only [byteOf, UInt8.toNat_ofNat']
  omega

/-- The scheme of the comment above `reset_decoder`: pixels 0 to E stand for
themselves, and F, X for a run of X + 3 zeroes. -/
def scheme : EscapeCode Nybble Pixel where
  esc := 15
  literal :=
    { toFun := fun a => ⟨a.castSucc, by simp [Fin.ext_iff]; omega⟩
      invFun := fun s => s.1.castPred s.2
      left_inv := fun a => by simp
      right_inv := fun s => by simp }
  fill := 0
  runLength x := x + 3
  runLength_pos x := by omega

/-- The byte at index `i` of a pixel array that holds `px` so far. -/
def pixelByte (px : List Pixel) (i : Nat) : UInt8 := (px[i]?).elim 0 byteOf

/-- A pixel array that holds `px` so far. -/
def padded (px : List Pixel) : Vector UInt8 181 := .ofFn fun i => pixelByte px i

/-- The decoder in the state that the nybbles `w` lead to from a reset, the
rest of the device as in `d`. -/
def Device.after (d : Device) (w : List Nybble) : Device :=
  { d with
    bufIndex := (scheme.values w).length
    nextIsRunEncoded := if scheme.pending w then 1 else 0
    partialImage := padded (scheme.values w)
    image := .replicate 195 0 }

/-- The decoder with a finished frame, before the reset. -/
def Device.complete (d : Device) (px : List Pixel) : Device :=
  { d with
    bufIndex := 181
    nextIsRunEncoded := 0
    partialImage := padded px
    image := imageOf (padded px) }

@[simp] theorem getElem_padded (px : List Pixel) (i : Nat) (h : i < 181) : (padded px)[i] = pixelByte px i := by
  simp [padded]

theorem padded_nil : padded [] = .replicate 181 0 := by
  ext i h
  simp [pixelByte]

/-- Zeroes may be written past the end, or left out. -/
theorem padded_set_zero {px : List Pixel} {i : Nat} (h : px.length ≤ i) :
    (padded px).setIfInBounds i 0 = padded px := by
  ext j hj
  rw [Vector.getElem_setIfInBounds]
  split
  · next e => subst e; simp [pixelByte, h]
  · rfl

theorem padded_append_zeroes (px : List Pixel) (n : Nat) : padded (px ++ List.replicate n 0) = padded px := by
  ext i hi
  simp only [getElem_padded, pixelByte]
  by_cases h : i < px.length
  · rw [List.getElem?_append_left h]
  · rw [List.getElem?_append_right (by omega), List.getElem?_eq_none (l := px) (by omega)]
    by_cases hr : i - px.length < n
    · simp [hr, byteOf]
    · simp [hr]

theorem padded_snoc {px : List Pixel} (p : Pixel) :
    (padded px).setIfInBounds px.length (byteOf p) = padded (px ++ [p]) := by
  ext i hi
  rw [Vector.getElem_setIfInBounds]
  simp only [getElem_padded, pixelByte]
  split
  · next e => subst e; simp
  · next ne =>
    by_cases h : i < px.length
    · rw [List.getElem?_append_left h]
    · rw [List.getElem?_eq_none (by omega), List.getElem?_eq_none (by simp; omega)]


theorem resetDecoder_eq (d : Device) : resetDecoder d = d.after [] := by
  simp [resetDecoder, Device.after, padded_nil]

/-- The run loop writes zeroes where there are zeroes, and moves on. -/
theorem zeroRun_padded (d : Device) {px : List Pixel} (n : Nat) {i : Nat} (h : px.length ≤ i) :
    zeroRun n { d with bufIndex := i, partialImage := padded px } =
      ({ d with bufIndex := i + n, partialImage := padded px },
        (List.range' i n).map .partialImage) := by
  induction n generalizing i with
  | zero => rfl
  | succ n ih =>
    have hw : writePixel { d with bufIndex := i, partialImage := padded px } 0 =
        { d with bufIndex := i + 1, partialImage := padded px } := by
      simp only [writePixel, padded_set_zero h]
    simp only [zeroRun, hw, ih (by omega : px.length ≤ i + 1), List.range'_succ, List.map_cons]
    rw [Nat.add_right_comm i 1 n, Nat.add_assoc i n 1]

/-! ## One nybble -/

theorem exists_byteOf {v : UInt8} (hv : v < 16) : ∃ x : Nybble, v = byteOf x :=
  ⟨⟨v.toNat, UInt8.lt_iff_toNat_lt.1 hv⟩, UInt8.toNat.inj (byteOf_toNat (by decide) _).symm⟩

theorem byteOf_lt_sixteen (x : Nybble) : ¬ 16 ≤ byteOf x := by revert x; decide

theorem byteOf_eq_fifteen (x : Nybble) : byteOf x = 0xf ↔ x = 15 := by revert x; decide

theorem byteOf_literal (x : Nybble) (h : x ≠ scheme.esc) : byteOf (scheme.literal.symm ⟨x, h⟩) = byteOf x := rfl

/-- The end of `process_nybble` in the state of a string. -/
theorem finishNybble_after (d : Device) (w : List Nybble) (accesses : List Access) :
    finishNybble (d.after w) accesses =
      if (scheme.values w).length = 181 then
        ⟨{ d.after w with image := imageOf (padded (scheme.values w)) }, .complete,
          accesses ++ (unpack (padded (scheme.values w))).accesses⟩
      else ⟨d.after w, .inProgress, accesses⟩ := by
  simp only [finishNybble, Device.after, unpack_image]

/-- The escape nybble. -/
theorem after_snoc_esc (d : Device) {w : List Nybble} (h : scheme.pending w = false) :
    { d.after w with nextIsRunEncoded := 1 } = d.after (w ++ [15]) := by
  have hv : scheme.values (w ++ [15]) = scheme.values w := scheme.values_snoc_esc h
  have hp : scheme.pending (w ++ [15]) = true := by rw [scheme.pending_snoc, h]; rfl
  simp only [Device.after, hv, hp, if_true]

/-- A literal nybble. -/
theorem after_snoc_literal (d : Device) {w : List Nybble} (h : scheme.pending w = false) {x : Nybble}
    (hx : x ≠ scheme.esc) : writePixel (d.after w) (byteOf x) = d.after (w ++ [x]) := by
  have hp : scheme.pending (w ++ [x]) = false := by rw [scheme.pending_snoc]; simp [hx]
  simp only [writePixel, Device.after, scheme.values_snoc_literal h hx, hp, h, ← byteOf_literal x hx, padded_snoc]
  simp

/-- The length nybble of a run. -/
theorem after_snoc_run (d : Device) {w : List Nybble} (h : scheme.pending w = true) (x : Nybble) :
    zeroRun (x + 3) (d.after w) =
      ({ d.after (w ++ [x]) with nextIsRunEncoded := 1 },
        (List.range' (scheme.values w).length (x + 3)).map .partialImage) := by
  have hv : scheme.values (w ++ [x]) = scheme.values w ++ List.replicate (x + 3) 0 := scheme.values_snoc_run h x
  have hz := zeroRun_padded { d.after w with image := .replicate 195 0 } (x + 3) (Nat.le_refl (scheme.values w).length)
  simpa only [Device.after, hv, h, if_true, padded_append_zeroes, List.length_append, List.length_replicate] using hz

/-- An access of the decoder to an array stays in the array's extent. -/
def Access.InExtent : Access → Prop
  | .partialImage i => i < 181
  | .pixel i => i < 181
  | .decoderTable v => v < 15
  | .image i => i < 195
  | .transfer _ => True
  | .data _ => True

theorem pixelByte_le (px : List Pixel) (i : Nat) : (pixelByte px i).toNat ≤ 14 := by
  unfold pixelByte
  cases px[i]? with
  | none => decide
  | some p => rw [Option.elim_some, byteOf_toNat (by decide)]; omega

/-- Unpacking the pixels of a string stays in extent. -/
theorem unpack_inExtent (px : List Pixel) : ∀ a ∈ (unpack (padded px)).accesses, a.InExtent := by
  intro a ha
  rw [unpack_accesses] at ha
  obtain ⟨⟨cell, k⟩, hck, ha⟩ := List.mem_flatMap.1 ha
  obtain ⟨-, hk, hcell⟩ := List.mem_zipIdx hck
  rw [maskCells_length] at hk
  have hmem : cell ∈ maskCells := by rw [hcell]; exact List.getElem_mem _
  have hlt : cell < 195 := List.mem_range.1 (List.mem_filter.1 hmem).1
  have hv := pixelByte_le px k
  simp only [List.mem_cons, List.not_mem_nil, or_false] at ha
  rcases ha with rfl | rfl | rfl
  · exact hk
  · rw [Access.InExtent, Vector.getElem?_eq_getElem (by omega), Option.getD_some, getElem_padded]
    omega
  · exact hlt

/-- What one nybble does in the state of a string that leaves room. -/
inductive NybbleStep (d : Device) (w : List Nybble) (x : Nybble) (r : NybbleResult) : Prop where
  | goesOn (length : (scheme.values (w ++ [x])).length < 181) (res : r.res = .inProgress)
      (dev : r.dev = d.after (w ++ [x]))
  | completes (length : (scheme.values (w ++ [x])).length = 181) (res : r.res = .complete)
      (dev : r.dev = d.complete (scheme.values (w ++ [x])))
  | rejects (length : 181 < (scheme.values (w ++ [x])).length) (res : r.res = .error) (dev : r.dev = d.after w)

/-- The end of `process_nybble` after a transition that did not overrun. -/
theorem finishNybble_step (d : Device) {w : List Nybble} (hw : (scheme.values w).length < 181) (x : Nybble)
    (accesses : List Access) (h : (scheme.values (w ++ [x])).length ≤ 181) :
    NybbleStep d w x (finishNybble (d.after (w ++ [x])) accesses) := by
  rw [finishNybble_after]
  split
  · next he =>
    -- the frame ends with a whole token, so no escape is pending
    obtain ⟨ts, hts, -⟩ := scheme.snoc_full_iff.1 ⟨hw, he⟩
    have hp : scheme.pending (w ++ [x]) = false := by rw [hts, scheme.pending_encode]
    refine .completes he rfl ?_
    simp [Device.after, Device.complete, he, hp]
  · next hne => exact .goesOn (by omega) rfl rfl

theorem finishNybble_inExtent (d : Device) (w : List Nybble) {accesses : List Access}
    (h : ∀ a ∈ accesses, a.InExtent) : ∀ a ∈ (finishNybble (d.after w) accesses).accesses, a.InExtent := by
  intro a ha
  rw [finishNybble_after] at ha
  split at ha
  · rcases List.mem_append.1 ha with ha | ha
    · exact h a ha
    · exact unpack_inExtent _ a ha
  · exact h a ha

/-- **One nybble.** From the state of a string that leaves room,
`process_nybble` follows the grammar, and all its accesses are in extent. -/
theorem processNybble_after (d : Device) {w : List Nybble} (hw : (scheme.values w).length < 181) (x : Nybble) :
    NybbleStep d w x (processNybble (d.after w) (byteOf x)) ∧
      ∀ a ∈ (processNybble (d.after w) (byteOf x)).accesses, a.InExtent := by
  have hx : (byteOf x).toNat = x := byteOf_toNat (by decide) x
  cases hp : scheme.pending w with
  | true =>
    have hflag : (d.after w).nextIsRunEncoded ≠ 0 := by simp [Device.after, hp]
    have hlen : (scheme.values (w ++ [x])).length = (scheme.values w).length + (x + 3) := by
      rw [scheme.values_snoc_run hp, List.length_append, List.length_replicate]; rfl
    have hidx : (d.after w).bufIndex = (scheme.values w).length := rfl
    simp only [processNybble, byteOf_lt_sixteen, if_false, hflag, ne_eq, not_false_eq_true, if_true, hidx, hx]
    split
    · next hover => exact ⟨.rejects (by omega) rfl rfl, by simp⟩
    · next hfits =>
      have hrun := after_snoc_run d hp x
      have hnext : { (zeroRun (x + 3) (d.after w)).1 with nextIsRunEncoded := 0 } = d.after (w ++ [x]) := by
        rw [hrun]
        have : scheme.pending (w ++ [x]) = false := by rw [scheme.pending_snoc, hp]; rfl
        simp only [Device.after, this]
        rfl
      rw [hnext, hrun]
      refine ⟨finishNybble_step d hw x _ (by omega), finishNybble_inExtent d (w ++ [x]) ?_⟩
      intro a ha
      obtain ⟨i, hi, rfl⟩ := List.mem_map.1 ha
      have := (List.mem_range'_1.1 hi).2
      simp only [Access.InExtent]
      omega
  | false =>
    have hflag : (d.after w).nextIsRunEncoded = 0 := by simp [Device.after, hp]
    simp only [processNybble, byteOf_lt_sixteen, if_false, hflag, ne_eq, not_true_eq_false, byteOf_eq_fifteen]
    split
    · next hesc =>
      subst hesc
      rw [after_snoc_esc d hp]
      have hv : scheme.values (w ++ [15]) = scheme.values w := scheme.values_snoc_esc hp
      exact ⟨finishNybble_step d hw 15 _ (by rw [hv]; omega), finishNybble_inExtent d (w ++ [15]) (by simp)⟩
    · next hlit =>
      rw [after_snoc_literal d hp hlit]
      have hlen : (scheme.values (w ++ [x])).length = (scheme.values w).length + 1 := by
        rw [scheme.values_snoc_literal hp hlit, List.length_append, List.length_singleton]
      refine ⟨finishNybble_step d hw x _ (by omega), finishNybble_inExtent d (w ++ [x]) ?_⟩
      intro a ha
      rw [List.mem_singleton.1 ha]
      exact hw

end TouchMouse
