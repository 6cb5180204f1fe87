import TouchMouse.Decoder.Transition
import TouchMouse.Decoder.Unpack

/-!
# Unpacking loses nothing

A completed frame's image shows each of its 181 pixels in a cell of its own,
scaled by a table without repetitions, so the image determines the pixels.
-/

namespace TouchMouse

/-- Below its count at `n`, every number is the count at some member of a
predicate. -/
theorem exists_count_eq {p : Nat → Prop} [DecidablePred p] {n k : Nat} (h : k < Nat.count p n) :
    ∃ m, m < n ∧ p m ∧ Nat.count p m = k := by
  induction n with
  | zero => cases h
  | succ n ih =>
    by_cases hlt : k < Nat.count p n
    · obtain ⟨m, hm, hp, hcount⟩ := ih hlt
      exact ⟨m, Nat.lt_succ_of_lt hm, hp, hcount⟩
    · have hn : p n := Nat.count_lt_count_succ_iff.1 (by omega)
      rw [Nat.count_succ, if_pos hn] at h
      exact ⟨n, Nat.lt_succ_self n, hn, by omega⟩

theorem count_mask : Nat.count InMask 195 = 181 := by decide +kernel

/-- The pixel numbers of mask cells are those of the pixel array. -/
theorem count_lt_mask {cell : Nat} (h : cell < 195) (hmask : InMask cell) : Nat.count InMask cell < 181 := by
  rw [← count_mask]
  exact Nat.count_strict_mono hmask h

theorem decoderTable_injective {v w : Nat} (hv : v < 15) (hw : w < 15) (h : decoderTable[v]? = decoderTable[w]?) :
    v = w := by
  have hall : ∀ v : Fin 15, ∀ w : Fin 15, decoderTable[v.1]? = decoderTable[w.1]? → v = w := by decide
  exact congrArg Fin.val (hall ⟨v, hv⟩ ⟨w, hw⟩ h)

/-- The value of a cell, out of the table that has it. -/
theorem imageOf_cell {p : Vector UInt8 181} (hp : ∀ v ∈ p, v.toNat ≤ 14) {cell : Nat} (h : cell < 195) :
    (imageOf p)[cell]? =
      if InMask cell then (p[Nat.count InMask cell]?).bind fun v => decoderTable[v.toNat]? else some 0 := by
  rw [Vector.getElem?_eq_getElem h, imageOf, Vector.getElem_ofFn]
  dsimp only
  split
  · next hmask =>
    have hk := count_lt_mask h hmask
    have hle := hp _ (Vector.getElem_mem hk)
    rw [Vector.getElem?_eq_getElem hk, Option.bind_some, Option.getD_some, decoderTableAt,
      Vector.getElem?_eq_getElem (by omega), Option.getD_some]
  · rfl

/-- The image determines the pixels. -/
theorem imageOf_injective {p q : Vector UInt8 181} (hp : ∀ v ∈ p, v.toNat ≤ 14) (hq : ∀ v ∈ q, v.toNat ≤ 14)
    (h : imageOf p = imageOf q) : p = q := by
  refine Vector.ext fun k hk => ?_
  -- the cell that shows pixel `k`
  obtain ⟨cell, hcell, hmask, rfl⟩ := exists_count_eq (p := InMask) (n := 195) (k := k) (by rw [count_mask]; exact hk)
  have hp' := hp _ (Vector.getElem_mem hk)
  have hq' := hq _ (Vector.getElem_mem hk)
  have hshow := (imageOf_cell hp hcell).symm.trans ((congrArg (·[cell]?) h).trans (imageOf_cell hq hcell))
  rw [if_pos hmask, if_pos hmask, Vector.getElem?_eq_getElem hk, Vector.getElem?_eq_getElem hk, Option.bind_some,
    Option.bind_some] at hshow
  exact UInt8.toNat_inj.1 (decoderTable_injective (by omega) (by omega) hshow)

/-! ## The reads of the pixels -/

def Access.pixel? : Access → Option Nat
  | .pixel i => some i
  | _ => none

/-- The indices at which pixels are read, in order. -/
def pixelReads (accesses : List Access) : List Nat := accesses.filterMap Access.pixel?

theorem pixelReads_append (as bs : List Access) : pixelReads (as ++ bs) = pixelReads as ++ pixelReads bs :=
  List.filterMap_append

theorem unpack_pixelReads (p : Vector UInt8 181) : pixelReads (unpack p).accesses = List.range 181 := by
  have hone : ∀ ck : Nat × Nat, List.filterMap Access.pixel?
      [.pixel ck.2, .decoderTable ((p[ck.2]?).getD 0).toNat, .image ck.1] = [ck.2] := fun _ => rfl
  rw [pixelReads, unpack_accesses, List.filterMap_flatMap]
  simp only [hone]
  rw [← maskCells_length, List.range_eq_range', ← List.zipIdx_map_snd 0 maskCells,
    ← List.flatMap_singleton' (List.map _ _), List.flatMap_map]

theorem zeroRun_pixelReads (n : Nat) (d : Device) : pixelReads (zeroRun n d).2 = [] := by
  induction n generalizing d with
  | zero => rfl
  | succ n ih => exact ih (writePixel d 0)

/-- A transition writes pixels and reads none. -/
theorem Transition.pixelReads {d state : Device} {nybble : UInt8} {accesses : List Access}
    (h : Transition d nybble state accesses) : pixelReads accesses = [] := by
  cases h with
  | run => exact zeroRun_pixelReads _ d
  | escape => rfl
  | literal => rfl

/-- A nybble that completes a frame unpacks the pixels it leaves, once each. -/
theorem processNybble_complete {d : Device} {nybble : UInt8} (h : (processNybble d nybble).res = .complete) :
    (processNybble d nybble).dev.image = imageOf (processNybble d nybble).dev.partialImage ∧
      pixelReads (processNybble d nybble).accesses = List.range 181 := by
  rcases processNybble_cases d nybble with he | ⟨state, accesses, htransition, he⟩
  · rw [he] at h
    cases h
  · rw [he] at h ⊢
    by_cases hfull : state.bufIndex = 181
    · simp only [finishNybble_full hfull, unpack_image, pixelReads_append, htransition.pixelReads, List.nil_append,
        unpack_pixelReads, and_self]
    · rw [finishNybble_room hfull] at h
      cases h

/-- **Unpacking is exact and lossless.** When a nybble completes a frame of
values 0 to 14, each cell shows the table's entry for the pixel whose number
is the count of mask cells before it, or 0 outside the mask; the pixels are
read once each, in order, and none beyond; and no frame with other pixels
gives the same image. -/
theorem unpacking_lossless {d : Device} {nybble : UInt8} (hcomplete : (processNybble d nybble).res = .complete)
    (hpixels : ∀ v ∈ (processNybble d nybble).dev.partialImage, v.toNat ≤ 14) :
    let r := processNybble d nybble
    (∀ row col, row < 13 → col < 15 →
      r.dev.image[15 * row + col]? =
        if InMask (15 * row + col) then
          (r.dev.partialImage[Nat.count InMask (15 * row + col)]?).bind fun v => decoderTable[v.toNat]?
        else some 0) ∧
    pixelReads r.accesses = List.range 181 ∧
    ∀ (d' : Device) (nybble' : UInt8), (processNybble d' nybble').res = .complete →
      (∀ v ∈ (processNybble d' nybble').dev.partialImage, v.toNat ≤ 14) →
      (processNybble d' nybble').dev.partialImage ≠ r.dev.partialImage → (processNybble d' nybble').dev.image ≠ r.dev.image := by
  intro r
  obtain ⟨himage, hreads⟩ := processNybble_complete hcomplete
  refine ⟨fun row col hrow hcol => ?_, hreads, fun d' nybble' hcomplete' hpixels' hne heq => ?_⟩
  · rw [himage]
    exact imageOf_cell hpixels (by omega)
  · rw [himage, (processNybble_complete hcomplete').1] at heq
    exact hne (imageOf_injective hpixels' hpixels heq)

/-- The last pixel of a frame of zeroes. -/
theorem unpacking_lossless_last_pixel :
    pixelReads (processNybble { resetDecoder ((touchmouseOpen 1).get (by decide)) with bufIndex := 180 } 7).accesses =
      List.range 181 :=
  (unpacking_lossless (by decide +kernel) (by decide +kernel)).2.1

end TouchMouse
