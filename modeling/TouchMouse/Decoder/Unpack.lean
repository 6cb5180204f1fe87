import TouchMouse.Model.ProcessNybble
import Mathlib.Data.Nat.Count

/-!
# The unpacked image

What the nested loops of `process_nybble` compute, said without loops: a cell
of the 13 by 15 grid shows the pixel whose number is the count of mask cells
before it, scaled by `decoder_table`, and 0 outside the mask of the mouse.
-/

namespace TouchMouse

/-- The mask of the mouse, row by row, as the picture above `process_nybble`
draws it. -/
def InMask (cell : Nat) : Prop :=
  match cell / 15 with
  | 0 => 0x3 ≤ cell % 15 ∧ cell % 15 ≤ 0xb
  | 1 => 0x2 ≤ cell % 15 ∧ cell % 15 ≤ 0xc
  | 2 | 3 => 0x1 ≤ cell % 15 ∧ cell % 15 ≤ 0xd
  | _ => True

instance : DecidablePred InMask := fun cell => by
  unfold InMask
  split <;> infer_instance

/-- The image of a pixel array. -/
def imageOf (partialImage : Vector UInt8 181) : Vector UInt8 195 :=
  .ofFn fun cell =>
    if InMask cell then decoderTableAt ((partialImage[Nat.count InMask cell]?).getD 0).toNat else 0

/-- The cells the loops visit, in their order. -/
def maskCells : List Nat := (List.range 195).filter fun cell => InMask cell

theorem maskCells_rows :
    (List.range 13).flatMap (fun row =>
      (List.range' (startcol row) (endcol row + 1 - startcol row)).map (row * 15 + ·)) = maskCells := by
  decide +kernel

theorem maskCells_length : maskCells.length = 181 := by decide +kernel

/-- The nested loops are one loop over the mask. -/
theorem unpack_eq_foldl (partialImage : Vector UInt8 181) :
    unpack partialImage =
      maskCells.foldl (unpackCell partialImage) { i := 0, image := .replicate 195 0, accesses := [] } := by
  rw [← maskCells_rows, List.foldl_flatMap]
  unfold unpack
  congr 1
  funext u row
  rw [List.foldl_map, unpackRow]

/-- The state of the loop over the cells before `n`. -/
theorem foldl_unpackCell (partialImage : Vector UInt8 181) (n : Nat) :
    let u := ((List.range n).filter fun cell => InMask cell).foldl (unpackCell partialImage)
      { i := 0, image := .replicate 195 0, accesses := [] }
    u.i = Nat.count InMask n ∧
      ∀ cell (h : cell < 195), u.image[cell] =
        if cell < n ∧ InMask cell then decoderTableAt ((partialImage[Nat.count InMask cell]?).getD 0).toNat
        else 0 := by
  induction n with
  | zero => simp
  | succ n ih =>
    obtain ⟨hi, himage⟩ := ih
    by_cases hn : InMask n
    · simp only [List.range_succ, List.filter_append, List.foldl_append, List.filter_cons, hn, decide_true,
        if_true, List.filter_nil, List.foldl_cons, List.foldl_nil, unpackCell, Nat.count_succ, hi, true_and]
      intro cell h
      rw [Vector.getElem_setIfInBounds]
      by_cases hc : n = cell
      · subst hc; simp [hn]
      · rw [if_neg hc, himage cell h]
        have : cell < n + 1 ↔ cell < n := by omega
        simp only [this]
    · simp only [List.range_succ, List.filter_append, List.foldl_append, List.filter_cons, hn, decide_false,
        Bool.false_eq_true, if_false, List.filter_nil, List.foldl_nil, Nat.count_succ, hi, Nat.add_zero, true_and]
      intro cell h
      rw [himage cell h]
      by_cases hc : cell = n
      · subst hc; simp [hn]
      · have : cell < n + 1 ↔ cell < n := by omega
        simp only [this]

/-- Unpacking computes the image. -/
theorem unpack_image (partialImage : Vector UInt8 181) : (unpack partialImage).image = imageOf partialImage := by
  obtain ⟨-, himage⟩ := foldl_unpackCell partialImage 195
  rw [unpack_eq_foldl]
  ext cell h
  rw [maskCells, himage cell h, imageOf, Vector.getElem_ofFn]
  simp [h]

/-- The accesses of the loop: each pixel once, in order, with the lookup of
its value and the write of its cell. -/
theorem unpack_accesses (partialImage : Vector UInt8 181) :
    (unpack partialImage).accesses = maskCells.zipIdx.flatMap fun ck =>
      [.pixel ck.2, .decoderTable ((partialImage[ck.2]?).getD 0).toNat, .image ck.1] := by
  have h : ∀ (cells : List Nat) (u : Unpacking),
      (cells.foldl (unpackCell partialImage) u).accesses = u.accesses ++ (cells.zipIdx u.i).flatMap fun ck =>
        [.pixel ck.2, .decoderTable ((partialImage[ck.2]?).getD 0).toNat, .image ck.1] := by
    intro cells
    induction cells with
    | nil => simp
    | cons cell cells ih => intro u; simp [ih, unpackCell]
  rw [unpack_eq_foldl, h]
  rfl

end TouchMouse
