import TouchMouse.Model.Device

/-!
# `process_nybble`

The decoder proper (`touchmouse.c:103-171`): one nybble at a time into
`partial_image`, and the unpacking of a finished frame into `image`. Every
step carries the list of its array accesses along.
-/

namespace TouchMouse

/-- `decoder_table`. -/
def decoderTable : Vector UInt8 15 :=
  #v[0, 18, 36, 55, 73, 91, 109, 128, 146, 164, 182, 200, 219, 237, 255]

/-- A lookup in `decoder_table`; outside its 15 entries the value is unknown. -/
def decoderTableAt (v : Nat) : UInt8 := (decoderTable[v]?).getD 0

/-! ## Unpacking -/

/-- `startcol` of the `switch` on the row. -/
def startcol (row : Nat) : Nat :=
  match row with
  | 0 => 0x3
  | 1 => 0x2
  | 2 => 0x1
  | 3 => 0x1
  | _ => 0x0

/-- `endcol` of the `switch` on the row, inclusive. -/
def endcol (row : Nat) : Nat :=
  match row with
  | 0 => 0xb
  | 1 => 0xc
  | 2 => 0xd
  | 3 => 0xd
  | _ => 0xe

/-- The variables of the unpacking loops. -/
structure Unpacking where
  i : Nat
  image : Vector UInt8 195
  accesses : List Access

/-- `image[cell] = decoder_table[partial_image[i++]]`. -/
def unpackCell (partialImage : Vector UInt8 181) (u : Unpacking) (cell : Nat) : Unpacking :=
  let v := ((partialImage[u.i]?).getD 0).toNat
  { i := u.i + 1
    image := u.image.setIfInBounds cell (decoderTableAt v)
    accesses := u.accesses ++ [.pixel u.i, .decoderTable v, .image cell] }

/-- The inner loop, over the columns of one row. -/
def unpackRow (partialImage : Vector UInt8 181) (u : Unpacking) (row : Nat) : Unpacking :=
  (List.range' (startcol row) (endcol row + 1 - startcol row)).foldl
    (fun u col => unpackCell partialImage u (row * 15 + col)) u

/-- The outer loop, after `memset(state->image, 0, 195)`. -/
def unpack (partialImage : Vector UInt8 181) : Unpacking :=
  (List.range 13).foldl (unpackRow partialImage) { i := 0, image := .replicate 195 0, accesses := [] }

/-! ## One nybble -/

/-- The state after a call of `process_nybble`, its return code and its array
accesses. -/
structure NybbleResult where
  dev : Device
  res : DecoderState
  accesses : List Access

/-- `partial_image[buf_index] = v; buf_index++`. -/
def writePixel (state : Device) (v : UInt8) : Device :=
  { state with
    partialImage := state.partialImage.setIfInBounds state.bufIndex v
    bufIndex := state.bufIndex + 1 }

/-- The loop that fills in a run, `n` turns from the end. -/
def zeroRun : Nat → Device → Device × List Access
  | 0, state => (state, [])
  | n + 1, state =>
    let rest := zeroRun n (writePixel state 0)
    (rest.1, .partialImage state.bufIndex :: rest.2)

/-- The end of `process_nybble`: unpack the frame if it is finished. -/
def finishNybble (state : Device) (accesses : List Access) : NybbleResult :=
  if state.bufIndex = 181 then
    let u := unpack state.partialImage
    ⟨{ state with image := u.image }, .complete, accesses ++ u.accesses⟩
  else ⟨state, .inProgress, accesses⟩

/-- `process_nybble`. -/
def processNybble (state : Device) (nybble : UInt8) : NybbleResult :=
  if 16 ≤ nybble then ⟨state, .error, []⟩
  else if state.nextIsRunEncoded ≠ 0 then
    if state.bufIndex + nybble.toNat + 3 > 181 then ⟨state, .error, []⟩
    else
      let run := zeroRun (nybble.toNat + 3) state
      finishNybble { run.1 with nextIsRunEncoded := 0 } run.2
  else if nybble = 0xf then finishNybble { state with nextIsRunEncoded := 1 } []
  else finishNybble (writePixel state nybble) [.partialImage state.bufIndex]

end TouchMouse
