/-!
# The device handle

The state `libtouchmouse` keeps for an open mouse (`touchmouse_device_` in
`touchmouse-internal.h`), the values that cross its interface, and the
functions that only set fields of it. Pointers that the library stores but
never follows (the HIDAPI handle, the user's data, the callback) are bare
addresses. Arrays have their C extents; the memory accesses of the decoder
are recorded as `Access`es, so that an index outside an extent is visible.
-/

namespace TouchMouse

/-- A pointer the library passes on without looking behind it; 0 is `NULL`. -/
abbrev Addr := Nat

/-- `struct touchmouse_device_`. The index only counts up from 0 and is reset
to 0, so it is a `Nat`; the run flag is the C `int` it is. -/
structure Device where
  dev : Addr
  userdata : Addr
  cb : Addr
  timestampLastCompleted : UInt8
  timestampInProgress : UInt8
  bufIndex : Nat
  nextIsRunEncoded : Int
  partialImage : Vector UInt8 181
  image : Vector UInt8 195
  deriving DecidableEq

/-- `touchmouse_callback_info`, with the image the pointer shows. -/
structure CallbackInfo where
  userdata : Addr
  image : Vector UInt8 195
  timestamp : UInt8
  deriving DecidableEq

/-- The return codes of `process_nybble`; `begin` is never returned. -/
inductive DecoderState where
  | begin
  | inProgress
  | complete
  | error
  deriving DecidableEq

/-- One access to an array, by index. -/
inductive Access where
  /-- a read of `data[j]` while the transfer is dumped -/
  | transfer (j : Nat)
  /-- a read of `r->data[t]` -/
  | data (t : Nat)
  /-- a write of `partial_image[i]` -/
  | partialImage (i : Nat)
  /-- a read of `partial_image[i]` while the image is unpacked -/
  | pixel (i : Nat)
  /-- a lookup of `decoder_table[v]` -/
  | decoderTable (v : Nat)
  /-- a write of `image[i]` -/
  | image (i : Nat)
  deriving DecidableEq

/-- `reset_decoder`. -/
def resetDecoder (state : Device) : Device :=
  { state with
    bufIndex := 0
    nextIsRunEncoded := 0
    partialImage := .replicate 181 0
    image := .replicate 195 0 }

/-- `touchmouse_open`, given what `hid_open_path` returned: nothing on a null
handle, else a zeroed struct that holds it. -/
def touchmouseOpen (handle : Addr) : Option Device :=
  if handle = 0 then none
  else some
    { dev := handle
      userdata := 0
      cb := 0
      timestampLastCompleted := 0
      timestampInProgress := 0
      bufIndex := 0
      nextIsRunEncoded := 0
      partialImage := .replicate 181 0
      image := .replicate 195 0 }

/-- `touchmouse_set_image_update_callback`. -/
def touchmouseSetImageUpdateCallback (dev : Device) (callback : Addr) : Device := { dev with cb := callback }

/-- `touchmouse_set_device_userdata`. -/
def touchmouseSetDeviceUserdata (dev : Device) (userdata : Addr) : Device := { dev with userdata := userdata }

/-- What `hid_read_timeout` hands back when it is given room for 255 bytes: a
negative code, or a count and that many bytes at the start of the buffer. -/
structure ReadResult where
  res : Int
  bytes : List UInt8
  length_eq : bytes.length = res.toNat
  fits : res ≤ 255
  deriving DecidableEq

/-- The receive buffer, `unsigned char data[256]`. -/
abbrev Buffer := Vector UInt8 256

/-- The buffer a call starts with, `= {}`. -/
def Buffer.zero : Buffer := .replicate 256 0

/-- A read overwrites the start of the buffer and leaves the rest. -/
def Buffer.receive (data : Buffer) (bytes : List UInt8) : Buffer :=
  .ofFn fun i => (bytes[i.1]?).getD data[i]

/-! The fields of `report`, the view of the buffer as a touch report. -/

def Buffer.reportId (data : Buffer) : UInt8 := data[0]
def Buffer.length (data : Buffer) : UInt8 := data[1]
def Buffer.timestamp (data : Buffer) : UInt8 := data[6]

/-- `r->data[t]`. The field is declared with 25 bytes but the index is not
checked: up to 249 it reads on in the buffer. Past the buffer the value is
unknown; the decode loop never gets there and the dump only prints it. -/
def Buffer.data (data : Buffer) (t : Nat) : UInt8 := (data[7 + t]?).getD 0

end TouchMouse
