import TouchMouse.Memory.Triple
import TouchMouse.Model.HidRead

/-!
# The list of input reports

The list that the read thread and the readers share, as HIDAPI keeps it on the
heap: `read_callback`, `return_data` and the end of `hid_close`
(`hid-libusb.c:618-674`, `928-940`, `1108-1138`; `mac/hid.c` has the same
code). The head `dev->input_reports` is passed along; the loops follow
pointers as those of the enumeration do.
-/

namespace TouchMouse
open Memory

namespace InputReports

/-- The handle and the pointers of a `struct hid_device_` of the Mac, with the
flag that its removal sets. -/
structure DeviceFields where
  deviceHandle : Nat
  disconnected : Bool
  inputReportBuf : Nat
  inputReports : Nat
  next : Nat
  deriving DecidableEq

/-- A `struct input_report`, the bytes its `data` points to, and a device. -/
inductive HidBlock where
  | inputReport (data len next : Nat)
  | reportData (bytes : List UInt8)
  | hidDevice (fields : DeviceFields)
  deriving DecidableEq

namespace HidBlock

def inputReport? : HidBlock → Option (Nat × Nat × Nat)
  | inputReport data len next => some (data, len, next)
  | _ => none

def reportData? : HidBlock → Option (List UInt8)
  | reportData bytes => some bytes
  | _ => none

def setNext (next : Nat) : HidBlock → Option HidBlock
  | inputReport data len _ => some (inputReport data len next)
  | _ => none

def hidDevice? : HidBlock → Option DeviceFields
  | hidDevice fields => some fields
  | _ => none

/-- An assignment to fields of a device. -/
def assign (change : DeviceFields → DeviceFields) : HidBlock → Option HidBlock
  | hidDevice fields => some (hidDevice (change fields))
  | _ => none

/-- The fields of a new report. -/
def fill (data len : Nat) : HidBlock → Option HidBlock
  | inputReport _ _ _ => some (inputReport data len 0)
  | _ => none

/-- `memcpy(rpt->data, bytes, …)`. -/
def copy (bytes : List UInt8) : HidBlock → Option HidBlock
  | reportData _ => some (reportData bytes)
  | _ => none

end HidBlock

/-- `return_data`: what it copied, and the new head. -/
def returnData (inputReports length : Nat) : Prog HidBlock (List UInt8 × Nat) := do
  let (rptData, rptLen, next) ← Prog.read HidBlock.inputReport? inputReports
  let len := if length < rptLen then length else rptLen
  let data ← if len > 0 then (do
      let bytes ← Prog.read HidBlock.reportData? rptData
      pure (bytes.take len))
    else pure []
  Prog.free rptData
  Prog.free inputReports
  pure (data, next)

/-- The report that `read_callback` makes of a transfer's buffer. -/
def newReport (buffer : Report) : Prog HidBlock Nat := do
  let rpt ← Prog.alloc (.inputReport 0 0 0)
  let data ← Prog.alloc (.reportData [])
  Prog.modify (HidBlock.copy buffer) data
  Prog.modify (HidBlock.fill data buffer.length) rpt
  pure rpt

/-- The walk to the last report, with the number of those before it. -/
def findEnd : Nat → (cur numQueued : Nat) → Prog HidBlock (Nat × Nat)
  | 0, _, _ => Prog.fault
  | n + 1, cur, numQueued => do
    let (_, _, next) ← Prog.read HidBlock.inputReport? cur
    if next ≠ 0 then findEnd n next (numQueued + 1) else pure (cur, numQueued)

/-- `read_callback` with the mutex held: the new head. -/
def attach (rpt inputReports : Nat) : Prog HidBlock Nat :=
  if inputReports = 0 then pure rpt
  else do
    let n ← Prog.addresses
    let (cur, numQueued) ← findEnd n inputReports 0
    Prog.modify (HidBlock.setNext rpt) cur
    if numQueued > 30 then do
      let (_, inputReports) ← returnData inputReports 0
      pure inputReports
    else pure inputReports

/-- `read_callback` on a completed transfer. -/
def readCallback (buffer : Report) (inputReports : Nat) : Prog HidBlock Nat := do
  let rpt ← newReport buffer
  attach rpt inputReports

/-- The loop of `hid_close` over what is left. -/
def closeLoop : Nat → Nat → Prog HidBlock Unit
  | 0, _ => Prog.fault
  | n + 1, inputReports =>
    if inputReports = 0 then pure ()
    else do
      let (_, inputReports) ← returnData inputReports 0
      closeLoop n inputReports

def hidClose (inputReports : Nat) : Prog HidBlock Unit := do
  let n ← Prog.addresses
  closeLoop n inputReports

/-! ## What is done to the list -/

/-- The heap and the head of the list. -/
structure State where
  heap : Heap HidBlock
  inputReports : Nat

/-- A report arrives, or a read takes one. -/
inductive ListOp where
  | received (buffer : Report)
  | returnData (length : Nat)

/-- One operation, with what it returned; `none` is a fault. A read finds the
list non-empty first. -/
def State.exec (s : State) : ListOp → Option (State × List (List UInt8))
  | .received buffer => (readCallback buffer s.inputReports s.heap).map fun r => (⟨r.2, r.1⟩, [])
  | .returnData length =>
    if s.inputReports = 0 then some (s, [])
    else (returnData s.inputReports length s.heap).map fun r => (⟨r.2, r.1.2⟩, [r.1.1])

def State.run : List ListOp → State → Option (State × List (List UInt8))
  | [], s => some (s, [])
  | op :: ops, s =>
    (s.exec op).bind fun r => (State.run ops r.1).map fun r' => (r'.1, r.2 ++ r'.2)

/-- `hid_open_path` gives a device without reports. -/
def State.opened : State := ⟨.empty, 0⟩

end InputReports

end TouchMouse
