import TouchMouse.Model.InputReports

/-!
# The open devices of the Mac

`mac/hid.c` keeps every device that is open in one list, `device_list`, so
that `hid_device_removal_callback` can mark the devices of a handle
(`mac/hid.c:103-220`, `547-562`). A device enters the list before
`hid_open_path` knows whether it can be opened, and leaves it when it is
freed. The head of the list is passed along; the functions hold its mutex, and
those of the reports the mutex of the device.
-/

namespace TouchMouse.Mac
open Memory InputReports

/-- The walk of `new_hid_device` to the end of the list. -/
def appendLoop (dev : Nat) : Nat → Nat → Prog HidBlock Unit
  | 0, _ => Prog.fault
  | n + 1, d =>
    if d = 0 then pure ()
    else do
      let fields ← Prog.read HidBlock.hidDevice? d
      if fields.next = 0 then Prog.modify (HidBlock.assign ({ · with next := dev })) d
      else appendLoop dev n fields.next

/-- `new_hid_device`: the device, and the list. -/
def newHidDevice (deviceList : Nat) : Prog HidBlock (Nat × Nat) := do
  let dev ← Prog.alloc (.hidDevice ⟨0, false, 0, 0, 0⟩)
  if deviceList = 0 then pure (dev, dev)
  else do
    let n ← Prog.addresses
    appendLoop dev n deviceList
    pure (dev, deviceList)

/-- The reports that are left, in `free_hid_device`. -/
def freeReports : Nat → Nat → Prog HidBlock Unit
  | 0, _ => Prog.fault
  | n + 1, rpt =>
    if rpt = 0 then pure ()
    else do
      let (data, _, next) ← Prog.read HidBlock.inputReport? rpt
      Prog.free data
      Prog.free rpt
      freeReports n next

def unlinkLoop (dev : Nat) : Nat → Nat → Prog HidBlock Unit
  | 0, _ => Prog.fault
  | n + 1, d =>
    if d = 0 then pure ()
    else do
      let fields ← Prog.read HidBlock.hidDevice? d
      if fields.next = dev then do
        let removed ← Prog.read HidBlock.hidDevice? fields.next
        Prog.modify (HidBlock.assign ({ · with next := removed.next })) d
      else unlinkLoop dev n fields.next

/-- Remove a device from the list. -/
def unlink (dev deviceList : Nat) : Prog HidBlock Nat :=
  if deviceList = dev then do
    let fields ← Prog.read HidBlock.hidDevice? deviceList
    pure fields.next
  else do
    let n ← Prog.addresses
    unlinkLoop dev n deviceList
    pure deviceList

/-- `free_hid_device`, with the list after it. -/
def freeHidDevice (dev deviceList : Nat) : Prog HidBlock Nat :=
  if dev = 0 then pure deviceList
  else do
    let fields ← Prog.read HidBlock.hidDevice? dev
    let n ← Prog.addresses
    freeReports n fields.inputReports
    let fields ← Prog.read HidBlock.hidDevice? dev
    Prog.free fields.inputReportBuf
    let deviceList ← unlink dev deviceList
    Prog.free dev
    pure deviceList

def removalLoop (devRef : Nat) : Nat → Nat → Prog HidBlock Unit
  | 0, _ => Prog.fault
  | n + 1, d =>
    if d = 0 then pure ()
    else do
      let fields ← Prog.read HidBlock.hidDevice? d
      if fields.deviceHandle = devRef then do
        Prog.modify (HidBlock.assign ({ · with disconnected := true })) d
        let fields ← Prog.read HidBlock.hidDevice? d
        removalLoop devRef n fields.next
      else removalLoop devRef n fields.next

/-- `hid_device_removal_callback`. -/
def hidDeviceRemovalCallback (devRef deviceList : Nat) : Prog HidBlock Unit := do
  let n ← Prog.addresses
  removalLoop devRef n deviceList

/-- `hid_open_path` with the handle it opened, and the length of the buffer
for its reports. -/
def attachHandle (dev osDev maxInputReportLen : Nat) : Prog HidBlock Unit := do
  Prog.modify (HidBlock.assign ({ · with deviceHandle := osDev })) dev
  let buf ← Prog.alloc (.reportData (List.replicate maxInputReportLen 0))
  Prog.modify (HidBlock.assign ({ · with inputReportBuf := buf })) dev

/-- `hid_report_callback` and `return_data` on the list of a device. -/
def hidReportCallback (dev : Nat) (rpt : Report) : Prog HidBlock Unit := do
  let fields ← Prog.read HidBlock.hidDevice? dev
  let inputReports ← readCallback rpt fields.inputReports
  Prog.modify (HidBlock.assign ({ · with inputReports := inputReports })) dev

def deviceReturnData (dev length : Nat) : Prog HidBlock (List (List UInt8)) := do
  let fields ← Prog.read HidBlock.hidDevice? dev
  if fields.inputReports = 0 then pure []
  else do
    let (data, inputReports) ← returnData fields.inputReports length
    Prog.modify (HidBlock.assign ({ · with inputReports := inputReports })) dev
    pure [data]

/-- The end of `hid_close`: the queue is cleared, and the device freed. -/
def closeDevice (dev deviceList : Nat) : Prog HidBlock Nat := do
  let fields ← Prog.read HidBlock.hidDevice? dev
  hidClose fields.inputReports
  Prog.modify (HidBlock.assign ({ · with inputReports := 0 })) dev
  freeHidDevice dev deviceList

/-! ## What is done to the devices -/

/-- A device by its place among those that `hid_open_path` has made and nobody
freed, oldest first. -/
inductive DeviceOp where
  /-- `hid_open_path` makes a device -/
  | newHidDevice
  /-- it opened this handle for a device, once -/
  | attachHandle (i osDev maxInputReportLen : Nat)
  /-- it found or opened no handle -/
  | freeHidDevice (i : Nat)
  | hidReportCallback (i : Nat) (rpt : Report)
  /-- a read finds a report and takes it -/
  | returnData (i length : Nat)
  | hidDeviceRemovalCallback (devRef : Nat)
  | hidClose (i : Nat)

/-- A device that was made: its address, and whether it has its handle. -/
structure MadeDevice where
  dev : Nat
  attached : Bool

structure Devices where
  heap : Heap HidBlock
  deviceList : Nat
  made : List MadeDevice

def Devices.start : Devices := ⟨.empty, 0, []⟩

/-- One operation, with what a read returned; `none` is a fault. Without a
device at the place there is nothing to do. -/
def Devices.exec (s : Devices) : DeviceOp → Option (Devices × List (List UInt8))
  | .newHidDevice =>
    (newHidDevice s.deviceList s.heap).map fun r => (⟨r.2, r.1.2, s.made ++ [⟨r.1.1, false⟩]⟩, [])
  | .attachHandle i osDev maxInputReportLen =>
    match s.made[i]? with
    | some ⟨dev, false⟩ =>
      (attachHandle dev osDev maxInputReportLen s.heap).map fun r => (⟨r.2, s.deviceList, s.made.set i ⟨dev, true⟩⟩, [])
    | _ => some (s, [])
  | .freeHidDevice i =>
    match s.made[i]? with
    | some m => (freeHidDevice m.dev s.deviceList s.heap).map fun r => (⟨r.2, r.1, s.made.eraseIdx i⟩, [])
    | none => some (s, [])
  | .hidReportCallback i rpt =>
    match s.made[i]? with
    | some m => (hidReportCallback m.dev rpt s.heap).map fun r => ({ s with heap := r.2 }, [])
    | none => some (s, [])
  | .returnData i length =>
    match s.made[i]? with
    | some m => (deviceReturnData m.dev length s.heap).map fun r => ({ s with heap := r.2 }, r.1)
    | none => some (s, [])
  | .hidDeviceRemovalCallback devRef =>
    (hidDeviceRemovalCallback devRef s.deviceList s.heap).map fun r => ({ s with heap := r.2 }, [])
  | .hidClose i =>
    match s.made[i]? with
    | some m => (closeDevice m.dev s.deviceList s.heap).map fun r => (⟨r.2, r.1, s.made.eraseIdx i⟩, [])
    | none => some (s, [])

def Devices.run : List DeviceOp → Devices → Option (Devices × List (List UInt8))
  | [], s => some (s, [])
  | op :: ops, s =>
    (s.exec op).bind fun r => (Devices.run ops r.1).map fun r' => (r'.1, r.2 ++ r'.2)

end TouchMouse.Mac
