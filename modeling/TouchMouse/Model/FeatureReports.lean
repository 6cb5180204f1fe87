import TouchMouse.Model.OpenPath
import TouchMouse.Model.SetDeviceMode

/-!
# Reports that are sent and fetched

`hid_write`, `hid_send_feature_report` and `hid_get_feature_report` on Linux
(`hid-libusb.c:876-924`, `1047-1105`) and on the Mac (`mac/hid.c:763-805`,
`949-971`), and `touchmouse_set_device_mode` over them. The transfers of libusb
and of IOKit are parameters, over a state of what is behind them: a transfer
may fail, take or deliver any part of a report, and change the state in any
way. A buffer is the list of its bytes. A read of `data[0]` of an empty one has
no outcome.
-/

namespace TouchMouse

variable {σ : Type}

/-- Bytes that are stored at the start of a buffer. None is stored past its end. -/
def storeBytes (data bytes : List UInt8) : List UInt8 := bytes.take data.length ++ data.drop bytes.length

/-- What a call that sends a report returns, and how many bytes of the report
its transfer took, `none` where that failed or none was made. -/
structure Sent where
  ret : Int32
  taken : Option Nat
  deriving DecidableEq

/-! ## Linux -/

namespace Linux

/-- The arguments of `libusb_control_transfer` other than the buffer. -/
structure ControlSetup where
  bmRequestType : UInt8
  bRequest : UInt8
  wValue : UInt16
  wIndex : UInt16
  wLength : UInt16
  deriving DecidableEq

/-- The transfers of libusb, with a buffer. -/
structure Transfers (σ : Type) where
  /-- `libusb_control_transfer`: the result, and the bytes that it stores -/
  controlTransfer : ControlSetup → List UInt8 → σ → (Int32 × List UInt8) × σ
  /-- `libusb_interrupt_transfer` to an endpoint: the result and `*transferred` -/
  interruptTransfer : UInt8 → List UInt8 → σ → (Int32 × Int32) × σ

variable (usb : Transfers σ) (dev : HidHandle)

/-- `LIBUSB_REQUEST_TYPE_CLASS|LIBUSB_RECIPIENT_INTERFACE|LIBUSB_ENDPOINT_OUT`. -/
def requestOut : UInt8 := 0x20 ||| 0x01 ||| 0x00

/-- `LIBUSB_REQUEST_TYPE_CLASS|LIBUSB_RECIPIENT_INTERFACE|LIBUSB_ENDPOINT_IN`. -/
def requestIn : UInt8 := 0x20 ||| 0x01 ||| 0x80

/-- A `Set_Report` of a kind. `skipped` is 1 where the number is left out. Of a
transfer that does not fail the length is returned, not the result. -/
def setReport (kind : UInt16) (reportNumber : UInt8) (data : List UInt8) (skipped : Nat) (s : σ) : Sent × σ :=
  let ((res, _), s) := usb.controlTransfer
    ⟨requestOut, 0x09, kind <<< 8 ||| reportNumber.toUInt16, dev.interface.toUInt16, .ofNat data.length⟩ data s
  if res < 0 then (⟨-1, none⟩, s) else (⟨.ofNat (data.length + skipped), some res.toNatClampNeg⟩, s)

/-- A write to the interrupt OUT endpoint. -/
def interruptOut (data : List UInt8) (skipped : Int32) (s : σ) : Sent × σ :=
  let ((res, actualLength), s) := usb.interruptTransfer dev.outputEndpoint data s
  if res < 0 then (⟨-1, none⟩, s) else (⟨actualLength + skipped, some actualLength.toNatClampNeg⟩, s)

def hidWrite (data : List UInt8) (s : σ) : Option (Sent × σ) :=
  match data with
  | [] => none
  | reportNumber :: rest =>
    if dev.outputEndpoint = 0 then
      if reportNumber = 0 then some (setReport usb dev 2 reportNumber rest 1 s)
      else some (setReport usb dev 2 reportNumber data 0 s)
    else if reportNumber = 0 then some (interruptOut usb dev rest 1 s)
    else some (interruptOut usb dev data 0 s)

def hidSendFeatureReport (data : List UInt8) (s : σ) : Option (Sent × σ) :=
  match data with
  | [] => none
  | reportNumber :: rest =>
    if reportNumber = 0 then some (setReport usb dev 3 reportNumber rest 1 s)
    else some (setReport usb dev 3 reportNumber data 0 s)

/-- A `Get_Report` of a feature report into a buffer. -/
def getReport (reportNumber : UInt8) (data : List UInt8) (s : σ) : (Int32 × List UInt8) × σ :=
  let ((res, bytes), s) := usb.controlTransfer
    ⟨requestIn, 0x01, (3 : UInt16) <<< 8 ||| reportNumber.toUInt16, dev.interface.toUInt16, .ofNat data.length⟩ data s
  ((res, storeBytes data bytes), s)

/-- `hid_get_feature_report`, with the buffer as it leaves it. Of a report
without a number byte 0 of the buffer stays. -/
def hidGetFeatureReport (data : List UInt8) (s : σ) : Option ((Int32 × List UInt8) × σ) :=
  match data with
  | [] => none
  | reportNumber :: rest =>
    if reportNumber = 0 then
      let ((res, rest), s) := getReport usb dev reportNumber rest s
      some ((if res < 0 then -1 else res + 1, reportNumber :: rest), s)
    else
      let ((res, data), s) := getReport usb dev reportNumber data s
      some ((if res < 0 then -1 else res, data), s)

end Linux

/-! ## The Mac -/

namespace Mac

/-- `IOHIDReportType`, as far as it is used. -/
inductive ReportType where
  | output
  | feature
  deriving DecidableEq

/-- The calls of IOKit on a device. `0` is `kIOReturnSuccess`. -/
structure Transfers (σ : Type) where
  /-- a read of `dev->disconnected`, which is set on another thread -/
  disconnected : σ → Bool × σ
  /-- `IOHIDDeviceSetReport` -/
  setReport : ReportType → UInt8 → List UInt8 → σ → Int32 × σ
  /-- `IOHIDDeviceGetReport`: the result, the bytes that it stores, and `*pReportLength` -/
  getReport : ReportType → UInt8 → List UInt8 → σ → (Int32 × List UInt8 × Int64) × σ

variable (io : Transfers σ)

/-- `set_report`. -/
def setReport (type : ReportType) (data : List UInt8) (s : σ) : Option (Sent × σ) :=
  match io.disconnected s with
  | (true, s) => some (⟨-1, none⟩, s)
  | (false, s) =>
    match data with
    | [] => none
    | reportId :: rest =>
      let dataToSend := if reportId = 0 then rest else data
      match io.disconnected s with
      | (true, s) => some (⟨-1, none⟩, s)
      | (false, s) =>
        let r := io.setReport type reportId dataToSend s
        if r.1 = 0 then some (⟨.ofNat data.length, some dataToSend.length⟩, r.2) else some (⟨-1, none⟩, r.2)

def hidWrite (data : List UInt8) (s : σ) : Option (Sent × σ) := setReport io .output data s

def hidSendFeatureReport (data : List UInt8) (s : σ) : Option (Sent × σ) := setReport io .feature data s

/-- `hid_get_feature_report`. The whole buffer is passed on, with any number. -/
def hidGetFeatureReport (data : List UInt8) (s : σ) : Option ((Int32 × List UInt8) × σ) :=
  match io.disconnected s with
  | (true, s) => some ((-1, data), s)
  | (false, s) =>
    match data with
    | [] => none
    | reportId :: _ =>
      let ((res, bytes, len), s) := io.getReport .feature reportId data s
      some ((if res = 0 then len.toInt32 else -1, storeBytes data bytes), s)

end Mac

/-! ## Calls -/

/-- The calls of a back end that are about single reports. -/
structure FeatureBackend (σ : Type) where
  hidWrite : List UInt8 → σ → Option (Sent × σ)
  hidSendFeatureReport : List UInt8 → σ → Option (Sent × σ)
  hidGetFeatureReport : List UInt8 → σ → Option ((Int32 × List UInt8) × σ)

def Linux.featureBackend (usb : Transfers σ) (dev : HidHandle) : FeatureBackend σ :=
  ⟨hidWrite usb dev, hidSendFeatureReport usb dev, hidGetFeatureReport usb dev⟩

def Mac.featureBackend (io : Transfers σ) : FeatureBackend σ :=
  ⟨hidWrite io, hidSendFeatureReport io, hidGetFeatureReport io⟩

/-- A mode change, with what it returned and how it sent the report, if it did. -/
structure ModeChange where
  mode : TouchmouseMode
  ret : Int32
  sent : Option Sent
  deriving DecidableEq

/-- `touchmouse_set_device_mode` with the calls that it makes. -/
def setDeviceModeOver (b : FeatureBackend σ) (mode : TouchmouseMode) (s : σ) : Option (ModeChange × σ) :=
  match b.hidGetFeatureReport FeatureReport.request.toList s with
  | none => none
  | some ((transferred, data), s) =>
    if transferred ≠ 0x1b then some (⟨mode, -1, none⟩, s)
    else
      match b.hidSendFeatureReport (data.set 4 mode.setting) s with
      | none => none
      | some (sent, s) => some (⟨mode, if sent.ret = 0x1b then 0 else -1, some sent⟩, s)

def ModeChangeStep (b : FeatureBackend σ) (s : σ) (change : ModeChange) (s' : σ) : Prop :=
  setDeviceModeOver b change.mode s = some (change, s')

end TouchMouse
