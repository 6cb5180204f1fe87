/-!
# `touchmouse_set_device_mode`

One mode change (`touchmouse.c:302-345`) and the device it is about, a feature
register of 27 bytes. The register is fetched, its byte 4 is set to the value
of the mode, and it is written back. How the two transfers end is an input of
the call.
-/

namespace TouchMouse

/-- `touchmouse_mode`. -/
inductive TouchmouseMode where
  | default
  | rawImage
  deriving DecidableEq

/-- The bytes of the feature report 0x22, its id first. -/
abbrev FeatureReport := Vector UInt8 27

/-- A call: the mode, and what the transfers return, `hid_get_feature_report`
first. Each is a count or a negative code. -/
structure ModeCall where
  mode : TouchmouseMode
  received : Int
  written : Int
  deriving DecidableEq

/-- What a call does on the way. -/
inductive ModeEvent where
  /-- `hid_get_feature_report` is called with this buffer and returns -/
  | getFeatureReport (data : FeatureReport) (transferred : Int)
  /-- a read of `data[i]` while the report is dumped -/
  | dump (i : Nat)
  /-- `hid_send_feature_report` is called with this report and returns -/
  | sendFeatureReport (data : FeatureReport) (transferred : Int)
  deriving DecidableEq

/-- How a call ends, with the register as it leaves it. -/
structure ModeResult where
  ret : Int
  register : FeatureReport
  events : List ModeEvent

/-- The buffer of a request, `= {0x22}`. -/
def FeatureReport.request : FeatureReport := (Vector.replicate 27 0).set 0 0x22

/-! The byte of the mode, `data[4]`. -/

def FeatureReport.modeByte (data : FeatureReport) : UInt8 := data[4]
def FeatureReport.setModeByte (data : FeatureReport) (value : UInt8) : FeatureReport := data.set 4 value

@[simp] theorem FeatureReport.modeByte_setModeByte (data : FeatureReport) (value : UInt8) :
    (data.setModeByte value).modeByte = value := Vector.getElem_set_self _

@[simp] theorem FeatureReport.setModeByte_setModeByte (data : FeatureReport) (value value' : UInt8) :
    (data.setModeByte value).setModeByte value' = data.setModeByte value' := Vector.set_set ..

theorem FeatureReport.getElem_setModeByte (data : FeatureReport) (value : UInt8) {i : Nat} (hi : i < 27) :
    (data.setModeByte value)[i] = if 4 = i then value else data[i] := Vector.getElem_set ..

/-- What the `switch` stores in it. -/
def TouchmouseMode.setting : TouchmouseMode → UInt8
  | .default => 0x00
  | .rawImage => 0x06

/-- `touchmouse_set_device_mode`. A read of 27 bytes delivers the register to
the buffer, a write of 27 bytes stores the buffer. -/
def touchmouseSetDeviceMode (register : FeatureReport) (call : ModeCall) : ModeResult :=
  let fetched := .getFeatureReport .request call.received :: (List.range call.received.toNat).map .dump
  if call.received ≠ 0x1b then ⟨-1, register, fetched⟩
  else
    let data := register.setModeByte call.mode.setting
    let events := fetched ++ [.sendFeatureReport data call.written]
    if call.written = 0x1b then ⟨0, data, events⟩ else ⟨-1, register, events⟩

/-- The register over a sequence of calls. -/
def modeStep (register : FeatureReport) (call : ModeCall) : FeatureReport × List ModeEvent :=
  let r := touchmouseSetDeviceMode register call
  (r.register, r.events)

end TouchMouse
