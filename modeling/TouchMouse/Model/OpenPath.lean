import TouchMouse.Codec.Numeral
import TouchMouse.Model.Enumerate

/-!
# Finding and opening a device on Linux

`make_path`, `hid_enumerate` and `hid_open_path` over the USB devices that
libusb lists (`hid-libusb.c:372-382`, `406-567`, `740-873`). The strings of
the records are left out. What libusb returns to a call may depend on all the
calls before it; the calls are recorded with what they returned.

`libusb_get_device_list` is taken to succeed, in `hid_open_path` with the
devices and descriptors of `hid_enumerate`. Where it fails, `hid_enumerate`
returns `NULL`, but `hid_open_path` does not look and follows a pointer that was
never set.
-/

namespace TouchMouse

/-! ## What libusb tells of a device -/

/-- `struct libusb_endpoint_descriptor`. -/
structure EndpointDescriptor where
  bEndpointAddress : UInt8
  bmAttributes : UInt8
  wMaxPacketSize : UInt16
  deriving DecidableEq

/-- `struct libusb_interface_descriptor`, one altsetting of an interface. -/
structure InterfaceDescriptor where
  bInterfaceNumber : UInt8
  bInterfaceClass : UInt8
  endpoint : List EndpointDescriptor
  deriving DecidableEq

/-- `struct libusb_config_descriptor`: the altsettings of each interface. -/
structure ConfigDescriptor where
  interface : List (List InterfaceDescriptor)

/-- `struct libusb_device_descriptor`. -/
structure DeviceDescriptor where
  bDeviceClass : UInt8
  idVendor : UInt16
  idProduct : UInt16
  iManufacturer : UInt8
  iProduct : UInt8
  iSerialNumber : UInt8

/-- A device, with the configurations that `libusb_get_active_config_descriptor`
and `libusb_get_config_descriptor(…, 0, …)` find. -/
structure UsbDevice where
  busNumber : UInt8
  deviceAddress : UInt8
  desc : DeviceDescriptor
  activeConfig : Option ConfigDescriptor
  config0 : Option ConfigDescriptor

namespace Linux

/-- `"%04x:%04x:%02x"`. Each number is a byte and has its digits in the width. -/
def makePath (dev : UsbDevice) (interfaceNumber : UInt8) : String :=
  .ofList (Numeral.write 16 Nat.digitChar 4 dev.busNumber.toNat ++
    ':' :: (Numeral.write 16 Nat.digitChar 4 dev.deviceAddress.toNat ++
      ':' :: Numeral.write 16 Nat.digitChar 2 interfaceNumber.toNat))

/-! ## `hid_enumerate` -/

def matchesIds (vendorId productId : UInt16) (desc : DeviceDescriptor) : Bool :=
  (vendorId = 0 ∧ productId = 0) ∨ (vendorId = desc.idVendor ∧ productId = desc.idProduct)

/-- The records of one device. A record is zeroed, and nothing sets its usage. -/
def enumerateDevice (vendorId productId : UInt16) (dev : UsbDevice) : List HidDeviceInfo :=
  -- `LIBUSB_CLASS_PER_INTERFACE`
  if dev.desc.bDeviceClass ≠ 0 then []
  else
    match dev.activeConfig <|> dev.config0 with
    | none => []
    | some confDesc =>
      confDesc.interface.flatMap fun altsetting =>
        altsetting.filterMap fun intfDesc =>
          if intfDesc.bInterfaceClass = 3 ∧ matchesIds vendorId productId dev.desc then
            some
              { path := makePath dev intfDesc.bInterfaceNumber
                usagePage := 0
                usage := 0
                interfaceNumber := .ofNat intfDesc.bInterfaceNumber.toNat }
          else none

def hidEnumerate (vendorId productId : UInt16) (devs : List UsbDevice) : List HidDeviceInfo :=
  devs.flatMap (enumerateDevice vendorId productId)

/-! ## `hid_open_path` -/

/-- What `hid_open_path` sets in a `struct hid_device_`. The handle is the
index of the device it was opened for. -/
structure HidHandle where
  deviceHandle : Option Nat
  inputEndpoint : UInt8
  outputEndpoint : UInt8
  inputEpMaxPacketSize : UInt16
  interface : UInt8
  manufacturerIndex : UInt8
  productIndex : UInt8
  serialIndex : UInt8
  deriving DecidableEq

/-- `new_hid_device`. -/
def newHidDevice : HidHandle := ⟨none, 0, 0, 0, 0, 0, 0, 0⟩

/-- A call, on the handle of the device at an index. `readThread` is
`pthread_create`, up to the barrier. -/
inductive UsbCall where
  | libusbOpen (d : Nat)
  | kernelDriverActive (d : Nat) (interface : UInt8)
  | detachKernelDriver (d : Nat) (interface : UInt8)
  | claimInterface (d : Nat) (interface : UInt8)
  | libusbClose (d : Nat)
  | readThread (d : Nat) (interface : UInt8)
  deriving DecidableEq

/-- What each call returns, after the calls before it. -/
abbrev Libusb := List (UsbCall × Int) → UsbCall → Int

/-- The variables of `hid_open_path`, and its calls. -/
structure Opening where
  dev : HidHandle
  goodOpen : Bool
  calls : List (UsbCall × Int)

def Opening.start : Opening := ⟨newHidDevice, false, []⟩

namespace Opening

variable (usb : Libusb)

def call (o : Opening) (c : UsbCall) : Int × Opening :=
  (usb o.calls c, { o with calls := o.calls ++ [(c, usb o.calls c)] })

/-- Close the handle, and do not return the device. -/
def giveUp (o : Opening) (d : Nat) : Opening := { (o.call usb (.libusbClose d)).2 with goodOpen := false }

/-- Whether an endpoint is used for input or output. -/
def useEndpoint (dev : HidHandle) (ep : EndpointDescriptor) : HidHandle :=
  let isInterrupt := ep.bmAttributes &&& 0x03 = 0x03
  let isOutput := ep.bEndpointAddress &&& 0x80 = 0x00
  let isInput := ep.bEndpointAddress &&& 0x80 = 0x80
  let dev :=
    if dev.inputEndpoint = 0 ∧ isInterrupt ∧ isInput then
      { dev with inputEndpoint := ep.bEndpointAddress, inputEpMaxPacketSize := ep.wMaxPacketSize }
    else dev
  if dev.outputEndpoint = 0 ∧ isInterrupt ∧ isOutput then { dev with outputEndpoint := ep.bEndpointAddress } else dev

/-- What is stored of an interface that was claimed. -/
def store (dev : HidHandle) (desc : DeviceDescriptor) (intfDesc : InterfaceDescriptor) : HidHandle :=
  intfDesc.endpoint.foldl useEndpoint
    { dev with
      manufacturerIndex := desc.iManufacturer
      productIndex := desc.iProduct
      serialIndex := desc.iSerialNumber
      interface := intfDesc.bInterfaceNumber }

/-- Claim the interface, and start the read thread. The second value is
whether the loop over the altsettings goes on. -/
def claim (o : Opening) (d : Nat) (desc : DeviceDescriptor) (intfDesc : InterfaceDescriptor) : Opening × Bool :=
  let (res, o) := o.call usb (.claimInterface d intfDesc.bInterfaceNumber)
  if res < 0 then (o.giveUp usb d, false)
  else
    let o := { o with dev := store o.dev desc intfDesc }
    ((o.call usb (.readThread d intfDesc.bInterfaceNumber)).2, true)

/-- Open a device for an interface. -/
def openInterface (o : Opening) (d : Nat) (desc : DeviceDescriptor) (intfDesc : InterfaceDescriptor) :
    Opening × Bool :=
  let (res, o) := o.call usb (.libusbOpen d)
  if res < 0 then (o, false)
  else
    let o := { o with goodOpen := true, dev := { o.dev with deviceHandle := some d } }
    let (active, o) := o.call usb (.kernelDriverActive d intfDesc.bInterfaceNumber)
    if active = 1 then
      let (res, o) := o.call usb (.detachKernelDriver d intfDesc.bInterfaceNumber)
      if res < 0 then (o.giveUp usb d, false) else o.claim usb d desc intfDesc
    else o.claim usb d desc intfDesc

variable (path : String)

/-- Whether an altsetting is the one to open. -/
def IsAt (dev : UsbDevice) (intfDesc : InterfaceDescriptor) : Prop :=
  intfDesc.bInterfaceClass = 3 ∧ makePath dev intfDesc.bInterfaceNumber = path

instance (dev : UsbDevice) (intfDesc : InterfaceDescriptor) : Decidable (IsAt path dev intfDesc) :=
  inferInstanceAs (Decidable (_ ∧ _))

/-- The altsettings of an interface, up to a `break`. -/
def openAltsettings (d : Nat) (dev : UsbDevice) : List InterfaceDescriptor → Opening → Opening
  | [], o => o
  | intfDesc :: altsetting, o =>
    if IsAt path dev intfDesc then
      let (o, goesOn) := o.openInterface usb d dev.desc intfDesc
      if goesOn then openAltsettings d dev altsetting o else o
    else openAltsettings d dev altsetting o

/-- A device at an index. Without an active configuration it is passed over. -/
def openDevice (d : Nat) (dev : UsbDevice) (o : Opening) : Opening :=
  match dev.activeConfig with
  | none => o
  | some confDesc => confDesc.interface.foldl (fun o altsetting => openAltsettings usb path d dev altsetting o) o

def openDevices : Nat → List UsbDevice → Opening → Opening
  | _, [], o => o
  | d, dev :: devs, o => openDevices (d + 1) devs (openDevice usb path d dev o)

end Opening

/-- `hid_open_path`: the device, or `NULL`, and the calls. The list of the
devices is one that `libusb_get_device_list` found. -/
def hidOpenPath (usb : Libusb) (devs : List UsbDevice) (path : String) : Option HidHandle × List (UsbCall × Int) :=
  let o := Opening.openDevices usb path 0 devs .start
  (if o.goodOpen then some o.dev else none, o.calls)

end Linux

end TouchMouse
