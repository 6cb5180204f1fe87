import TouchMouse.Codec.CString
import TouchMouse.Model.Enumerate

/-!
# Enumeration on Windows

`hid_enumerate` of `windows/hid.c:264-467` over the interfaces that SetupAPI
lists. The strings of the records are left out. Windows does not tell the
number of an interface; it is read out of the path, where a device with more
than one interface has it.
-/

namespace TouchMouse.Windows

/-- An interface of the HID class: whether the details with its path are
there, whether `open_device` opens it, its attributes, and of its capabilities
the usage page and the usage. -/
structure DeviceInterface where
  devicePath : String
  detail : Bool
  handle : Bool
  vendorID : UInt16
  productID : UInt16
  caps : Option (UInt16 × UInt16)

/-- `"&mi_"`. -/
def marker : List Char := ['&', 'm', 'i', '_']

/-- The number in a path, or -1. A `long` has 32 bits. -/
def interfaceNumber (path : List Char) : Int :=
  match CString.strstr marker path with
  | none => -1
  | some interfaceComponent =>
    match CString.strtol 32 (interfaceComponent.drop 4) with
    | none => -1
    | some (n, _) => n

def record (i : DeviceInterface) : HidDeviceInfo where
  path := i.devicePath
  usagePage := (i.caps.map Prod.fst).getD 0
  usage := (i.caps.map Prod.snd).getD 0
  interfaceNumber := .ofInt (interfaceNumber i.devicePath.toList)

def matchesIds (vendorId productId : UInt16) (i : DeviceInterface) : Bool :=
  (vendorId = 0 ∧ productId = 0) ∨ (i.vendorID = vendorId ∧ i.productID = productId)

def hidEnumerate (vendorId productId : UInt16) : List DeviceInterface → List HidDeviceInfo
  | [] => []
  | i :: interfaces =>
    if !i.detail then hidEnumerate vendorId productId interfaces
    else if !i.handle then hidEnumerate vendorId productId interfaces
    else if matchesIds vendorId productId i then record i :: hidEnumerate vendorId productId interfaces
    else hidEnumerate vendorId productId interfaces

end TouchMouse.Windows
