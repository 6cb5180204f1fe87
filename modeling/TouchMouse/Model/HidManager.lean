import TouchMouse.Codec.Numeral
import TouchMouse.Model.Enumerate

/-!
# Finding and opening a device on the Mac

`make_path`, `hid_enumerate` and `hid_open_path` over the devices of the HID
manager (`mac/hid.c:346-370`, `407-494`, `694-761`). The strings of the
records other than the path are left out. A byte of text is a `Char` here. A
path has 60 characters at most, and the buffer for it has 256.
-/

namespace TouchMouse.Mac

/-- A device of the HID manager with its properties. `%p` prints `ref`. -/
structure OsDevice where
  ref : UInt64
  vendorId : UInt16
  productId : UInt16
  primaryUsagePage : UInt16
  primaryUsage : UInt16
  deriving DecidableEq

/-- What `get_string_property_utf8` makes of the transport of a device: `none`
where it returns 0, else the string in the array `transport`. It asks for 32
characters and writes no NUL after those it gets, and the array is not cleared
before, so the string may end in other bytes at each call. -/
abbrev Transport := Option (List Char)

/-- `"_%04hx_%04hx_%p"`. -/
def pathEnd (d : OsDevice) : List Char :=
  '_' :: (Numeral.write 16 Nat.digitChar 4 d.vendorId.toNat ++
    '_' :: (Numeral.write 16 Nat.digitChar 4 d.productId.toNat ++ '_' :: '0' :: 'x' :: Nat.toDigits 16 d.ref.toNat))

/-- `make_path`, the buffer. -/
def makePath (d : OsDevice) : Transport → List Char
  | none => []
  | some transport => transport ++ pathEnd d

def record (d : OsDevice) (transport : Transport) : HidDeviceInfo where
  path := .ofList (makePath d transport)
  usagePage := d.primaryUsagePage
  usage := d.primaryUsage
  interfaceNumber := -1

def matchesIds (vendorId productId : UInt16) (d : OsDevice) : Bool :=
  (vendorId = 0 ∧ productId = 0) ∨ (vendorId = d.vendorId ∧ productId = d.productId)

/-- `hid_enumerate`, over the devices with what comes of their transports. -/
def hidEnumerate (vendorId productId : UInt16) : List (OsDevice × Transport) → List HidDeviceInfo
  | [] => []
  | (d, transport) :: deviceArray =>
    if matchesIds vendorId productId d then record d transport :: hidEnumerate vendorId productId deviceArray
    else hidEnumerate vendorId productId deviceArray

/-- `hid_open_path`, up to the device it opens. `opens` says for which devices
`IOHIDDeviceOpen` succeeds. -/
def hidOpenPath (opens : OsDevice → Bool) (path : String) : List (OsDevice × Transport) → Option OsDevice
  | [] => none
  | (d, transport) :: deviceArray =>
    if makePath d transport = path.toList then if opens d then some d else none
    else hidOpenPath opens path deviceArray

end TouchMouse.Mac
