import TouchMouse.Memory.Triple

/-!
# Enumeration

`touchmouse_enumerate_devices` and `touchmouse_free_enumeration`
(`touchmouse.c:208-277`) on a heap, with the list functions of HIDAPI that
they call (`hid-libusb.c`; the other back ends build and free their lists in
the same way). Where a loop follows pointers, the number of addresses bounds
its turns: a list visits no block twice, and a cyclic one would not end.
-/

namespace TouchMouse
open Memory

/-- `struct hid_device_info` without its pointer, and of its strings the path.
The strings are the entry's own and are released with it. -/
structure HidDeviceInfo where
  path : String
  usagePage : UInt16
  usage : UInt16
  interfaceNumber : Int32
  deriving DecidableEq

/-- The blocks of an enumeration, with their pointers. -/
inductive Block where
  | hidDeviceInfo (info : HidDeviceInfo) (next : Nat)
  | touchmouseDeviceInfo (next opaqueHandle : Nat)
  /-- what the opaque handle of a node points to, `pair[0]` and `pair[1]` -/
  | hidPair (curDev devs : Nat)
  deriving DecidableEq

namespace Block

def hidDeviceInfo? : Block → Option (HidDeviceInfo × Nat)
  | hidDeviceInfo info next => some (info, next)
  | _ => none

def touchmouseDeviceInfo? : Block → Option (Nat × Nat)
  | touchmouseDeviceInfo next opaqueHandle => some (next, opaqueHandle)
  | _ => none

def hidPair? : Block → Option (Nat × Nat)
  | hidPair curDev devs => some (curDev, devs)
  | _ => none

def setHidNext (next : Nat) : Block → Option Block
  | hidDeviceInfo info _ => some (hidDeviceInfo info next)
  | _ => none

def setNext (next : Nat) : Block → Option Block
  | touchmouseDeviceInfo _ opaqueHandle => some (touchmouseDeviceInfo next opaqueHandle)
  | _ => none

def setOpaqueHandle (opaqueHandle : Nat) : Block → Option Block
  | touchmouseDeviceInfo next _ => some (touchmouseDeviceInfo next opaqueHandle)
  | _ => none

def setHidPair (curDev devs : Nat) : Block → Option Block
  | hidPair _ _ => some (hidPair curDev devs)
  | _ => none

end Block

/-! ## HIDAPI -/

/-- Append the records of some interfaces to a list, from its root and its
last record. -/
def hidEnumerateLoop : List HidDeviceInfo → (root curDev : Nat) → Prog Block Nat
  | [], root, _ => pure root
  | info :: infos, root, curDev => do
    let tmp ← Prog.alloc (.hidDeviceInfo info 0)
    if curDev ≠ 0 then
      Prog.modify (Block.setHidNext tmp) curDev
      hidEnumerateLoop infos root tmp
    else hidEnumerateLoop infos tmp tmp

/-- `hid_enumerate`, when it finds these interfaces. -/
def hidEnumerate (infos : List HidDeviceInfo) : Prog Block Nat := hidEnumerateLoop infos 0 0

def hidFreeLoop : Nat → Nat → Prog Block Unit
  | 0, _ => Prog.fault
  | n + 1, d =>
    if d = 0 then pure ()
    else do
      let (_, next) ← Prog.read Block.hidDeviceInfo? d
      Prog.free d
      hidFreeLoop n next

/-- `hid_free_enumeration`. -/
def hidFreeEnumeration (devs : Nat) : Prog Block Unit := do
  let n ← Prog.addresses
  hidFreeLoop n devs

/-! ## The library -/

/-- The two ways to tell a TouchMouse, by `__APPLE__`. -/
inductive HidPlatform where
  | apple
  | other

def HidPlatform.isTouchMouse (platform : HidPlatform) (info : HidDeviceInfo) : Bool :=
  match platform with
  | .apple => info.usagePage == 0x0c && info.usage == 0x01
  | .other => info.interfaceNumber == 2

/-- What `prev_next_pointer` points at: the variable `retval`, or the field
`next` of a node. -/
inductive NextPointer where
  | retval
  | next (node : Nat)

/-- `*prev_next_pointer = node`, with the value of `retval` after it. -/
def NextPointer.store (prevNextPointer : NextPointer) (node retval : Nat) : Prog Block Nat :=
  match prevNextPointer with
  | .retval => pure node
  | .next prev => do
    Prog.modify (Block.setNext node) prev
    pure retval

/-- The body of the loop for a TouchMouse: a zeroed node where
`prev_next_pointer` points, and its pair. -/
def addDevice (devs curDev retval : Nat) (prevNextPointer : NextPointer) : Prog Block (Nat × NextPointer) := do
  let node ← Prog.alloc (.touchmouseDeviceInfo 0 0)
  let retval ← prevNextPointer.store node retval
  let pair ← Prog.alloc (.hidPair 0 0)
  Prog.modify (Block.setOpaqueHandle pair) node
  Prog.modify (Block.setHidPair curDev devs) pair
  pure (retval, .next node)

def enumerateLoop (platform : HidPlatform) (devs : Nat) :
    Nat → (curDev retval : Nat) → NextPointer → Prog Block Nat
  | 0, _, _, _ => Prog.fault
  | n + 1, curDev, retval, prevNextPointer =>
    if curDev = 0 then pure retval
    else do
      let (info, _) ← Prog.read Block.hidDeviceInfo? curDev
      let (retval, prevNextPointer) ←
        if platform.isTouchMouse info then addDevice devs curDev retval prevNextPointer
        else pure (retval, prevNextPointer)
      let (_, next) ← Prog.read Block.hidDeviceInfo? curDev
      enumerateLoop platform devs n next retval prevNextPointer

/-- `touchmouse_enumerate_devices`, when `hid_enumerate` finds these
interfaces. -/
def touchmouseEnumerateDevices (platform : HidPlatform) (infos : List HidDeviceInfo) : Prog Block Nat := do
  let devs ← hidEnumerate infos
  let n ← Prog.addresses
  let retval ← enumerateLoop platform devs n devs 0 .retval
  if retval = 0 then hidFreeEnumeration devs
  pure retval

def freeLoop : Nat → Nat → Prog Block Unit
  | 0, _ => Prog.fault
  | n + 1, devs =>
    if devs = 0 then pure ()
    else do
      let prev := devs
      let (devs, _) ← Prog.read Block.touchmouseDeviceInfo? devs
      let (_, pair) ← Prog.read Block.touchmouseDeviceInfo? prev
      Prog.free pair
      Prog.free prev
      freeLoop n devs

/-- `touchmouse_free_enumeration`. -/
def touchmouseFreeEnumeration (devs : Nat) : Prog Block Unit := do
  if devs ≠ 0 then
    let (_, pair) ← Prog.read Block.touchmouseDeviceInfo? devs
    let (_, hidDevs) ← Prog.read Block.hidPair? pair
    hidFreeEnumeration hidDevs
  let n ← Prog.addresses
  freeLoop n devs

/-- The record whose path `touchmouse_open` opens, `pair[0]`. -/
def openedRecord (devInfo : Nat) : Prog Block HidDeviceInfo := do
  let (_, pair) ← Prog.read Block.touchmouseDeviceInfo? devInfo
  let (curDev, _) ← Prog.read Block.hidPair? pair
  let (info, _) ← Prog.read Block.hidDeviceInfo? curDev
  pure info

/-! ## A client -/

/-- A walk along a list of devices, with the record of each. -/
def walk : Nat → Nat → Prog Block (List HidDeviceInfo)
  | 0, _ => Prog.fault
  | n + 1, devInfo =>
    if devInfo = 0 then pure []
    else do
      let info ← openedRecord devInfo
      let (next, _) ← Prog.read Block.touchmouseDeviceInfo? devInfo
      let infos ← walk n next
      pure (info :: infos)

/-- The records of a list of devices. -/
def listedRecords (devInfo : Nat) : Prog Block (List HidDeviceInfo) := do
  let n ← Prog.addresses
  walk n devInfo

/-- A list the client holds, with the interfaces it was made from. -/
structure HeldList where
  head : Nat
  infos : List HidDeviceInfo

/-- The heap, and the lists that were returned and not yet freed. -/
structure Client where
  heap : Heap Block
  held : List HeldList

/-- A client enumerates, or frees one of the lists it holds by its head. -/
inductive ClientOp where
  | enumerate (infos : List HidDeviceInfo)
  | free (i : Nat)

def Client.start : Client := ⟨.empty, []⟩

/-- One operation; `none` is a fault. Without a list at the index there is
nothing to free. -/
def Client.exec (platform : HidPlatform) (c : Client) : ClientOp → Option Client
  | .enumerate infos =>
    (touchmouseEnumerateDevices platform infos c.heap).map fun r => ⟨r.2, c.held ++ [⟨r.1, infos⟩]⟩
  | .free i =>
    match c.held[i]? with
    | none => some c
    | some l => (touchmouseFreeEnumeration l.head c.heap).map fun r => ⟨r.2, c.held.eraseIdx i⟩

def Client.run (platform : HidPlatform) : List ClientOp → Client → Option Client
  | [], c => some c
  | op :: ops, c => (c.exec platform op).bind (run platform ops)

end TouchMouse
