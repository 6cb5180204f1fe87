import Mathlib.Data.List.Basic

/-!
# The usage of a device on Linux

`get_bytes` and `get_usage` (`hid-libusb.c:156-256`), which `hid_enumerate` is
built with where `INVASIVE_GET_USAGE` is defined. A read outside of the report
descriptor has no outcome. The descriptor has 256 bytes at most, so `i` does
not overflow.
-/

namespace TouchMouse.Linux

/-- `get_bytes`. -/
def getBytes (rpt : List UInt8) (numBytes cur : Nat) : Option UInt32 :=
  if cur + numBytes ≥ rpt.length then some 0
  else if numBytes = 0 then some 0
  else if numBytes = 1 then rpt[cur + 1]?.map (·.toUInt32)
  else if numBytes = 2 then do
    let b2 ← rpt[cur + 2]?
    let b1 ← rpt[cur + 1]?
    some (b2.toUInt32 * 256 + b1.toUInt32)
  else if numBytes = 4 then do
    let b4 ← rpt[cur + 4]?
    let b3 ← rpt[cur + 3]?
    let b2 ← rpt[cur + 2]?
    let b1 ← rpt[cur + 1]?
    some (b4.toUInt32 * 0x01000000 + b3.toUInt32 * 0x00010000 + b2.toUInt32 * 0x00000100 + b1.toUInt32)
  else some 0

/-- The length of the data of a short item. -/
def shortDataLen (key : UInt8) : Nat :=
  let sizeCode := key &&& 0x3
  if sizeCode = 3 then 4 else sizeCode.toNat

/-- `data_len` and `key_size`. -/
def itemSize (reportDescriptor : List UInt8) (i : Nat) (key : UInt8) : Option (Nat × Nat) :=
  if key &&& 0xf0 = 0xf0 then
    if i + 1 < reportDescriptor.length then reportDescriptor[i + 1]?.map fun b => (b.toNat, 3) else some (0, 3)
  else some (shortDataLen key, 1)

/-- What was found, `*usage_page` and `*usage` first. -/
structure Usage where
  usagePage : UInt16
  usage : UInt16
  usagePageFound : Bool
  usageFound : Bool
  deriving DecidableEq

/-- A turn of the loop at an item, with its size and what was found then. -/
def readItem (reportDescriptor : List UInt8) (i : Nat) (u : Usage) : Option (Nat × Usage) := do
  let key ← reportDescriptor[i]?
  let (dataLen, keySize) ← itemSize reportDescriptor i key
  let keyCmp := key &&& 0xfc
  let u ← if keyCmp = 0x4 then
      (getBytes reportDescriptor dataLen i).map fun b => { u with usagePage := b.toUInt16, usagePageFound := true }
    else some u
  let u ← if keyCmp = 0x8 then
      (getBytes reportDescriptor dataLen i).map fun b => { u with usage := b.toUInt16, usageFound := true }
    else some u
  some (dataLen + keySize, u)

/-- Each turn takes one byte at least. -/
def getUsageLoop (reportDescriptor : List UInt8) : Nat → Nat → Usage → Option (Int × Usage)
  | 0, _, _ => none
  | n + 1, i, u =>
    if i < reportDescriptor.length then do
      let (size, u) ← readItem reportDescriptor i u
      if u.usagePageFound && u.usageFound then some (0, u) else getUsageLoop reportDescriptor n (i + size) u
    else some (-1, u)

/-- `get_usage`, of the caller's `page` and `usage`. -/
def getUsage (reportDescriptor : List UInt8) : Option (Int × Usage) :=
  getUsageLoop reportDescriptor (reportDescriptor.length + 1) 0 ⟨0, 0, false, false⟩

end TouchMouse.Linux
