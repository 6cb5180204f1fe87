import TouchMouse.Model.Enumerate

/-!
# The example programs

How the two programs of `examples/` pick the device that they open
(`consoledemo.c:27-62`, `mousepoller.cpp:6-36`). Each enumerates, counts the
list, opens one device of it and frees it; what `touchmouse_open` reads of its
argument is `openedRecord`.
-/

namespace TouchMouse
open Memory

/-- `while (d)`, with the number of devices found. -/
def countLoop : Nat → (d devsFound : Nat) → Prog Block Nat
  | 0, _, _ => Prog.fault
  | n + 1, d, devsFound =>
    if d = 0 then pure devsFound
    else do
      let (next, _) ← Prog.read Block.touchmouseDeviceInfo? d
      countLoop n next (devsFound + 1)

/-- `d = d->next`, some times. -/
def nextLoop : Nat → (d : Nat) → Prog Block Nat
  | 0, d => pure d
  | i + 1, d => do
    let (next, _) ← Prog.read Block.touchmouseDeviceInfo? d
    nextLoop i next

/-- `main` of the console demo, up to the device it opens. -/
def consoleDemo (platform : HidPlatform) (infos : List HidDeviceInfo) : Prog Block (Option HidDeviceInfo) := do
  let devs ← touchmouseEnumerateDevices platform infos
  let n ← Prog.addresses
  let devsFound ← countLoop n devs 0
  if devsFound = 0 then pure none
  else do
    let opened ← openedRecord devs
    touchmouseFreeEnumeration devs
    pure (some opened)

/-- The constructor `MousePoller`, up to the device it opens. -/
def mousePoller (platform : HidPlatform) (infos : List HidDeviceInfo) (index : Int) :
    Prog Block (Option HidDeviceInfo) := do
  let devs ← touchmouseEnumerateDevices platform infos
  let n ← Prog.addresses
  let devsFound ← countLoop n devs 0
  if (devsFound : Int) < index then do
    touchmouseFreeEnumeration devs
    pure none
  else do
    let d ← nextLoop index.toNat devs
    let opened ← openedRecord d
    touchmouseFreeEnumeration devs
    pure (some opened)

end TouchMouse
