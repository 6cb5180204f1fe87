import TouchMouse.Model.ProcessNybble

/-!
# `touchmouse_process_events_timeout`

One call of the event loop (`touchmouse.c:359-446`), and runs of calls. The
environment is explicit: what `hid_read_timeout` will deliver, in order; the
readings of `mono_timer_nanos` each call will make; and what the function
behind each callback address does, which may be to call the library again.
A call records everything it does as a list of `Event`s. When nothing is left
to deliver the call has not returned: it waits in `hid_read_timeout`. What a
timestamp does to the device is a parameter, which the program has as
`matchTimestamp`.
-/

namespace TouchMouse

/-- What a call does, in order. -/
inductive Event where
  /-- a reading of `mono_timer_nanos` -/
  | clock (nanos : UInt64)
  /-- `hid_read_timeout` is called with this timeout -/
  | hidRead (milliseconds : Int32)
  /-- and returns -/
  | received (r : ReadResult)
  /-- the dump of a touch report: its timestamp and the bytes read as its data -/
  | report (timestamp : UInt8) (data : List UInt8)
  /-- `process_nybble` is called in the state `entry` -/
  | processNybble (entry : Device) (nybble : UInt8)
  | access (a : Access)
  /-- the callback at `cb` is invoked -/
  | callback (cb : Addr) (info : CallbackInfo)
  /-- "Caught error in decoder, aborting decode!", at a report with this timestamp -/
  | decodeError (timestamp : UInt8)
  /-- the call returns -/
  | returned (code : Int)
  deriving DecidableEq

/-- A device and what its `hid_read_timeout` has yet to deliver. -/
structure Env where
  dev : Device
  reads : List ReadResult

/-- What was left when something stopped, what it had done, and whether it
came to its end: a callback or a program that waits in a call has not. -/
structure Ran where
  env : Env
  events : List Event
  returned : Bool

/-- What the function at an address does when it is called back. -/
abbrev Callbacks := Addr → CallbackInfo → Env → Ran

/-- Callbacks that do not call back into the library for this device: they
have no way to change the device or to take its reports. -/
def passive : Callbacks := fun _ _ env => ⟨env, [], true⟩

/-- The readings of the clock that a call will make, the first at index 0. -/
abbrev Clock := Nat → UInt64

/-! ## One report -/

/-- Where a loop over nybbles stopped: the state, the last return code of
`process_nybble`, and what happened. -/
structure Decoding where
  dev : Device
  res : DecoderState
  events : List Event

/-- One call of `process_nybble` from the loop, on a nybble of `r->data[t]`. -/
def decodeNybble (dev : Device) (t : Nat) (nybble : UInt8) : Decoding :=
  let r := processNybble dev nybble
  ⟨r.dev, r.res, .access (.data t) :: .processNybble dev nybble :: r.accesses.map .access⟩

/-- One turn of the decode loop: the low nybble, and the high one unless the
low one completed the frame or was an error. -/
def decodeByte (data : Buffer) (t : Nat) (dev : Device) : Decoding :=
  let low := decodeNybble dev t (data.data t &&& 0xf)
  match low.res with
  | .complete | .error => low
  | _ =>
    let high := decodeNybble low.dev t ((data.data t &&& 0xf0) >>> 4)
    { high with events := low.events ++ high.events }

/-- The decode loop from index `t`, with `n` turns to go. It is left when a
frame is complete or in error. -/
def decodeLoop (data : Buffer) : Nat → Nat → Device → Decoding
  | _, 0, dev => ⟨dev, .inProgress, []⟩
  | t, n + 1, dev =>
    let byte := decodeByte data t dev
    match byte.res with
    | .complete | .error => byte
    | _ =>
      let rest := decodeLoop data (t + 1) n byte.dev
      { rest with events := byte.events ++ rest.events }

/-- The bound of both loops over `r->data`: `r->length - 1` in `int`, so no
turns for the length 0. -/
def Buffer.dataLength (data : Buffer) : Nat := data.length.toNat - 1

/-- The dump loop: it reads every data byte. -/
def dumpReport (data : Buffer) : List Event :=
  (List.range data.dataLength).map (fun t => .access (.data t)) ++
    [.report data.timestamp ((List.range data.dataLength).map data.data)]

/-- What the timestamp of a report does to the device, before its data is
decoded. -/
abbrev Matching := Device → UInt8 → Device

/-- The reset on a timestamp that does not match, and the new timestamp. -/
def matchTimestamp : Matching := fun dev timestamp =>
  { (if dev.bufIndex ≠ 0 ∧ timestamp ≠ dev.timestampInProgress then resetDecoder dev else dev) with
    timestampInProgress := timestamp }

/-- A touch report, up to the exits from its decode loop. -/
def Matching.interpretReport (m : Matching) (dev : Device) (data : Buffer) : Decoding :=
  let d := decodeLoop data 0 data.dataLength (m dev data.timestamp)
  { d with events := dumpReport data ++ d.events }

def interpretReport (dev : Device) (data : Buffer) : Decoding := matchTimestamp.interpretReport dev data

/-- What the loop does with a read that did not fail: dump it, and interpret
it if it is 32 bytes long and has report id 0x27. -/
def Matching.interpretTransfer (m : Matching) (dev : Device) (data : Buffer) (res : Int) : Decoding :=
  let dump := (List.range res.toNat).map fun j => .access (.transfer j)
  if res = 32 ∧ data.reportId = 0x27 then
    let d := m.interpretReport dev data
    { d with events := dump ++ d.events }
  else ⟨dev, .inProgress, dump⟩

def interpretTransfer (dev : Device) (data : Buffer) (res : Int) : Decoding := matchTimestamp.interpretTransfer dev data res

/-! ## The loop -/

/-- How a call ends, and what it did. `ret` is `none` while the call waits in
`hid_read_timeout`, its own or one of its callback. -/
structure CallResult where
  ret : Option Int
  env : Env
  events : List Event

/-- `(deadline - nanos) / 1000000` as the `int` that `hid_read_timeout` takes. -/
def remaining (deadline nanos : UInt64) : Int32 := ((deadline - nanos) / 1000000).toUInt32.toInt32

/-- A completed frame: record its timestamp, invoke the callback, reset. If
the callback does not return, neither does the call. -/
def completeFrame (cbs : Callbacks) (dev : Device) (timestamp : UInt8) (reads : List ReadResult) : CallResult :=
  let dev := { dev with timestampLastCompleted := timestamp }
  let cbinfo : CallbackInfo := ⟨dev.userdata, dev.image, dev.timestampLastCompleted⟩
  let called := cbs dev.cb cbinfo ⟨dev, reads⟩
  let events := .callback dev.cb cbinfo :: called.events
  if called.returned then ⟨some 0, { called.env with dev := resetDecoder called.env.dev }, events⟩
  else ⟨none, called.env, events⟩

theorem completeFrame_events (cbs : Callbacks) (dev : Device) (timestamp : UInt8) (reads : List ReadResult) :
    (completeFrame cbs dev timestamp reads).events =
      .callback dev.cb ⟨dev.userdata, dev.image, timestamp⟩ ::
        (cbs dev.cb ⟨dev.userdata, dev.image, timestamp⟩ ⟨{ dev with timestampLastCompleted := timestamp }, reads⟩).events := by
  simp only [completeFrame]
  split <;> rfl

/-- One turn of the `do` loop, which reads `r`. At its end `reading` is on the
clock, and `again` are the turns after it. -/
def loopTurn (interpret : Device → Buffer → Int → Decoding) (cbs : Callbacks) (deadline nanos reading : UInt64) (data : Buffer)
    (dev : Device) (r : ReadResult) (reads : List ReadResult) (again : Buffer → Device → CallResult) : CallResult :=
  let before := [.hidRead (remaining deadline nanos), .received r]
  if r.res < 0 then ⟨some (-2), ⟨dev, reads⟩, before⟩
  else
    let data := data.receive r.bytes
    let d := interpret dev data r.res
    match d.res with
    | .complete =>
      let done := completeFrame cbs d.dev data.timestamp reads
      { done with events := before ++ d.events ++ done.events }
    | .error => ⟨some (-1), ⟨resetDecoder d.dev, reads⟩, before ++ d.events ++ [.decodeError data.timestamp]⟩
    | _ =>
      if reading < deadline then
        let rest := again data d.dev
        { rest with events := before ++ d.events ++ .clock reading :: rest.events }
      else ⟨some 0, ⟨d.dev, reads⟩, before ++ d.events ++ [.clock reading]⟩

/-- The deadline of a call with a timeout of at least 0. The product is an
`int`: when it overflows, the value here is the wrapped one. -/
def finiteDeadline (milliseconds : Int32) (nanos : UInt64) : UInt64 :=
  nanos + (milliseconds * 1000000).toInt64.toUInt64

/-- What a program does with an open device. -/
inductive Op where
  | setImageUpdateCallback (callback : Addr)
  | setDeviceUserdata (userdata : Addr)
  | processEventsTimeout (milliseconds : Int32) (clock : Clock)

namespace Matching

variable (m : Matching)

/-- The `do` loop, about to read with `nanos` on the clock. The readings to
come start at index 0 of the clock. -/
def eventLoop (cbs : Callbacks) (deadline : UInt64) :
    UInt64 → Clock → Buffer → Device → List ReadResult → CallResult
  | nanos, _, _, dev, [] => ⟨none, ⟨dev, []⟩, [.hidRead (remaining deadline nanos)]⟩
  | nanos, clock, data, dev, r :: reads =>
    loopTurn m.interpretTransfer cbs deadline nanos (clock 0) data dev r reads fun data dev =>
      eventLoop cbs deadline (clock 0) (fun i => clock (i + 1)) data dev reads

/-- The clock check, and the loop with its zeroed buffer. -/
def enterLoop (cbs : Callbacks) (deadline nanos : UInt64) (clock : Clock) (env : Env) : CallResult :=
  if nanos = 0 ∨ deadline = 0 then ⟨some (-1), env, []⟩
  else m.eventLoop cbs deadline nanos clock .zero env.dev env.reads

/-- `touchmouse_process_events_timeout`, with its matching as a parameter. -/
def processEventsTimeout (cbs : Callbacks) (milliseconds : Int32) (clock : Clock) (env : Env) : CallResult :=
  if milliseconds < 0 then
    let r := m.enterLoop cbs (-1) (clock 0) (fun i => clock (i + 1)) env
    { r with events := .clock (clock 0) :: r.events }
  else
    let r := m.enterLoop cbs (finiteDeadline milliseconds (clock 0)) (clock 1) (fun i => clock (i + 2)) env
    { r with events := .clock (clock 0) :: .clock (clock 1) :: r.events }

/-- One operation. -/
def exec (cbs : Callbacks) (env : Env) : Op → CallResult
  | .setImageUpdateCallback callback =>
    ⟨some 0, { env with dev := touchmouseSetImageUpdateCallback env.dev callback }, []⟩
  | .setDeviceUserdata userdata => ⟨some 0, { env with dev := touchmouseSetDeviceUserdata env.dev userdata }, []⟩
  | .processEventsTimeout milliseconds clock => m.processEventsTimeout cbs milliseconds clock env

/-- Operations one after the other; a call that does not return is the last. -/
def run (cbs : Callbacks) : List Op → Env → Ran
  | [], env => ⟨env, [], true⟩
  | op :: ops, env =>
    let r := m.exec cbs env op
    match r.ret with
    | none => ⟨r.env, r.events, false⟩
    | some code =>
      let rest := run cbs ops r.env
      { rest with events := r.events ++ .returned code :: rest.events }

end Matching

/-! ## The program -/

section

variable (cbs : Callbacks)

def eventLoop (deadline nanos : UInt64) (clock : Clock) (data : Buffer) (dev : Device) (reads : List ReadResult) : CallResult :=
  matchTimestamp.eventLoop cbs deadline nanos clock data dev reads

theorem eventLoop_nil (deadline nanos : UInt64) (clock : Clock) (data : Buffer) (dev : Device) :
    eventLoop cbs deadline nanos clock data dev [] = ⟨none, ⟨dev, []⟩, [.hidRead (remaining deadline nanos)]⟩ := rfl

theorem eventLoop_cons (deadline nanos : UInt64) (clock : Clock) (data : Buffer) (dev : Device) (r : ReadResult)
    (reads : List ReadResult) :
    eventLoop cbs deadline nanos clock data dev (r :: reads) =
      loopTurn interpretTransfer cbs deadline nanos (clock 0) data dev r reads fun data dev =>
        eventLoop cbs deadline (clock 0) (fun i => clock (i + 1)) data dev reads := rfl

def enterLoop (deadline nanos : UInt64) (clock : Clock) (env : Env) : CallResult :=
  matchTimestamp.enterLoop cbs deadline nanos clock env

theorem enterLoop_eq (deadline nanos : UInt64) (clock : Clock) (env : Env) :
    enterLoop cbs deadline nanos clock env =
      if nanos = 0 ∨ deadline = 0 then ⟨some (-1), env, []⟩
      else eventLoop cbs deadline nanos clock .zero env.dev env.reads := rfl

/-- `touchmouse_process_events_timeout`. -/
def touchmouseProcessEventsTimeout (milliseconds : Int32) (clock : Clock) (env : Env) : CallResult :=
  matchTimestamp.processEventsTimeout cbs milliseconds clock env

theorem touchmouseProcessEventsTimeout_eq (milliseconds : Int32) (clock : Clock) (env : Env) :
    touchmouseProcessEventsTimeout cbs milliseconds clock env =
      if milliseconds < 0 then
        let r := enterLoop cbs (-1) (clock 0) (fun i => clock (i + 1)) env
        { r with events := .clock (clock 0) :: r.events }
      else
        let r := enterLoop cbs (finiteDeadline milliseconds (clock 0)) (clock 1) (fun i => clock (i + 2)) env
        { r with events := .clock (clock 0) :: .clock (clock 1) :: r.events } := rfl

def Op.exec (env : Env) (op : Op) : CallResult := matchTimestamp.exec cbs env op

theorem Op.exec_processEventsTimeout (milliseconds : Int32) (clock : Clock) (env : Env) :
    (Op.processEventsTimeout milliseconds clock).exec cbs env =
      touchmouseProcessEventsTimeout cbs milliseconds clock env := rfl

def run (ops : List Op) (env : Env) : Ran := matchTimestamp.run cbs ops env

theorem run_cons (op : Op) (ops : List Op) (env : Env) :
    run cbs (op :: ops) env =
      let r := op.exec cbs env
      match r.ret with
      | none => ⟨r.env, r.events, false⟩
      | some code =>
        let rest := run cbs ops r.env
        { rest with events := r.events ++ .returned code :: rest.events } := rfl

end

/-- A device state that some run from `touchmouse_open` ends in, with
callbacks that leave the device alone. -/
def Reachable (dev : Device) : Prop :=
  ∃ handle opened ops reads, touchmouseOpen handle = some opened ∧ (run passive ops ⟨opened, reads⟩).1.dev = dev

end TouchMouse
