import TouchMouse.Concurrency.Run
import TouchMouse.Concurrency.Threads

/-!
# Reading reports through HIDAPI

The read thread of a HIDAPI device and the callers of `hid_read_timeout`, on
Linux (`hid-libusb.c`) and on the Mac (`mac/hid.c`). The list of input reports
is only touched under the mutex of the device. What a caller does under it up
to where it waits or returns is one step here (`Section`), and so is what the
thread does with a report. The flags that stop the thread are written without
the mutex. They are never cleared, so a write of one between its test and the
end of the section does what it does after it.
-/

namespace TouchMouse

/-- `struct input_report`, by its bytes. -/
abbrev Report := List UInt8

/-- What `struct hid_device_` holds for reading. Linux has no flag
`disconnected` of its own. Reports come while `receiving`: the transfer is
submitted, or the report callback registered. -/
structure HidDevice where
  inputReports : List Report
  shutdownThread : Bool
  disconnected : Bool
  receiving : Bool
  deriving DecidableEq

/-- The arguments of `hid_read_timeout`, less its buffer. -/
structure HidRead where
  length : Nat
  milliseconds : Int32
  deriving DecidableEq

/-- What `pthread_cond_wait` and `pthread_cond_timedwait` return: 0,
`ETIMEDOUT`, or another code. -/
inductive WaitResult where
  | ok
  | timedOut
  | error
  deriving DecidableEq

/-- How a stretch of `hid_read_timeout` under the mutex ends. -/
inductive Section where
  /-- it returns what `return_data` copied -/
  | returnsData (bytesRead : Nat) (data : List UInt8) (dev : HidDevice)
  /-- it returns a code -/
  | returns (bytesRead : Int)
  /-- it waits on the condition -/
  | waits
  deriving DecidableEq

namespace HidDevice

/-- `return_data`, on a list that starts with `rpt`. -/
def returnData (dev : HidDevice) (rpt : Report) (next : List Report) (length : Nat) : Section :=
  let len := if length < rpt.length then length else rpt.length
  .returnsData len (rpt.take len) { dev with inputReports := next }

end HidDevice

/-- What `read_callback` and `hid_report_callback` do with a new report under
the mutex: it goes to the end of the list, and the oldest is popped off if
more than 30 stood before the last one. -/
def attachReport (inputReports : List Report) (rpt : Report) : List Report × Option Report :=
  match inputReports with
  | [] => ([rpt], none)
  | oldest :: rest =>
    let numQueued := rest.length
    if numQueued > 30 then (rest ++ [rpt], some oldest) else (oldest :: rest ++ [rpt], none)

/-- What the two back ends do differently. -/
structure Backend where
  /-- `hid_read_timeout` from its start -/
  enter : HidDevice → HidRead → Section
  /-- and from where a wait returned -/
  resume : HidDevice → HidRead → WaitResult → Section
  /-- whether the condition is signalled for a report that finds this list -/
  signals : List Report → Bool
  /-- whether a flag tells a caller that the thread stops -/
  stopped : HidDevice → Bool
  /-- the writes of the flags, and of what makes reports come -/
  flag : HidDevice → HidDevice → Prop
  /-- whether the thread may leave its loop -/
  leaves : HidDevice → Prop

/-! ## Linux -/

namespace Linux

/-- The loop of a blocking read, from its test, and what follows it. -/
def blockingLoop (dev : HidDevice) (length : Nat) : Section :=
  match dev.inputReports with
  | rpt :: next => dev.returnData rpt next length
  | [] => if dev.shutdownThread then .returns (-1) else .waits

/-- The loop of a read with a timeout, from its test. Where the test fails
`bytes_read` is still -1. -/
def timedLoop (dev : HidDevice) : Section :=
  if dev.inputReports = [] ∧ dev.shutdownThread = false then .waits else .returns (-1)

def enter (dev : HidDevice) (read : HidRead) : Section :=
  match dev.inputReports with
  | rpt :: next => dev.returnData rpt next read.length
  | [] =>
    if dev.shutdownThread then .returns (-1)
    else if read.milliseconds = -1 then blockingLoop dev read.length
    else if 0 < read.milliseconds then timedLoop dev
    else .returns 0

def resume (dev : HidDevice) (read : HidRead) (res : WaitResult) : Section :=
  -- a blocking read does not look at what its wait returned
  if read.milliseconds = -1 then blockingLoop dev read.length
  else
    match res with
    | .ok =>
      match dev.inputReports with
      | rpt :: next => dev.returnData rpt next read.length
      | [] => timedLoop dev
    | .timedOut => .returns 0
    | .error => .returns (-1)

/-- `read_callback` on a cancelled transfer or a device that is gone, which is
not submitted again, or that it fails to submit again, and `hid_close`. -/
inductive Flag (dev : HidDevice) : HidDevice → Prop where
  | cancelled (receiving : dev.receiving = true) : Flag dev { dev with shutdownThread := true, receiving := false }
  | notSubmitted (receiving : dev.receiving = true) : Flag dev { dev with receiving := false }
  | close : Flag dev { dev with shutdownThread := true }

/-- A report is signalled if it is the only one. The thread leaves its loop by
its flag, or when `libusb_handle_events` fails. -/
def backend : Backend where
  enter := enter
  resume := resume
  signals inputReports := inputReports.isEmpty
  stopped dev := dev.shutdownThread
  flag := Flag
  leaves _ := True

end Linux

/-! ## Mac -/

namespace Mac

/-- `cond_wait` and `cond_timedwait`, from their test, and `return_data`. -/
def condWait (dev : HidDevice) (length : Nat) : Section :=
  match dev.inputReports with
  | rpt :: next => dev.returnData rpt next length
  | [] => .waits

def enter (dev : HidDevice) (read : HidRead) : Section :=
  match dev.inputReports with
  | rpt :: next => dev.returnData rpt next read.length
  | [] =>
    if dev.disconnected then .returns (-1)
    else if dev.shutdownThread then .returns (-1)
    else if read.milliseconds = -1 then condWait dev read.length
    else if 0 < read.milliseconds then condWait dev read.length
    else .returns 0

def resume (dev : HidDevice) (read : HidRead) (res : WaitResult) : Section :=
  match res with
  | .ok =>
    -- the flags come first: a report that is there stays
    if dev.shutdownThread ∨ dev.disconnected then .returns (-1) else condWait dev read.length
  | .timedOut => if read.milliseconds = -1 then .returns (-1) else .returns 0
  | .error => .returns (-1)

/-- `hid_device_removal_callback`, `hid_close`, and the exits of the loop of
`read_thread`. -/
inductive Flag (dev : HidDevice) : HidDevice → Prop where
  | disconnected : Flag dev { dev with disconnected := true }
  | unregistered : Flag dev { dev with receiving := false }
  | shutdown : Flag dev { dev with shutdownThread := true }

/-- Each report is signalled. Every exit of the thread's loop has a flag. -/
def backend : Backend where
  enter := enter
  resume := resume
  signals _ := true
  stopped dev := dev.shutdownThread || dev.disconnected
  flag := Flag
  leaves dev := dev.shutdownThread = true ∨ dev.disconnected = true

end Mac

/-! ## Threads -/

/-- A thread that reads: not in `hid_read_timeout`, asleep at the condition,
or with the result of its wait and without the mutex. -/
inductive HidReader where
  | idle
  | asleep (read : HidRead)
  | roused (read : HidRead) (res : WaitResult)
  deriving DecidableEq

namespace HidReader

def Asleep : HidReader → Prop
  | asleep _ => True
  | _ => False

instance : DecidablePred Asleep := fun reader => by
  cases reader <;> unfold Asleep <;> infer_instance

/-- What a signal makes of a reader that sleeps. -/
def rouse : HidReader → HidReader
  | asleep read => roused read .ok
  | reader => reader

end HidReader

/-- A device and the threads that read from it. `ended` is set when the read
thread has woken all it will wake: whether a flag was set then. -/
structure System (ι : Type) where
  dev : HidDevice
  ended : Option Bool
  readers : ι → HidReader

/-- What happens. -/
inductive HidLabel (ι : Type) where
  | received (rpt : Report) (displaced : Option Report)
  | flagged
  | ended
  | wakes (i : ι) (res : WaitResult)
  | waits (i : ι) (read : HidRead)
  | returnedData (i : ι) (read : HidRead) (bytesRead : Nat) (data : List UInt8)
  | returned (i : ι) (read : HidRead) (bytesRead : Int)

variable {ι : Type}

/-- A reader takes the mutex, with a new call or after its wait. -/
inductive Turn (b : Backend) (s : System ι) (i : ι) (read : HidRead) : Section → Prop where
  | enter (idle : s.readers i = .idle) : Turn b s i read (b.enter s.dev read)
  | resume {res : WaitResult} (roused : s.readers i = .roused read res) : Turn b s i read (b.resume s.dev read res)

variable [DecidableEq ι]

/-- One step of a device and its readers. -/
inductive HidStep (b : Backend) (s : System ι) : HidLabel ι → System ι → Prop where
  /-- a report comes -/
  | received {rpt : Report} {inputReports : List Report} {displaced : Option Report} {readers : ι → HidReader}
      (receiving : s.dev.receiving = true) (attached : attachReport s.dev.inputReports rpt = (inputReports, displaced))
      (signal : if b.signals s.dev.inputReports then Threads.Signal HidReader.Asleep HidReader.rouse s.readers readers
        else readers = s.readers) :
      HidStep b s (.received rpt displaced)
        { s with dev := { s.dev with inputReports := inputReports }, readers := readers }
  | flagged {dev : HidDevice} (flag : b.flag s.dev dev) : HidStep b s .flagged { s with dev := dev }
  /-- the thread has left its loop and wakes all readers -/
  | ended (running : s.ended = none) (leaves : b.leaves s.dev) :
      HidStep b s .ended
        { s with ended := some (b.stopped s.dev), readers := Threads.broadcast HidReader.Asleep HidReader.rouse s.readers }
  /-- a wait returns by itself: for no reason, or because its time is over; by
  assumption on the condition variable it consumes no signal then -/
  | wakes {i : ι} {read : HidRead} {res : WaitResult} (asleep : s.readers i = .asleep read)
      (timed : res = .timedOut → 0 < read.milliseconds) :
      HidStep b s (.wakes i res) { s with readers := Function.update s.readers i (.roused read res) }
  | waits {i : ι} {read : HidRead} (turn : Turn b s i read .waits) :
      HidStep b s (.waits i read) { s with readers := Function.update s.readers i (.asleep read) }
  | returnedData {i : ι} {read : HidRead} {bytesRead : Nat} {data : List UInt8} {dev : HidDevice}
      (turn : Turn b s i read (.returnsData bytesRead data dev)) :
      HidStep b s (.returnedData i read bytesRead data) ⟨dev, s.ended, Function.update s.readers i .idle⟩
  | returned {i : ι} {read : HidRead} {bytesRead : Int} (turn : Turn b s i read (.returns bytesRead)) :
      HidStep b s (.returned i read bytesRead) { s with readers := Function.update s.readers i .idle }

/-- A device that `hid_open_path` returned: its read thread is up. -/
def System.opened : System ι := ⟨⟨[], false, false, true⟩, none, fun _ => .idle⟩

end TouchMouse
