import TouchMouse.Model.HidRead

/-!
# Reading on Windows

`hid_read_timeout` of `windows/hid.c:602-667` keeps one `ReadFile` going into
`read_buf`. A call that comes to its timeout leaves it going, and a later call
finds what came of it. `n` is `input_report_length`, the size of `read_buf`.
-/

namespace TouchMouse
namespace Windows

/-- The overlapped `ReadFile`: none, going on, or over with the number of
bytes read if it did not fail. -/
inductive Overlapped where
  | none
  | pending
  | done (bytesRead : Option Nat)
  deriving DecidableEq

/-- The caller: not in `hid_read_timeout`, or waiting in it. -/
inductive Caller where
  | idle
  | waiting (read : HidRead)
  deriving DecidableEq

structure State (n : Nat) where
  readBuf : Vector UInt8 n
  readPending : Bool
  ol : Overlapped
  caller : Caller
  deriving DecidableEq

/-- What happens. `returned` shows what the call returns, what `memcpy` copied
of `read_buf`, and the index in `read_buf` up to which it copied. -/
inductive Label where
  | called (read : HidRead)
  | refused (read : HidRead)
  | completed (rpt : Report)
  | failed
  | timedOut (read : HidRead)
  | returned (read : HidRead) (bytesRead : Nat) (data : List UInt8) (upTo : Nat)
  | errored (read : HidRead)
  deriving DecidableEq

variable {n : Nat}

/-- A report overwrites the start of `read_buf`. -/
def overwrite (readBuf : Vector UInt8 n) (rpt : Report) : Vector UInt8 n :=
  .ofFn fun i => (rpt[i.1]?).getD readBuf[i]

/-- The end of a call whose `ReadFile` read `bytesRead` bytes. -/
def finish (readBuf : Vector UInt8 n) (bytesRead : Nat) (read : HidRead) : Label :=
  if bytesRead > 0 then
    if readBuf[0]? = some 0 then
      .returned read (bytesRead - 1) ((readBuf.toList.drop 1).take read.length) (1 + read.length)
    else .returned read bytesRead (readBuf.toList.take read.length) read.length
  else .returned read bytesRead [] 0

inductive Step (s : State n) : Label → State n → Prop where
  /-- a call starts a `ReadFile`, or finds one going on -/
  | starts {read : HidRead} (idle : s.caller = .idle) (pending : s.readPending = false) :
      Step s (.called read) { s with readPending := true, ol := .pending, caller := .waiting read }
  | finds {read : HidRead} (idle : s.caller = .idle) (pending : s.readPending = true) :
      Step s (.called read) { s with caller := .waiting read }
  /-- `ReadFile` fails at once, and the call returns -1 -/
  | refused {read : HidRead} (idle : s.caller = .idle) (pending : s.readPending = false) : Step s (.refused read) s
  /-- the `ReadFile` reads a report, or fails -/
  | completed {rpt : Report} (pending : s.ol = .pending) (fits : rpt.length ≤ n) :
      Step s (.completed rpt) { s with readBuf := overwrite s.readBuf rpt, ol := .done (some rpt.length) }
  | failed (pending : s.ol = .pending) : Step s .failed { s with ol := .done none }
  /-- `WaitForSingleObject` does not say that it is over, and the call
  returns 0 -/
  | timedOut {read : HidRead} (waiting : s.caller = .waiting read) (timed : 0 ≤ read.milliseconds) :
      Step s (.timedOut read) { s with caller := .idle }
  /-- the call returns what was read, or -1 -/
  | returned {read : HidRead} {bytesRead : Nat} (waiting : s.caller = .waiting read)
      (done : s.ol = .done (some bytesRead)) :
      Step s (finish s.readBuf bytesRead read) { s with readPending := false, ol := .none, caller := .idle }
  | errored {read : HidRead} (waiting : s.caller = .waiting read) (done : s.ol = .done none) :
      Step s (.errored read) { s with readPending := false, ol := .none, caller := .idle }

/-- A device that `hid_open_path` returned, with whatever `malloc` left in
`read_buf`. -/
def State.opened (readBuf : Vector UInt8 n) : State n := ⟨readBuf, false, .none, .idle⟩

end Windows
end TouchMouse
