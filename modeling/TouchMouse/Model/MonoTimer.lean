/-!
# `mono_timer_nanos`

The three timers (`mono_timer.c`), each given what its platform's calls
deliver. A call that fails delivers nothing, and the timer returns 0.
-/

namespace TouchMouse

/-- On Windows: `QueryPerformanceFrequency`, then `QueryPerformanceCounter`.
The product and the quotient are those of a signed word. -/
def Windows.monoTimerNanos (freq count : Option Int64) : UInt64 :=
  match freq with
  | none => 0
  | some freq =>
    match count with
    | none => 0
    | some count => (count * 1000000000 / freq).toUInt64

/-- `mach_timebase_info_data_t`. -/
structure MachTimebaseInfo where
  numer : UInt32
  denom : UInt32

/-- On OSX: `mach_absolute_time`, scaled by the timebase. -/
def Apple.monoTimerNanos (info : MachTimebaseInfo) (machAbsoluteTime : UInt64) : UInt64 :=
  machAbsoluteTime * info.numer.toUInt64 / info.denom.toUInt64

/-- `struct timespec`. -/
structure Timespec where
  tvSec : Int64
  tvNsec : Int64

/-- On Linux: `clock_gettime`. -/
def Linux.monoTimerNanos (ts : Option Timespec) : UInt64 :=
  match ts with
  | none => 0
  | some ts => ts.tvSec.toUInt64 * 1000000000 + ts.tvNsec.toUInt64

end TouchMouse
