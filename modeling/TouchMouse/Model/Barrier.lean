import TouchMouse.Concurrency.Run
import TouchMouse.Concurrency.Threads

/-!
# The barrier of the Mac

`mac/hid.c` makes its own barrier of a mutex and a condition variable
(`mac/hid.c:39-92`). A call of `pthread_barrier_wait` holds the mutex but
while it waits at the condition, and it waits once, whatever its wait returned
for.
-/

namespace TouchMouse.Mac

/-- Where a thread is: not in `pthread_barrier_wait`, asleep in it, or roused
and not yet back. -/
inductive BarrierThread where
  | outside
  | asleep
  | roused
  deriving DecidableEq

/-- `pthread_barrier_t`, and the threads. -/
structure Barrier (ι : Type) where
  count : Nat
  threads : ι → BarrierThread

/-- `pthread_barrier_init`. -/
def Barrier.init (ι : Type) : Barrier ι := ⟨0, fun _ => .outside⟩

inductive BarrierLabel (ι : Type) where
  | waits (i : ι)
  /-- the count is reached, and the call returns 1 -/
  | trips (i : ι)
  /-- a call that waited returns 0 -/
  | returns (i : ι)
  /-- a wait returns for no reason -/
  | spurious (i : ι)

variable {ι : Type} [DecidableEq ι]

inductive BarrierStep (tripCount : Nat) (s : Barrier ι) : BarrierLabel ι → Barrier ι → Prop where
  | waits {i : ι} (outside : s.threads i = .outside) (early : s.count + 1 < tripCount) :
      BarrierStep tripCount s (.waits i) ⟨s.count + 1, Function.update s.threads i .asleep⟩
  | trips {i : ι} (outside : s.threads i = .outside) (last : tripCount ≤ s.count + 1) :
      BarrierStep tripCount s (.trips i)
        ⟨0, Threads.broadcast (· = BarrierThread.asleep) (fun _ => .roused) s.threads⟩
  | returns {i : ι} (roused : s.threads i = .roused) :
      BarrierStep tripCount s (.returns i) { s with threads := Function.update s.threads i .outside }
  | spurious {i : ι} (asleep : s.threads i = .asleep) :
      BarrierStep tripCount s (.spurious i) { s with threads := Function.update s.threads i .roused }

end TouchMouse.Mac
