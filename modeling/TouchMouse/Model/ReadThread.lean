import TouchMouse.Concurrency.Run

/-!
# Closing a device

`read_thread` and `hid_close` side by side, on Linux (`hid-libusb.c:618-737`,
`1108-1138`) and on the Mac (`mac/hid.c`), with what they close: the transfer
that libusb has, and the handle of the device. The list of reports is in
`Model.HidRead`.
-/

namespace TouchMouse

/-! ## Linux -/

namespace Linux

/-- The transfer, as libusb has it. -/
inductive Transfer where
  | idle
  | inFlight
  | cancelling
  deriving DecidableEq

/-- `transfer->status` in `read_callback`. -/
inductive TransferStatus where
  | completed
  | cancelled
  | noDevice
  | timedOut
  | other
  deriving DecidableEq

/-- `libusb_cancel_transfer`, with whether it returned 0. It fails with
`LIBUSB_ERROR_NOT_FOUND` where the transfer is not in flight, and may fail with
another code where it is. -/
inductive Transfer.Cancels : Transfer → Bool → Transfer → Prop where
  | cancelled : Cancels inFlight true cancelling
  | failed (transfer : Transfer) : Cancels transfer false transfer

/-- Whether `read_callback` sets the flag and returns, or submits again. -/
def TransferStatus.stops : TransferStatus → Bool
  | cancelled | noDevice => true
  | completed | timedOut | other => false

/-- Where `read_thread` is: at the test of its loop, in the
`libusb_handle_events` of the loop, at its `libusb_cancel_transfer`, in the
`libusb_handle_events` that follows, at its broadcast, or returned. -/
inductive Thread where
  | looping
  | handling
  | cancels
  | reaping
  | wakes
  | ended
  deriving DecidableEq

/-- Where `hid_close` is: not called, at its `libusb_cancel_transfer`, at
`pthread_join`, or past the releases. -/
inductive Close where
  | open
  | cancels
  | joins
  | closed
  deriving DecidableEq

structure Session where
  transfer : Transfer
  shutdownThread : Bool
  thread : Thread
  close : Close
  deriving DecidableEq

/-- What happens. The thread's cancellation shows what it found and whether it
returned 0, and its last `libusb_handle_events` what it left. -/
inductive SessionLabel where
  | readCallback (status : TransferStatus)
  | tested
  | handled (ok : Bool)
  | threadCancelled (found : Transfer) (ok : Bool)
  | reaped (left : Transfer)
  | woke
  | closeCalled
  | closeCancelled
  | closed
  deriving DecidableEq

/-- One step. All devices share one context, so that the thread of another one
may run the callback (`shared`). -/
inductive SessionStep (shared : Prop) (s : Session) : SessionLabel → Session → Prop where
  | stops {status : TransferStatus} (submitted : s.transfer ≠ .idle)
      (events : s.thread = .handling ∨ s.thread = .reaping ∨ shared) (stop : status.stops = true) :
      SessionStep shared s (.readCallback status) { s with transfer := .idle, shutdownThread := true }
  /-- the transfer is submitted again, or that fails -/
  | resubmits {status : TransferStatus} {transfer : Transfer} (submitted : s.transfer ≠ .idle)
      (events : s.thread = .handling ∨ s.thread = .reaping ∨ shared) (stop : status.stops = false)
      (outcome : transfer = .inFlight ∨ transfer = .idle) :
      SessionStep shared s (.readCallback status) { s with transfer := transfer }
  | tested (thread : s.thread = .looping) :
      SessionStep shared s .tested { s with thread := if s.shutdownThread then .cancels else .handling }
  /-- `libusb_handle_events` returns, with or without having run the callback -/
  | handled {ok : Bool} (thread : s.thread = .handling) :
      SessionStep shared s (.handled ok) { s with thread := if ok then .looping else .cancels }
  | threadCancelled {ok : Bool} {transfer : Transfer} (thread : s.thread = .cancels) (cancels : s.transfer.Cancels ok transfer) :
      SessionStep shared s (.threadCancelled s.transfer ok)
        { s with transfer := transfer, thread := if ok then .reaping else .wakes }
  | reaped (thread : s.thread = .reaping) : SessionStep shared s (.reaped s.transfer) { s with thread := .wakes }
  | woke (thread : s.thread = .wakes) : SessionStep shared s .woke { s with thread := .ended }
  | closeCalled (close : s.close = .open) :
      SessionStep shared s .closeCalled { s with shutdownThread := true, close := .cancels }
  | closeCancelled {ok : Bool} {transfer : Transfer} (close : s.close = .cancels) (cancels : s.transfer.Cancels ok transfer) :
      SessionStep shared s .closeCancelled { s with transfer := transfer, close := .joins }
  /-- the thread has ended, and its transfer is released -/
  | closed (close : s.close = .joins) (thread : s.thread = .ended) :
      SessionStep shared s .closed { s with close := .closed }

/-- A device that `hid_open_path` returned, whether or not its transfer could
be submitted. -/
def Session.opened (submitted : Bool) : Session :=
  ⟨if submitted then .inFlight else .idle, false, .looping, .open⟩

end Linux

/-! ## Mac -/

namespace Mac

/-- Where `read_thread` is: in its loop, at its broadcast, at its test of
`disconnected`, at the barrier, or returned. -/
inductive Thread where
  | looping
  | wakes
  | closing
  | barrier
  | ended
  deriving DecidableEq

/-- Where `hid_close` is: not called, at `CFRunLoopWakeUp`, at the barrier, at
`pthread_join`, at its test of `disconnected`, or past the releases. -/
inductive Close where
  | open
  | wakesUp
  | barrier
  | joins
  | closing
  | closed
  deriving DecidableEq

/-- `handleCloses` counts the calls of `IOHIDDeviceClose`. -/
structure Session where
  disconnected : Bool
  shutdownThread : Bool
  thread : Thread
  close : Close
  handleCloses : Nat
  deriving DecidableEq

inductive SessionLabel where
  | removed
  | failed
  | left
  | woke
  | threadClosed
  | closeCalled
  | wokeUp
  | barrier
  | joined
  | closed
  deriving DecidableEq

inductive SessionStep (s : Session) : SessionLabel → Session → Prop where
  /-- `hid_device_removal_callback`, on the list of the open devices, and the
  end of the run loop -/
  | removed (close : s.close ≠ .closed) : SessionStep s .removed { s with disconnected := true }
  /-- the run loop failed -/
  | failed (thread : s.thread = .looping) :
      SessionStep s .failed { s with shutdownThread := true, thread := .wakes }
  | left (thread : s.thread = .looping) (flag : s.shutdownThread = true ∨ s.disconnected = true) :
      SessionStep s .left { s with thread := .wakes }
  | woke (thread : s.thread = .wakes) : SessionStep s .woke { s with thread := .closing }
  | threadClosed (thread : s.thread = .closing) :
      SessionStep s .threadClosed
        { s with
          thread := .barrier
          handleCloses := if s.disconnected then s.handleCloses else s.handleCloses + 1 }
  | closeCalled (close : s.close = .open) :
      SessionStep s .closeCalled { s with shutdownThread := true, close := .wakesUp }
  | wokeUp (close : s.close = .wakesUp) : SessionStep s .wokeUp { s with close := .barrier }
  /-- both are at the barrier and pass it, its waits signalled -/
  | barrier (thread : s.thread = .barrier) (close : s.close = .barrier) :
      SessionStep s .barrier { s with thread := .ended, close := .joins }
  | joined (close : s.close = .joins) (thread : s.thread = .ended) : SessionStep s .joined { s with close := .closing }
  | closed (close : s.close = .closing) :
      SessionStep s .closed
        { s with
          close := .closed
          handleCloses := if s.disconnected then s.handleCloses else s.handleCloses + 1 }

def Session.opened : Session := ⟨false, false, .looping, .open, 0⟩

end Mac

end TouchMouse
