import TouchMouse.Model.ReadThread

/-!
# Closing

On both platforms `hid_close` comes to its end whatever happened before, and
then nothing of the device runs. On Linux it releases a transfer that libusb
is done with exactly if the thread's own cancellation found none or succeeded,
and its last `libusb_handle_events` waited for the transfer; neither is so in
every run (`hid_close_races`). On the Mac the handle of a device that was not
removed is closed twice.
-/

namespace TouchMouse
open Labelled

/-! ## Linux -/

namespace Linux

/-- The thread's cancellation found an idle transfer, or it returned 0. -/
def CancelsAll (labels : List SessionLabel) : Prop :=
  ∀ found ok, .threadCancelled found ok ∈ labels → found = .idle ∨ ok = true

/-- The thread left its transfer idle. -/
def LeftIdle (labels : List SessionLabel) : Prop :=
  CancelsAll labels ∧ ∀ left, .reaped left ∈ labels → left = .idle

/-- The thread has not cancelled yet, or not handled what it cancelled. -/
def NotCancelled (labels : List SessionLabel) : Prop := ∀ found ok, .threadCancelled found ok ∉ labels
def NotReaped (labels : List SessionLabel) : Prop := ∀ left, .reaped left ∉ labels

/-- What a run shows of its thread, by where the thread is. -/
def ThreadTrace (shared : Prop) (labels : List SessionLabel) (s : Session) : Prop :=
  match s.thread with
  | .looping | .handling | .cancels => NotCancelled labels ∧ NotReaped labels
  | .reaping => CancelsAll labels ∧ NotReaped labels
  | .wakes | .ended => (LeftIdle labels → s.transfer = .idle) ∧ (¬ shared → s.transfer = .idle → LeftIdle labels)

theorem Transfer.Cancels.idle_iff {transfer left : Transfer} {ok : Bool} (h : transfer.Cancels ok left) :
    left = .idle ↔ transfer = .idle := by
  cases h with
  | cancelled => decide
  | failed => exact Iff.rfl

variable {shared : Prop} {labels : List SessionLabel} {s : Session}

/-- A label that is not one of the thread's cancellation. -/
theorem cancelsAll_snoc {a : SessionLabel} (hcancelled : ∀ found ok, a ≠ .threadCancelled found ok) :
    CancelsAll (labels ++ [a]) ↔ CancelsAll labels := by
  simp [CancelsAll, (hcancelled _ _).symm]

theorem leftIdle_snoc {a : SessionLabel} (hcancelled : ∀ found ok, a ≠ .threadCancelled found ok)
    (hreaped : ∀ left, a ≠ .reaped left) : LeftIdle (labels ++ [a]) ↔ LeftIdle labels := by
  simp [LeftIdle, cancelsAll_snoc hcancelled, (hreaped _).symm]

theorem notCancelled_snoc {a : SessionLabel} (hcancelled : ∀ found ok, a ≠ .threadCancelled found ok) :
    NotCancelled (labels ++ [a]) ↔ NotCancelled labels := by
  simp [NotCancelled, (hcancelled _ _).symm]

/-- The thread cancels once, so it is this cancellation that counts. -/
theorem cancelsAll_cancelled {found : Transfer} {ok : Bool} (h : NotCancelled labels) :
    CancelsAll (labels ++ [.threadCancelled found ok]) ↔ found = .idle ∨ ok = true := by
  constructor
  · exact fun hall => hall found ok (List.mem_append_right _ (List.mem_singleton_self _))
  · intro hone found' ok' hmem
    rcases List.mem_append.1 hmem with hmem | hmem
    · exact absurd hmem (h found' ok')
    · rw [List.mem_singleton, SessionLabel.threadCancelled.injEq] at hmem
      obtain ⟨rfl, rfl⟩ := hmem
      exact hone

theorem notReaped_snoc {a : SessionLabel} (hreaped : ∀ left, a ≠ .reaped left) :
    NotReaped (labels ++ [a]) ↔ NotReaped labels := by
  simp [NotReaped, (hreaped _).symm]

/-- A step that is not one of the thread's cancellation, and leaves an idle
transfer idle, leaves the trace; it makes a transfer idle only where another
thread may, or before the thread is done with it. -/
theorem ThreadTrace.other {s' : Session} {a : SessionLabel} (h : ThreadTrace shared labels s)
    (hcancelled : ∀ found ok, a ≠ .threadCancelled found ok) (hreaped : ∀ left, a ≠ .reaped left)
    (hthread : s'.thread = s.thread) (hidle : s.transfer = .idle → s'.transfer = .idle)
    (hback : ¬ shared → s.thread = .wakes ∨ s.thread = .ended → s'.transfer = .idle → s.transfer = .idle) :
    ThreadTrace shared (labels ++ [a]) s' := by
  unfold ThreadTrace at h ⊢
  rw [hthread]
  cases hs : s.thread <;> simp only [hs] at h ⊢
  case looping | handling | cancels =>
    exact ⟨(notCancelled_snoc hcancelled).2 h.1, (notReaped_snoc hreaped).2 h.2⟩
  case reaping => exact ⟨(cancelsAll_snoc hcancelled).2 h.1, (notReaped_snoc hreaped).2 h.2⟩
  case wakes =>
    rw [leftIdle_snoc hcancelled hreaped]
    exact ⟨fun hleft => hidle (h.1 hleft), fun halone hnext => h.2 halone (hback halone (.inl hs) hnext)⟩
  case ended =>
    rw [leftIdle_snoc hcancelled hreaped]
    exact ⟨fun hleft => hidle (h.1 hleft), fun halone hnext => h.2 halone (hback halone (.inr hs) hnext)⟩

theorem threadTrace_step {s' : Session} {a : SessionLabel} (h : ThreadTrace shared labels s)
    (moves : SessionStep shared s a s') : ThreadTrace shared (labels ++ [a]) s' := by
  -- the callback runs in this thread's `libusb_handle_events`, or in another thread
  have hcallback : ∀ {transfer : Transfer} {flag : Bool} {status : TransferStatus},
      s.transfer ≠ .idle → s.thread = .handling ∨ s.thread = .reaping ∨ shared →
      ThreadTrace shared (labels ++ [.readCallback status]) ⟨transfer, flag, s.thread, s.close⟩ := by
    intro transfer flag status hsubmitted hevents
    refine h.other (by nofun) (by nofun) rfl (fun hidle => absurd hidle hsubmitted) ?_
    intro halone hthread _
    rcases hevents with hevents | hevents | hevents
    · rw [hevents] at hthread
      rcases hthread with hthread | hthread <;> cases hthread
    · rw [hevents] at hthread
      rcases hthread with hthread | hthread <;> cases hthread
    · exact absurd hevents halone
  cases moves with
  | stops submitted events => exact hcallback submitted events
  | resubmits submitted events => exact hcallback submitted events
  | tested thread =>
    unfold ThreadTrace at h ⊢
    rw [thread] at h
    have hnext : NotCancelled (labels ++ [.tested]) ∧ NotReaped (labels ++ [.tested]) :=
      ⟨(notCancelled_snoc (by nofun)).2 h.1, (notReaped_snoc (by nofun)).2 h.2⟩
    cases s.shutdownThread <;> exact hnext
  | @handled ok thread =>
    unfold ThreadTrace at h ⊢
    rw [thread] at h
    have hnext : NotCancelled (labels ++ [.handled ok]) ∧ NotReaped (labels ++ [.handled ok]) :=
      ⟨(notCancelled_snoc (by nofun)).2 h.1, (notReaped_snoc (by nofun)).2 h.2⟩
    cases ok <;> exact hnext
  | @threadCancelled ok left thread cancels =>
    unfold ThreadTrace at h ⊢
    rw [thread] at h
    obtain ⟨hcancelled, hreaped⟩ := h
    have hnotReaped : NotReaped (labels ++ [.threadCancelled s.transfer ok]) := (notReaped_snoc (by nofun)).2 hreaped
    have hall : CancelsAll (labels ++ [.threadCancelled s.transfer ok]) ↔ s.transfer = .idle ∨ ok = true :=
      cancelsAll_cancelled hcancelled
    cases ok with
    | true => exact ⟨hall.2 (.inr rfl), hnotReaped⟩
    | false =>
      have hfound : left = .idle ↔ s.transfer = .idle := cancels.idle_iff
      refine ⟨fun hleft => hfound.2 ((hall.1 hleft.1).resolve_right nofun), fun _ hidle => ?_⟩
      exact ⟨hall.2 (.inl (hfound.1 hidle)), fun left hmem => absurd hmem (hnotReaped left)⟩
  | reaped thread =>
    unfold ThreadTrace at h ⊢
    rw [thread] at h
    obtain ⟨hcancelled, hreaped⟩ := h
    have hleft : LeftIdle (labels ++ [.reaped s.transfer]) ↔ s.transfer = .idle := by
      unfold LeftIdle
      constructor
      · exact fun hleft => hleft.2 _ (List.mem_append_right _ (List.mem_singleton_self _))
      · intro hidle
        refine ⟨(cancelsAll_snoc (by nofun)).2 hcancelled, fun left hmem => ?_⟩
        rcases List.mem_append.1 hmem with hmem | hmem
        · exact absurd hmem (hreaped left)
        · rw [List.mem_singleton, SessionLabel.reaped.injEq] at hmem
          rw [hmem, hidle]
    exact ⟨hleft.1, fun _ => hleft.2⟩
  | woke thread =>
    unfold ThreadTrace at h ⊢
    rw [thread] at h
    rwa [leftIdle_snoc (by nofun) (by nofun)]
  | closeCalled => exact h.other (by nofun) (by nofun) rfl id fun _ _ => id
  | closeCancelled _ cancels => exact h.other (by nofun) (by nofun) rfl cancels.idle_iff.2 fun _ _ => cancels.idle_iff.1
  | closed => exact h.other (by nofun) (by nofun) rfl id fun _ _ => id

theorem run_threadTrace {submitted : Bool} (h : Run (SessionStep shared) (.opened submitted) labels s) :
    ThreadTrace shared labels s := by
  have hstart : ThreadTrace shared [] (.opened submitted) := ⟨fun _ _ => List.not_mem_nil, fun _ => List.not_mem_nil⟩
  exact h.invariant (I := fun labels s => ThreadTrace shared labels s) hstart
    fun _ _ _ _ htrace moves => threadTrace_step htrace moves

/-- A call of `hid_close` sets the flag, and comes past `pthread_join` after
the end of the thread. -/
structure Ordered (s : Session) : Prop where
  flag : s.close ≠ .open → s.shutdownThread = true
  joined : s.close = .closed → s.thread = .ended

theorem ordered_step {s' : Session} {a : SessionLabel} (h : Ordered s) (moves : SessionStep shared s a s') :
    Ordered s' := by
  have hended : s.close = .closed → ∀ {thread : Thread}, s.thread = thread → thread = .ended := by
    intro hclosed thread hthread
    rw [← hthread]
    exact h.joined hclosed
  cases moves with
  | stops => exact ⟨fun _ => rfl, h.joined⟩
  | resubmits => exact ⟨h.flag, h.joined⟩
  | tested thread | handled thread | threadCancelled thread | reaped thread | woke thread =>
    exact ⟨h.flag, fun hclosed => by cases hended hclosed thread⟩
  | closeCalled => exact ⟨fun _ => rfl, fun hclosed => by cases hclosed⟩
  | closeCancelled close => exact ⟨fun _ => h.flag (by rw [close]; decide), fun hclosed => by cases hclosed⟩
  | closed close thread => exact ⟨fun _ => h.flag (by rw [close]; decide), fun _ => thread⟩

theorem run_ordered {submitted : Bool} (h : Run (SessionStep shared) (.opened submitted) labels s) : Ordered s :=
  h.invariant_state ⟨fun hopen => absurd rfl hopen, fun hclosed => by cases hclosed⟩ fun _ _ _ hordered moves =>
    ordered_step hordered moves

/-- With an idle transfer nothing happens after the end of `hid_close`. -/
theorem quiet_of_closed (hclosed : s.close = .closed) (hended : s.thread = .ended) (hidle : s.transfer = .idle)
    (a : SessionLabel) (s' : Session) : ¬ SessionStep shared s a s' := by
  intro moves
  cases moves with
  | stops submitted | resubmits submitted => exact submitted hidle
  | tested thread | handled thread | threadCancelled thread | reaped thread | woke thread =>
    rw [hended] at thread
    cases thread
  | closeCalled close | closeCancelled close | closed close =>
    rw [hclosed] at close
    cases close

/-! Where the flag is set the thread comes to its end, from wherever it is. -/

theorem ends_of_wakes (shared : Prop) {s : Session} (h : s.thread = .wakes) :
    ∃ labels' s', Run (SessionStep shared) s labels' s' ∧ s'.thread = .ended ∧ s'.close = s.close :=
  ⟨_, _, .single (.woke h), rfl, rfl⟩

theorem ends_of_cancels (shared : Prop) {s : Session} (h : s.thread = .cancels) :
    ∃ labels' s', Run (SessionStep shared) s labels' s' ∧ s'.thread = .ended ∧ s'.close = s.close := by
  have hends : ∀ {ok : Bool} {transfer : Transfer}, s.transfer.Cancels ok transfer →
      ∃ labels' s', Run (SessionStep shared) s labels' s' ∧ s'.thread = .ended ∧ s'.close = s.close := by
    intro ok transfer cancels
    obtain ⟨labels', s', hrun, hended, hclose⟩ := ends_of_wakes shared
      (s := { s with transfer := transfer, thread := .wakes }) rfl
    cases ok with
    | true => exact ⟨_, s', .cons (.threadCancelled h cancels) (.cons (.reaped rfl) hrun), hended, hclose⟩
    | false => exact ⟨_, s', .cons (.threadCancelled h cancels) hrun, hended, hclose⟩
  cases htransfer : s.transfer with
  | inFlight =>
    have hcancels : s.transfer.Cancels true .cancelling := by
      rw [htransfer]
      exact .cancelled
    exact hends hcancels
  | idle | cancelling => exact hends (.failed _)

theorem ends_of_looping (shared : Prop) {s : Session} (h : s.thread = .looping) (hflag : s.shutdownThread = true) :
    ∃ labels' s', Run (SessionStep shared) s labels' s' ∧ s'.thread = .ended ∧ s'.close = s.close := by
  have htested : SessionStep shared s .tested _ := .tested h
  rw [if_pos hflag] at htested
  obtain ⟨labels', s', hrun, hended, hclose⟩ := ends_of_cancels shared (s := { s with thread := .cancels }) rfl
  exact ⟨_, s', .cons htested hrun, hended, hclose⟩

theorem thread_ends (shared : Prop) {s : Session} (hflag : s.shutdownThread = true) :
    ∃ labels' s', Run (SessionStep shared) s labels' s' ∧ s'.thread = .ended ∧ s'.close = s.close := by
  cases h : s.thread with
  | looping => exact ends_of_looping shared h hflag
  | handling =>
    have hhandled : SessionStep shared s (.handled true) _ := .handled h
    rw [if_pos rfl] at hhandled
    obtain ⟨labels', s', hrun, hended, hclose⟩ := ends_of_looping shared
      (s := { s with thread := .looping }) rfl hflag
    exact ⟨_, s', .cons hhandled hrun, hended, hclose⟩
  | cancels => exact ends_of_cancels shared h
  | reaping =>
    obtain ⟨labels', s', hrun, hended, hclose⟩ := ends_of_wakes shared (s := { s with thread := .wakes }) rfl
    exact ⟨_, s', .cons (.reaped h) hrun, hended, hclose⟩
  | wakes => exact ends_of_wakes shared h
  | ended => exact ⟨[], s, .start, h, rfl⟩

theorem close_ends (h : Ordered s) :
    ∃ labels' s', Run (SessionStep shared) s labels' s' ∧ s'.close = .closed := by
  have hjoins : ∀ s : Session, s.shutdownThread = true → s.close = .joins →
      ∃ labels' s', Run (SessionStep shared) s labels' s' ∧ s'.close = .closed := by
    intro s hflag hclose
    obtain ⟨labels', s', hrun, hended, hclose'⟩ := thread_ends shared hflag
    exact ⟨_, _, hrun.append (.single (.closed (hclose'.trans hclose) hended)), rfl⟩
  have hcancels : ∀ s : Session, s.shutdownThread = true → s.close = .cancels →
      ∃ labels' s', Run (SessionStep shared) s labels' s' ∧ s'.close = .closed := by
    intro s hflag hclose
    obtain ⟨labels', s', hrun, hclosed⟩ := hjoins { s with close := .joins } hflag rfl
    exact ⟨_, s', .cons (.closeCancelled hclose (.failed _)) hrun, hclosed⟩
  cases hclose : s.close with
  | «open» =>
    obtain ⟨labels', s', hrun, hclosed⟩ := hcancels { s with shutdownThread := true, close := .cancels } rfl rfl
    exact ⟨_, s', .cons (.closeCalled hclose) hrun, hclosed⟩
  | cancels => exact hcancels s (h.flag (by rw [hclose]; decide)) hclose
  | joins => exact hjoins s (h.flag (by rw [hclose]; decide)) hclose
  | closed => exact ⟨[], s, .start, hclose⟩

/-- **Closing on Linux.** From every state that a run reaches `hid_close` can
come to its end. Where the thread left its transfer idle, `hid_close` releases
an idle transfer, and no callback runs afterwards. Where no other thread
handles the events, these are the only runs in which it does; `hid_close_races`
has others. -/
theorem hid_close_releases_transfer (shared : Prop) {submitted : Bool}
    (h : Run (SessionStep shared) (.opened submitted) labels s) :
    (∃ labels' s', Run (SessionStep shared) s labels' s' ∧ s'.close = .closed) ∧
      (s.close = .closed →
        (LeftIdle labels → s.transfer = .idle ∧ ∀ a s', ¬ SessionStep shared s a s') ∧
          (¬ shared → (s.transfer = .idle ↔ LeftIdle labels))) := by
  have hordered := run_ordered h
  refine ⟨close_ends hordered, fun hclosed => ?_⟩
  have hended := hordered.joined hclosed
  have htrace := run_threadTrace h
  rw [ThreadTrace, hended] at htrace
  refine ⟨fun hleft => ?_, fun halone => ⟨htrace.2 halone, htrace.1⟩⟩
  have hidle := htrace.1 hleft
  exact ⟨hidle, quiet_of_closed hclosed hended hidle⟩

/-- `hid_close` is called first, and the thread's `libusb_handle_events` runs
the callback of the cancelled transfer. -/
theorem hid_close_releases_transfer_run :
    let labels := [.closeCalled, .tested, .threadCancelled .inFlight true, .readCallback .cancelled, .reaped .idle, .woke,
      .closeCancelled, .closed]
    LeftIdle labels ∧ (⟨.idle, true, .ended, .closed⟩ : Session).transfer = .idle := by
  intro labels
  have hrun : Run (SessionStep False) (.opened true) labels ⟨.idle, true, .ended, .closed⟩ :=
    .cons (.closeCalled rfl) (.cons (.tested rfl) (.cons (.threadCancelled rfl .cancelled)
      (.cons (.stops nofun (.inr (.inl rfl)) rfl) (.cons (.reaped rfl) (.cons (.woke rfl)
        (.cons (.closeCancelled rfl (.failed _)) (.single (.closed rfl rfl))))))))
  have hleft : LeftIdle labels := ⟨by simp [CancelsAll, labels], by simp [labels]⟩
  exact ⟨hleft, (((hid_close_releases_transfer False hrun).2 rfl).1 hleft).1⟩

/-- The counterexample to a release of idle transfers in every run: neither
half of `LeftIdle` is so in all of them. `hid_close` may cancel between the test
of the thread and its cancellation, which then fails, and `libusb_handle_events`
may return for another event. -/
theorem hid_close_races :
    (∃ labels s, Run (SessionStep False) (.opened true) labels s ∧ s.close = .closed ∧ s.transfer = .cancelling ∧
        NotReaped labels) ∧
      ∃ labels s, Run (SessionStep False) (.opened true) labels s ∧ s.close = .closed ∧ s.transfer = .cancelling ∧
        CancelsAll labels := by
  constructor
  · refine ⟨[.closeCalled, .tested, .closeCancelled, .threadCancelled .cancelling false, .woke, .closed], _,
      .cons (.closeCalled rfl) (.cons (.tested rfl) (.cons (.closeCancelled rfl .cancelled)
        (.cons (.threadCancelled rfl (.failed _)) (.cons (.woke rfl) (.single (.closed rfl rfl)))))), rfl, rfl, ?_⟩
    simp [NotReaped]
  · refine ⟨[.closeCalled, .tested, .threadCancelled .inFlight true, .reaped .cancelling, .woke, .closeCancelled, .closed],
      _, .cons (.closeCalled rfl) (.cons (.tested rfl) (.cons (.threadCancelled rfl .cancelled) (.cons (.reaped rfl)
        (.cons (.woke rfl) (.cons (.closeCancelled rfl (.failed _)) (.single (.closed rfl rfl))))))), rfl, rfl, ?_⟩
    simp [CancelsAll]

end Linux

/-! ## Mac -/

namespace Mac

variable {labels : List SessionLabel} {s : Session}

/-- How often the tests of `disconnected` were passed: one in the thread, one
in `hid_close`. -/
def Session.tests (s : Session) : Nat :=
  (match s.thread with
    | .looping | .wakes | .closing => 0
    | .barrier | .ended => 1) +
  if s.close = .closed then 1 else 0

/-- The thread and `hid_close` pass the barrier together, and each closes the
handle of a device that was not removed. -/
structure Ordered (s : Session) : Prop where
  flag : s.close ≠ .open → s.shutdownThread = true
  passed : s.thread = .ended ↔ s.close = .joins ∨ s.close = .closing ∨ s.close = .closed
  bound : s.handleCloses ≤ s.tests
  connected : s.disconnected = false → s.handleCloses = s.tests
  removed : s.close = .closed → s.disconnected = true → s.handleCloses ≤ 1

theorem Ordered.twice (h : Ordered s) (hclosed : s.close = .closed) :
    s.handleCloses ≤ 2 ∧ (s.handleCloses = 2 ↔ s.disconnected = false) := by
  have htests : s.tests = 2 := by
    have hended := h.passed.2 (.inr (.inr hclosed))
    simp [Session.tests, hended, hclosed]
  have hbound := h.bound
  refine ⟨by omega, fun htwo => ?_, fun hconnected => ?_⟩
  · by_contra hremoved
    have hone := h.removed hclosed (by simpa using hremoved)
    omega
  · rw [h.connected hconnected, htests]

theorem ordered_step {s' : Session} {a : SessionLabel} (h : Ordered s) (moves : SessionStep s a s') : Ordered s' := by
  obtain ⟨hflag, hpassed, hbound, hconnected, hremoved⟩ := h
  -- the places of the thread and of `hid_close` are known where they matter
  cases moves with
  | removed close => exact ⟨hflag, hpassed, hbound, nofun, fun hclosed => absurd hclosed close⟩
  | failed thread | left thread flag | woke thread =>
    rw [Session.tests, thread] at hbound hconnected
    rw [thread] at hpassed
    exact ⟨by first | exact hflag | exact fun _ => rfl, ⟨nofun, fun h => by cases hpassed.2 h⟩, hbound, hconnected,
      hremoved⟩
  | threadClosed thread =>
    rw [thread] at hpassed
    have hopen : s.close ≠ .closed := fun hclosed => by cases hpassed.2 (.inr (.inr hclosed))
    have hnone : s.tests = 0 := by simp [Session.tests, thread, hopen]
    have hone : ∀ closes, (⟨s.disconnected, s.shutdownThread, .barrier, s.close, closes⟩ : Session).tests = 1 :=
      fun _ => by simp [Session.tests, hopen]
    rw [hnone] at hbound hconnected
    refine ⟨hflag, ⟨nofun, fun h => by cases hpassed.2 h⟩, ?_, fun hdisconnected => ?_, fun hclosed => absurd hclosed hopen⟩
    · rw [hone]
      show (if s.disconnected then s.handleCloses else s.handleCloses + 1) ≤ 1
      split <;> omega
    · have hdisconnected : s.disconnected = false := hdisconnected
      rw [hone]
      show (if s.disconnected then s.handleCloses else s.handleCloses + 1) = 1
      rw [hdisconnected, hconnected hdisconnected]
      rfl
  | closeCalled close | wokeUp close =>
    rw [Session.tests, close] at hbound hconnected
    rw [close] at hpassed
    refine ⟨?_, ⟨fun h => ?_, nofun⟩, hbound, hconnected, nofun⟩
    · exact fun _ => by first | rfl | exact hflag (by rw [close]; nofun)
    · rcases hpassed.1 h with h | h | h <;> cases h
  | barrier thread close =>
    rw [Session.tests, thread, close] at hbound hconnected
    exact ⟨fun _ => hflag (by rw [close]; nofun), ⟨fun _ => .inl rfl, fun _ => rfl⟩, hbound, hconnected, nofun⟩
  | joined close thread =>
    rw [Session.tests, thread, close] at hbound hconnected
    exact ⟨fun _ => hflag (by rw [close]; nofun), ⟨fun _ => .inr (.inl rfl), fun _ => thread⟩, by
      rw [Session.tests, thread]; exact hbound, by rw [Session.tests, thread]; exact hconnected, nofun⟩
  | closed close =>
    have hended : s.thread = .ended := hpassed.2 (.inr (.inl close))
    have hone : s.tests = 1 := by simp [Session.tests, hended, close]
    have htwo : ∀ closes, (⟨s.disconnected, s.shutdownThread, s.thread, .closed, closes⟩ : Session).tests = 2 :=
      fun _ => by simp [Session.tests, hended]
    rw [hone] at hbound hconnected
    refine ⟨fun _ => hflag (by rw [close]; nofun), ⟨fun _ => .inr (.inr rfl), fun _ => hended⟩, ?_, fun hdisconnected => ?_,
      fun _ hdisconnected => ?_⟩
    · rw [htwo]
      show (if s.disconnected then s.handleCloses else s.handleCloses + 1) ≤ 2
      split <;> omega
    · have hdisconnected : s.disconnected = false := hdisconnected
      rw [htwo]
      show (if s.disconnected then s.handleCloses else s.handleCloses + 1) = 2
      rw [hdisconnected, hconnected hdisconnected]
      rfl
    · have hdisconnected : s.disconnected = true := hdisconnected
      show (if s.disconnected then s.handleCloses else s.handleCloses + 1) ≤ 1
      rw [if_pos hdisconnected]
      exact hbound

theorem run_ordered (h : Run SessionStep .opened labels s) : Ordered s := by
  have hstart : Ordered .opened := by constructor <;> simp [Session.opened, Session.tests]
  exact h.invariant_state hstart fun _ _ _ hordered moves => ordered_step hordered moves

theorem quiet_of_closed (hclosed : s.close = .closed) (hended : s.thread = .ended) (a : SessionLabel) (s' : Session) :
    ¬ SessionStep s a s' := by
  intro moves
  cases moves with
  | removed close => exact close hclosed
  | failed thread | left thread | woke thread | threadClosed thread | barrier thread =>
    rw [hended] at thread
    cases thread
  | closeCalled close | wokeUp close | joined close | closed close =>
    rw [hclosed] at close
    cases close

/-- With the flag set, the thread comes to the barrier. -/
theorem comes_to_barrier {s : Session} (hflag : s.shutdownThread = true) (hthread : s.thread ≠ .ended) :
    ∃ labels' s', Run SessionStep s labels' s' ∧ s'.thread = .barrier ∧ s'.close = s.close := by
  have hclosing : ∀ s : Session, s.thread = .closing →
      ∃ labels' s', Run SessionStep s labels' s' ∧ s'.thread = .barrier ∧ s'.close = s.close :=
    fun s h => ⟨_, _, .single (.threadClosed h), rfl, rfl⟩
  have hwakes : ∀ s : Session, s.thread = .wakes →
      ∃ labels' s', Run SessionStep s labels' s' ∧ s'.thread = .barrier ∧ s'.close = s.close := by
    intro s h
    obtain ⟨labels', s', hrun, hbarrier, hclose⟩ := hclosing { s with thread := .closing } rfl
    exact ⟨_, s', .cons (.woke h) hrun, hbarrier, hclose⟩
  cases h : s.thread with
  | looping =>
    obtain ⟨labels', s', hrun, hbarrier, hclose⟩ := hwakes { s with thread := .wakes } rfl
    exact ⟨_, s', .cons (.left h (.inl hflag)) hrun, hbarrier, hclose⟩
  | wakes => exact hwakes s h
  | closing => exact hclosing s h
  | barrier => exact ⟨[], s, .start, h, rfl⟩
  | ended => exact absurd h hthread

theorem close_ends (h : Ordered s) : ∃ labels' s', Run SessionStep s labels' s' ∧ s'.close = .closed := by
  have hclosing : ∀ s : Session, s.close = .closing → ∃ labels' s', Run SessionStep s labels' s' ∧ s'.close = .closed :=
    fun s hclose => ⟨_, _, .single (.closed hclose), rfl⟩
  have hjoins : ∀ s : Session, s.close = .joins → s.thread = .ended →
      ∃ labels' s', Run SessionStep s labels' s' ∧ s'.close = .closed := by
    intro s hclose hthread
    obtain ⟨labels', s', hrun, hclosed⟩ := hclosing { s with close := .closing } rfl
    exact ⟨_, s', .cons (.joined hclose hthread) hrun, hclosed⟩
  have hbarrier : ∀ s : Session, s.shutdownThread = true → s.close = .barrier → s.thread ≠ .ended →
      ∃ labels' s', Run SessionStep s labels' s' ∧ s'.close = .closed := by
    intro s hflag hclose hthread
    obtain ⟨labels₁, s₁, hrun₁, hthread₁, hclose₁⟩ := comes_to_barrier hflag hthread
    obtain ⟨labels₂, s₂, hrun₂, hclosed⟩ := hjoins { s₁ with thread := .ended, close := .joins } rfl rfl
    exact ⟨_, s₂, hrun₁.append (.cons (.barrier hthread₁ (hclose₁.trans hclose)) hrun₂), hclosed⟩
  have hwakesUp : ∀ s : Session, s.shutdownThread = true → s.close = .wakesUp → s.thread ≠ .ended →
      ∃ labels' s', Run SessionStep s labels' s' ∧ s'.close = .closed := by
    intro s hflag hclose hthread
    obtain ⟨labels', s', hrun, hclosed⟩ := hbarrier { s with close := .barrier } hflag rfl hthread
    exact ⟨_, s', .cons (.wokeUp hclose) hrun, hclosed⟩
  have hrunning : s.close ≠ .joins → s.close ≠ .closing → s.close ≠ .closed → s.thread ≠ .ended := by
    intro hjoins hclosing hclosed hended
    rcases h.passed.1 hended with hclose | hclose | hclose
    · exact hjoins hclose
    · exact hclosing hclose
    · exact hclosed hclose
  cases hclose : s.close with
  | «open» =>
    have hthread : s.thread ≠ .ended := hrunning (by rw [hclose]; decide) (by rw [hclose]; decide) (by rw [hclose]; decide)
    obtain ⟨labels', s', hrun, hclosed⟩ := hwakesUp { s with shutdownThread := true, close := .wakesUp } rfl rfl hthread
    exact ⟨_, s', .cons (.closeCalled hclose) hrun, hclosed⟩
  | wakesUp =>
    have hthread : s.thread ≠ .ended := hrunning (by rw [hclose]; decide) (by rw [hclose]; decide) (by rw [hclose]; decide)
    exact hwakesUp s (h.flag (by rw [hclose]; decide)) hclose hthread
  | barrier =>
    have hthread : s.thread ≠ .ended := hrunning (by rw [hclose]; decide) (by rw [hclose]; decide) (by rw [hclose]; decide)
    exact hbarrier s (h.flag (by rw [hclose]; decide)) hclose hthread
  | joins => exact hjoins s hclose (h.passed.2 (.inl hclose))
  | closing => exact hclosing s hclose
  | closed => exact ⟨[], s, .start, hclose⟩

/-- **Closing on the Mac.** The thread is there while `hid_close` wakes its run
loop, and from every state that a run reaches `hid_close` can come to its end;
then the thread has ended and nothing else happens. The handle was closed
twice then, exactly if the device was not removed. -/
theorem hid_close_mac (h : Run SessionStep .opened labels s) :
    (s.close = .wakesUp → s.thread ≠ .ended) ∧ (∃ labels' s', Run SessionStep s labels' s' ∧ s'.close = .closed) ∧
      (s.close = .closed →
        (∀ a s', ¬ SessionStep s a s') ∧ s.handleCloses ≤ 2 ∧ (s.handleCloses = 2 ↔ s.disconnected = false)) := by
  have hordered := run_ordered h
  refine ⟨fun hclose hended => ?_, close_ends hordered, fun hclosed => ?_⟩
  · have hpassed := hordered.passed.1 hended
    rw [hclose] at hpassed
    revert hpassed
    decide
  · exact ⟨quiet_of_closed hclosed (hordered.passed.2 (.inr (.inr hclosed))), hordered.twice hclosed⟩

theorem hid_close_mac_run :
    (⟨false, true, .ended, .closed, 2⟩ : Session).handleCloses = 2 ↔
      (⟨false, true, .ended, .closed, 2⟩ : Session).disconnected = false := by
  have hrun : Run SessionStep .opened
      [.closeCalled, .wokeUp, .left, .woke, .threadClosed, .barrier, .joined, .closed] ⟨false, true, .ended, .closed, 2⟩ :=
    .cons (.closeCalled rfl) (.cons (.wokeUp rfl) (.cons (.left rfl (.inl rfl)) (.cons (.woke rfl)
      (.cons (.threadClosed rfl) (.cons (.barrier rfl rfl) (.cons (.joined rfl rfl) (.single (.closed rfl))))))))
  exact ((hid_close_mac hrun).2.2 rfl).2.2

end Mac

end TouchMouse
