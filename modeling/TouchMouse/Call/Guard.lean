import TouchMouse.Call.Safety

/-!
# The guard on the timestamp

The reset on a timestamp that does not match is skipped while `buf_index` is
0. With `resetOnMismatch` in the place of `matchTimestamp` the program is the
one without the first half of the guard. At a report boundary index 0 means a
reset decoder (`Tracks.reset`), so the two are the same on every run.
-/

namespace TouchMouse
open Transducer Reassembly

/-- The reset on any timestamp that differs. -/
def resetOnMismatch : Matching := fun dev timestamp =>
  { (if timestamp ≠ dev.timestampInProgress then resetDecoder dev else dev) with timestampInProgress := timestamp }

/-- What a report finds at index 0 is the state that `reset_decoder` makes:
any byte of the block would have added a pixel. -/
theorem Tracks.reset {d : Device} {block : List Packet} (h : Tracks d block) (hindex : d.bufIndex = 0) :
    resetDecoder d = d := by
  have hlength : (scheme.values (nybbles (data block))).length = 0 := (congrArg Device.bufIndex h.stream).trans hindex
  have hdata : data block = [] := by
    by_contra hne
    have := values_nybbles_pos hne
    omega
  have hstream := h.stream
  rw [hdata] at hstream
  exact (resetDecoder_eq d).trans hstream

/-- So both ways of matching agree on it. -/
theorem Tracks.resetOnMismatch {d : Device} {block : List Packet} (h : Tracks d block) (timestamp : UInt8) :
    resetOnMismatch d timestamp = matchTimestamp d timestamp := by
  unfold TouchMouse.resetOnMismatch matchTimestamp
  by_cases hindex : d.bufIndex = 0
  · rw [if_neg (not_and_of_not_left _ (not_not.2 hindex)), h.reset hindex, ite_self]
  · simp only [ne_eq, hindex, not_false_eq_true, true_and]

/-! ## The same runs -/

theorem interpretTransfer_matching {m : Matching} {dev : Device} (h : ∀ timestamp, m dev timestamp = matchTimestamp dev timestamp)
    (data : Buffer) (res : Int) : m.interpretTransfer dev data res = interpretTransfer dev data res := by
  simp only [interpretTransfer, Matching.interpretTransfer, Matching.interpretReport, h]

/-- Matching that agrees on every device that tracks a block. -/
def Agrees (m : Matching) : Prop :=
  ∀ {d : Device} {block : List Packet}, Tracks d block → ∀ timestamp, m d timestamp = matchTimestamp d timestamp

theorem eventLoop_matching {m : Matching} (hm : Agrees m) (deadline nanos : UInt64) (clock : Clock) (data : Buffer)
    {dev : Device} {block : List Packet} (h : Tracks dev block) (reads : List ReadResult) :
    m.eventLoop passive deadline nanos clock data dev reads = eventLoop passive deadline nanos clock data dev reads := by
  induction reads generalizing nanos clock data dev block with
  | nil => rfl
  | cons r reads ih =>
    rw [eventLoop_cons, Matching.eventLoop]
    simp only [loopTurn, interpretTransfer_matching (hm h)]
    split
    · rfl
    · obtain ⟨block', htracks⟩ := readStep_tracks h data r
      rw [interpretTransfer_step] at htracks
      cases hres : (interpretTransfer dev (data.receive r.bytes) r.res).res with
      | complete | error => rfl
      | inProgress | begin =>
        simp only [hres, exits] at htracks
        simp only [ih (clock 0) (fun i => clock (i + 1)) (data.receive r.bytes) htracks]

theorem exec_matching {m : Matching} (hm : Agrees m) {env : Env} {block : List Packet} (h : Tracks env.dev block) (op : Op) :
    m.exec passive env op = op.exec passive env := by
  cases op with
  | setImageUpdateCallback | setDeviceUserdata => rfl
  | processEventsTimeout milliseconds clock =>
    rw [Op.exec_processEventsTimeout]
    simp only [Matching.exec, Matching.processEventsTimeout, Matching.enterLoop, touchmouseProcessEventsTimeout_eq,
      enterLoop_eq, eventLoop_matching hm _ _ _ _ h]

theorem run_matching {m : Matching} (hm : Agrees m) (env : Env) {block : List Packet} (h : Tracks env.dev block)
    (ops : List Op) : m.run passive ops env = run passive ops env := by
  induction ops generalizing env block with
  | nil => rfl
  | cons op ops ih =>
    simp only [run_cons, Matching.run, exec_matching hm h op]
    cases (op.exec passive env).ret with
    | none => rfl
    | some code => simp only [ih _ (exec_refines env h op).tracks]

/-- The device in which a call begins to process a read, when `ops` were run
before it and it has taken the reads `taken`. -/
def deviceAtRead (env : Env) (ops : List Op) (taken : List ReadResult) : Device :=
  (after readStep ((run passive ops env).1.dev, .zero) taken).1

theorem deviceAtRead_tracks {env : Env} {block : List Packet} (h : Tracks env.dev block) (ops : List Op)
    (taken : List ReadResult) : ∃ block', Tracks (deviceAtRead env ops taken) block' :=
  after_invariant readStep (I := fun s => ∃ block, Tracks s.1 block) (fun s r ⟨_, h⟩ => readStep_tracks h s.2 r)
    ⟨_, (run_refines env h ops).tracks⟩ taken

/-- **The guard is complete.** Over every run from an opened device, whatever
is read: a read that finds the index 0 finds no pending run and both arrays
all zero; and the program that resets on any other timestamp has the same
runs, event by event, with the same devices in between. -/
theorem guard_complete {handle : Addr} {opened : Device} (hopen : touchmouseOpen handle = some opened)
    (ops : List Op) (reads : List ReadResult) :
    (∀ taken, let d := deviceAtRead ⟨opened, reads⟩ ops taken
      d.bufIndex = 0 → d.nextIsRunEncoded = 0 ∧ d.partialImage = .replicate 181 0 ∧ d.image = .replicate 195 0) ∧
    resetOnMismatch.run passive ops ⟨opened, reads⟩ = run passive ops ⟨opened, reads⟩ := by
  have h := opened_tracks hopen
  refine ⟨?_, run_matching (fun h => h.resetOnMismatch) ⟨opened, reads⟩ h ops⟩
  intro taken d hindex
  obtain ⟨block, htracks⟩ : ∃ block, Tracks d block := deviceAtRead_tracks h ops taken
  have hreset := htracks.reset hindex
  exact ⟨(congrArg Device.nextIsRunEncoded hreset).symm, (congrArg Device.partialImage hreset).symm,
    (congrArg Device.image hreset).symm⟩

/-- Two reports without data, of different timestamps. -/
theorem guard_complete_empty_reports :
    let env : Env := ⟨(touchmouseOpen 1).get (by decide),
      [.ofPacket ⟨1, []⟩ (by decide), .ofPacket ⟨2, []⟩ (by decide)]⟩
    resetOnMismatch.run passive [.processEventsTimeout (-1) fun _ => 1] env =
      run passive [.processEventsTimeout (-1) fun _ => 1] env :=
  (guard_complete (Option.some_get _).symm _ _).2

end TouchMouse
