import TouchMouse.Call.Trace
import TouchMouse.Report.Refine

/-!
# Runs

Runs of calls from a device whose decoder tracks a block, with callbacks that
leave the device alone: the reports the run reads go through the reassembler
of `Stream.Reassembly` one by one, whatever the calls do in between
(`run_tracks`). Every reachable device tracks some block
(`Reachable.tracks`), so what holds of the reassembler holds of every run.
-/

namespace TouchMouse
open Transducer Reassembly

/-! ## The reports of a trace -/

def Signal.report? : Signal → Option Packet
  | .report p => some p
  | _ => none

/-- The touch reports that a trace shows, with the bytes taken as their data. -/
def reports (ss : List Signal) : List Packet := ss.filterMap Signal.report?

@[simp] theorem reports_append (ss ts : List Signal) : reports (ss ++ ts) = reports ss ++ reports ts :=
  List.filterMap_append

theorem reports_exits (timestamp : UInt8) (r : Device × DecoderState) : reports (exits timestamp r).2 = [] := by
  obtain ⟨dev, res⟩ := r
  cases res <;> rfl

/-- The steps of reports show them. -/
theorem reports_outputs (dev : Device) (ps : List Packet) : reports (outputs reportStep dev ps) = ps := by
  induction ps generalizing dev with
  | nil => rfl
  | cons p ps ih =>
    have hone : reports (reportStep dev p).2 = [p] := congrArg (p :: ·) (reports_exits p.key _)
    rw [outputs_cons, reports_append, hone, ih]
    rfl

/-- A read is the reports it shows. -/
theorem readStep_reports (s : Device × Buffer) (r : ReadResult) :
    ∃ ps, (readStep s r).1.1 = after reportStep s.1 ps ∧ (readStep s r).2 = outputs reportStep s.1 ps := by
  by_cases h : IsTouchReport (s.2.receive r.bytes) r.res
  · exact ⟨[(s.2.receive r.bytes).packet], by simp [readStep, h]⟩
  · exact ⟨[], by simp [readStep, h]⟩

/-- So is a list of reads. -/
theorem readStep_fold_reports (s : Device × Buffer) (rs : List ReadResult) :
    (after readStep s rs).1 = after reportStep s.1 (reports (outputs readStep s rs)) ∧
      outputs readStep s rs = outputs reportStep s.1 (reports (outputs readStep s rs)) := by
  induction rs generalizing s with
  | nil => exact ⟨rfl, rfl⟩
  | cons r rs ih =>
    obtain ⟨ps, hdev, hout⟩ := readStep_reports s r
    obtain ⟨hdev', hout'⟩ := ih (readStep s r).1
    rw [outputs_cons, reports_append, hout, reports_outputs, after_append, outputs_append, after_cons, ← hdev]
    exact ⟨hdev', congrArg _ hout'⟩

/-- In range, what the reads show is what the reassembler makes of their
reports. -/
theorem reads_refine {d : Device} {block : List Packet} (h : Tracks d block) (data : Buffer) {rs : List ReadResult}
    (hrange : ∀ r ∈ rs, r.InRange) :
    outputs readStep (d, data) rs =
      (outputs (step frameReader) block (touchReports rs)).flatMap emissionSignals := by
  rw [(readStep_fold d data hrange).2, (reports_refine h _).2]

/-! ## One operation -/

theorem Tracks.setImageUpdateCallback {d : Device} {block : List Packet} (h : Tracks d block) (callback : Addr) :
    Tracks (touchmouseSetImageUpdateCallback d callback) block where
  stream := congrArg (touchmouseSetImageUpdateCallback · callback) h.stream
  collecting := h.collecting
  timestamp := h.timestamp

theorem Tracks.setDeviceUserdata {d : Device} {block : List Packet} (h : Tracks d block) (userdata : Addr) :
    Tracks (touchmouseSetDeviceUserdata d userdata) block where
  stream := congrArg (touchmouseSetDeviceUserdata · userdata) h.stream
  collecting := h.collecting
  timestamp := h.timestamp

/-- A trace takes the device from tracking one block to tracking another, as
the reassembler does with the trace's reports. -/
structure Refines (block : List Packet) (env env' : Env) (es : List Event) : Prop where
  tracks : Tracks env'.dev (after (step frameReader) block (reports (signals es)))
  shows : signals es = (outputs (step frameReader) block (reports (signals es))).flatMap emissionSignals
  reads : received es ++ env'.reads = env.reads

/-- One operation, returned or not. -/
theorem exec_refines (env : Env) {block : List Packet} (h : Tracks env.dev block) (op : Op) :
    Refines block env (op.exec passive env).env (op.exec passive env).events := by
  cases op with
  | setImageUpdateCallback callback => exact ⟨h.setImageUpdateCallback callback, rfl, rfl⟩
  | setDeviceUserdata userdata => exact ⟨h.setDeviceUserdata userdata, rfl, rfl⟩
  | processEventsTimeout milliseconds clock =>
    obtain ⟨hdev, hsig, hreads⟩ := call_fold milliseconds clock env
    rw [Op.exec_processEventsTimeout]
    generalize touchmouseProcessEventsTimeout passive milliseconds clock env = c at *
    obtain ⟨hdev', hsig'⟩ := readStep_fold_reports (env.dev, .zero) (received c.events)
    rw [← hsig] at hdev' hsig'
    obtain ⟨htracks, hout⟩ := reports_refine h (reports (signals c.events))
    exact ⟨by rw [hdev, hdev']; exact htracks, hsig'.trans hout, hreads⟩

/-! ## Runs -/

/-- The induction behind every statement about runs: over the operations, each
of which either waits for ever or returns to the rest of the run. -/
theorem run_induction {cbs : Callbacks} (ok : Op → Prop) (M : Env → Ran → Prop) (start : ∀ env, M env ⟨env, [], true⟩)
    (waits : ∀ env op, ok op → M env ⟨(op.exec cbs env).env, (op.exec cbs env).events, false⟩)
    (returns : ∀ env op code rest, ok op → (op.exec cbs env).ret = some code → M (op.exec cbs env).env rest →
      M env ⟨rest.1, (op.exec cbs env).events ++ .returned code :: rest.2, rest.returned⟩)
    {ops : List Op} (hops : ∀ op ∈ ops, ok op) (env : Env) : M env (run cbs ops env) := by
  induction ops generalizing env with
  | nil => exact start env
  | cons op ops ih =>
    have hop : ok op := hops op (by simp)
    cases hret : (op.exec cbs env).ret with
    | none => simpa only [run_cons, hret] using waits env op hop
    | some code =>
      simpa only [run_cons, hret] using returns env op code _ hop hret (ih (fun o ho => hops o (by simp [ho])) _)

theorem signals_returned (code : Int) (es : List Event) : signals (.returned code :: es) = signals es := rfl
theorem received_returned (code : Int) (es : List Event) : received (.returned code :: es) = received es := rfl

/-- **A run refines the reassembler.** -/
theorem run_refines (env : Env) {block : List Packet} (h : Tracks env.dev block) (ops : List Op) :
    Refines block env (run passive ops env).1 (run passive ops env).2 := by
  refine run_induction (fun _ => True) (fun env r => ∀ block, Tracks env.dev block → Refines block env r.1 r.2)
    (fun env block h => ⟨h, rfl, rfl⟩) (fun env op _ block h => exec_refines env h op) ?_ (fun _ _ => trivial) env block h
  intro env op code rest _ _ ih block h
  have hop := exec_refines env h op
  have hrest := ih _ hop.tracks
  refine ⟨?_, ?_, ?_⟩
  · rw [signals_append, signals_returned, reports_append, after_append]
    exact hrest.tracks
  · rw [signals_append, signals_returned, reports_append, outputs_append, List.flatMap_append, ← hop.shows,
      ← hrest.shows]
  · rw [received_append, received_returned, List.append_assoc, hrest.reads, hop.reads]

/-- An opened device tracks the empty block. -/
theorem opened_tracks {handle : Addr} {d : Device} (h : touchmouseOpen handle = some d) : Tracks d [] := by
  unfold touchmouseOpen at h
  split at h
  · cases h
  · cases h
    exact tracks_reset rfl

/-- Every reachable device tracks some block. -/
theorem Reachable.tracks {d : Device} (h : Reachable d) : ∃ block, Tracks d block := by
  obtain ⟨handle, opened, ops, reads, hopen, rfl⟩ := h
  exact ⟨_, (run_refines _ (opened_tracks hopen) ops).tracks⟩

/-! ## Reads in range -/

theorem touchReports_append (rs rs' : List ReadResult) :
    touchReports (rs ++ rs') = touchReports rs ++ touchReports rs' := List.filterMap_append

/-- In range, an operation shows the touch reports it was given. -/
theorem exec_reports (env : Env) (op : Op) (h : ∀ r ∈ received (op.exec passive env).events, r.InRange) :
    reports (signals (op.exec passive env).events) = touchReports (received (op.exec passive env).events) := by
  cases op with
  | setImageUpdateCallback callback => rfl
  | setDeviceUserdata userdata => rfl
  | processEventsTimeout milliseconds clock =>
    rw [Op.exec_processEventsTimeout] at h ⊢
    rw [(call_fold milliseconds clock env).2.1, (readStep_fold env.dev .zero h).2, reports_outputs]

/-- And so does a run. -/
theorem run_reports (env : Env) (ops : List Op) (h : ∀ r ∈ received (run passive ops env).2, r.InRange) :
    reports (signals (run passive ops env).2) = touchReports (received (run passive ops env).2) := by
  refine run_induction (fun _ => True) (fun _ r => (∀ q ∈ received r.2, q.InRange) →
      reports (signals r.2) = touchReports (received r.2))
    (fun _ _ => rfl) (fun env op _ h => exec_reports env op h) ?_ (fun _ _ => trivial) env h
  intro env op code rest _ _ ih h
  rw [received_append, received_returned] at h ⊢
  have hop := exec_reports env op fun r hr => h r (List.mem_append_left _ hr)
  have hrest := ih fun r hr => h r (List.mem_append_right _ hr)
  rw [signals_append, signals_returned, reports_append, touchReports_append, hop, hrest]

/-- The reads that a run received are in range if those it was given are. -/
theorem Refines.inRange {block : List Packet} {env env' : Env} {es : List Event} (h : Refines block env env' es)
    (hrange : ∀ r ∈ env.reads, r.InRange) : ∀ r ∈ received es, r.InRange := by
  intro r hr
  apply hrange
  rw [← h.reads]
  exact List.mem_append_left _ hr

end TouchMouse
