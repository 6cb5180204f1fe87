import TouchMouse.Concurrency.Ledger
import TouchMouse.Model.HidRead

/-!
# What becomes of a report

Over every interleaving of arrivals, flags, wake-ups and readers, on both
platforms: the reports that reads return are reports that arrived, in their
order and each once, and the only ones that no read will return are those
that a new report displaced, which happens with 32 in the list.
-/

namespace TouchMouse
open Labelled

/-! ## What a back end is relied on for -/

/-- What a stretch under the mutex can do: take the first report, give a code
that is not positive, or wait, which is only with no report and no flag. -/
inductive Section.Does (b : Backend) (dev : HidDevice) (read : HidRead) : Section → Prop where
  | takes {rpt : Report} {next : List Report} (reports : dev.inputReports = rpt :: next) :
      Does b dev read
        (.returnsData (min read.length rpt.length) (rpt.take read.length) { dev with inputReports := next })
  | gives {bytesRead : Int} (code : bytesRead = 0 ∨ bytesRead = -1) : Does b dev read (.returns bytesRead)
  | waits (empty : dev.inputReports = []) (going : b.stopped dev = false) : Does b dev read .waits

/-- What holds of both back ends. -/
structure Backend.Lawful (b : Backend) : Prop where
  enter : ∀ dev read, (b.enter dev read).Does b dev read
  resume : ∀ dev read res, (b.resume dev read res).Does b dev read
  /-- a reader that was signalled takes what is there, unless it is stopped -/
  takes : ∀ dev read, dev.inputReports ≠ [] → b.stopped dev = false →
    ∃ bytesRead data dev', b.resume dev read .ok = .returnsData bytesRead data dev'
  /-- the flags leave the reports alone, and stay -/
  flag : ∀ dev dev', b.flag dev dev' →
    dev'.inputReports = dev.inputReports ∧ (b.stopped dev = true → b.stopped dev' = true)
  /-- and are all that matters for `stopped` -/
  stopped : ∀ dev inputReports, b.stopped { dev with inputReports := inputReports } = b.stopped dev
  /-- a report that finds the list empty is signalled -/
  signals : b.signals [] = true

theorem HidDevice.returnData_eq (dev : HidDevice) (rpt : Report) (next : List Report) (length : Nat) :
    dev.returnData rpt next length =
      .returnsData (min length rpt.length) (rpt.take length) { dev with inputReports := next } := by
  have hlen : (if length < rpt.length then length else rpt.length) = min length rpt.length := by
    split <;> omega
  have htake : rpt.take (min length rpt.length) = rpt.take length := List.take_eq_take_iff.2 (by omega)
  rw [HidDevice.returnData, hlen, htake]

theorem returnData_does (b : Backend) {dev : HidDevice} {rpt : Report} {next : List Report} (read : HidRead)
    (h : dev.inputReports = rpt :: next) : (dev.returnData rpt next read.length).Does b dev read := by
  rw [HidDevice.returnData_eq]
  exact .takes h

theorem linux_blockingLoop_does (dev : HidDevice) (read : HidRead) :
    (Linux.blockingLoop dev read.length).Does Linux.backend dev read := by
  unfold Linux.blockingLoop
  split
  · next h => exact returnData_does _ read h
  · next h =>
    split
    · exact .gives (.inr rfl)
    · next hflag => exact .waits h (Bool.eq_false_iff.2 hflag)

theorem linux_timedLoop_does (dev : HidDevice) (read : HidRead) :
    (Linux.timedLoop dev).Does Linux.backend dev read := by
  unfold Linux.timedLoop
  split
  · next h => exact .waits h.1 h.2
  · exact .gives (.inr rfl)

theorem linux_lawful : Linux.backend.Lawful where
  enter dev read := by
    show (Linux.enter dev read).Does _ dev read
    unfold Linux.enter
    split
    · next h => exact returnData_does _ read h
    · split
      · exact .gives (.inr rfl)
      · split
        · exact linux_blockingLoop_does dev read
        · split
          · exact linux_timedLoop_does dev read
          · exact .gives (.inl rfl)
  resume dev read res := by
    show (Linux.resume dev read res).Does _ dev read
    unfold Linux.resume
    split
    · exact linux_blockingLoop_does dev read
    · cases res with
      | ok =>
        dsimp only
        split
        · next h => exact returnData_does _ read h
        · exact linux_timedLoop_does dev read
      | timedOut => exact .gives (.inl rfl)
      | error => exact .gives (.inr rfl)
  takes dev read hreports _ := by
    obtain ⟨rpt, next, h⟩ := List.exists_cons_of_ne_nil hreports
    show ∃ _ _ _, Linux.resume dev read .ok = _
    unfold Linux.resume Linux.blockingLoop
    rw [h]
    split <;> exact ⟨_, _, _, rfl⟩
  flag dev dev' h := by
    cases h with
    | cancelled => exact ⟨rfl, fun _ => rfl⟩
    | notSubmitted => exact ⟨rfl, id⟩
    | close => exact ⟨rfl, fun _ => rfl⟩
  stopped _ _ := rfl
  signals := rfl

theorem mac_condWait_does {dev : HidDevice} (read : HidRead) (h : Mac.backend.stopped dev = false) :
    (Mac.condWait dev read.length).Does Mac.backend dev read := by
  unfold Mac.condWait
  split
  · next hreports => exact returnData_does _ read hreports
  · next hreports => exact .waits hreports h

theorem mac_stopped_eq_false {dev : HidDevice} :
    Mac.backend.stopped dev = false ↔ ¬ (dev.shutdownThread = true ∨ dev.disconnected = true) := by
  show (dev.shutdownThread || dev.disconnected) = false ↔ _
  simp

theorem mac_lawful : Mac.backend.Lawful where
  enter dev read := by
    show (Mac.enter dev read).Does _ dev read
    unfold Mac.enter
    split
    · next h => exact returnData_does _ read h
    · split
      · exact .gives (.inr rfl)
      · split
        · exact .gives (.inr rfl)
        · next hdisconnected hshutdown =>
          have hgoing := mac_stopped_eq_false.2 (not_or.2 ⟨hshutdown, hdisconnected⟩)
          split
          · exact mac_condWait_does read hgoing
          · split
            · exact mac_condWait_does read hgoing
            · exact .gives (.inl rfl)
  resume dev read res := by
    show (Mac.resume dev read res).Does _ dev read
    cases res with
    | ok =>
      unfold Mac.resume
      dsimp only
      split
      · exact .gives (.inr rfl)
      · next h => exact mac_condWait_does read (mac_stopped_eq_false.2 h)
    | timedOut =>
      unfold Mac.resume
      dsimp only
      split
      · exact .gives (.inr rfl)
      · exact .gives (.inl rfl)
    | error => exact .gives (.inr rfl)
  takes dev read hreports hgoing := by
    obtain ⟨rpt, next, h⟩ := List.exists_cons_of_ne_nil hreports
    show ∃ _ _ _, Mac.resume dev read .ok = _
    rw [Mac.resume, if_neg (mac_stopped_eq_false.1 hgoing), Mac.condWait, h]
    exact ⟨_, _, _, rfl⟩
  flag dev dev' h := by
    cases h with
    | disconnected => exact ⟨rfl, fun _ => Bool.or_true dev.shutdownThread⟩
    | unregistered => exact ⟨rfl, id⟩
    | shutdown => exact ⟨rfl, fun _ => Bool.true_or dev.disconnected⟩
  stopped _ _ := rfl
  signals := rfl

/-- The back ends with a read thread. -/
theorem lawful_of {b : Backend} (h : b = Linux.backend ∨ b = Mac.backend) : b.Lawful := by
  rcases h with rfl | rfl
  · exact linux_lawful
  · exact mac_lawful

variable {ι : Type} {b : Backend}

theorem Turn.does (hb : b.Lawful) {s : System ι} {i : ι} {read : HidRead} {sec : Section}
    (h : Turn b s i read sec) : sec.Does b s.dev read := by
  cases h with
  | enter => exact hb.enter _ _
  | resume => exact hb.resume _ _ _

/-! ## The books of a run -/

def HidLabel.received? : HidLabel ι → Option Report
  | .received rpt _ => some rpt
  | _ => none

def HidLabel.displaced? : HidLabel ι → Option Report
  | .received _ displaced => displaced
  | _ => none

def HidLabel.returnedData? : HidLabel ι → Option (HidRead × Nat × List UInt8)
  | .returnedData _ read bytesRead data => some (read, bytesRead, data)
  | _ => none

/-- The reports that arrived, those that were displaced, and what the reads
returned as data, each in order. -/
def receivedReports (labels : List (HidLabel ι)) : List Report := labels.filterMap HidLabel.received?
def displacedReports (labels : List (HidLabel ι)) : List Report := labels.filterMap HidLabel.displaced?
def returnedData (labels : List (HidLabel ι)) : List (HidRead × Nat × List UInt8) :=
  labels.filterMap HidLabel.returnedData?

theorem receivedReports_snoc (labels : List (HidLabel ι)) (a : HidLabel ι) :
    receivedReports (labels ++ [a]) = receivedReports labels ++ a.received?.toList := filterMap_snoc _ _ _

theorem displacedReports_snoc (labels : List (HidLabel ι)) (a : HidLabel ι) :
    displacedReports (labels ++ [a]) = displacedReports labels ++ a.displaced?.toList := filterMap_snoc _ _ _

theorem returnedData_snoc (labels : List (HidLabel ι)) (a : HidLabel ι) :
    returnedData (labels ++ [a]) = returnedData labels ++ a.returnedData?.toList := filterMap_snoc _ _ _

/-- A read returned a report: as much of it as it has room for. -/
def Shows (rpt : Report) (r : HidRead × Nat × List UInt8) : Prop :=
  r.2.1 = min r.1.length rpt.length ∧ r.2.2 = rpt.take r.1.length

/-- The books that a run keeps, by its labels and the list it ends with. -/
structure Books (labels : List (HidLabel ι)) (s : System ι) (l : Ledger Report 32) : Prop where
  arrived : l.arrived = receivedReports labels
  queue : l.queue = s.dev.inputReports
  lost : l.left .lost = displacedReports labels
  read : List.Forall₂ Shows (l.left .read) (returnedData labels)

/-- A new report finds room, or displaces the oldest of 32. -/
theorem attachReport_cases {inputReports pushed : List Report} {rpt : Report} {displaced : Option Report}
    (hbound : inputReports.length ≤ 32) (h : attachReport inputReports rpt = (pushed, displaced)) :
    (inputReports.length < 32 ∧ pushed = inputReports ++ [rpt] ∧ displaced = none) ∨
      ∃ oldest rest, inputReports = oldest :: rest ∧ inputReports.length = 32 ∧ pushed = rest ++ [rpt] ∧
        displaced = some oldest := by
  cases inputReports with
  | nil =>
    obtain ⟨rfl, rfl⟩ := Prod.mk.inj h
    exact .inl ⟨by decide, rfl, rfl⟩
  | cons oldest rest =>
    rw [List.length_cons] at hbound
    rw [attachReport] at h
    split at h
    · next hfull =>
      obtain ⟨rfl, rfl⟩ := Prod.mk.inj h
      exact .inr ⟨oldest, rest, rfl, by rw [List.length_cons]; omega, rfl, rfl⟩
    · next hroom =>
      obtain ⟨rfl, rfl⟩ := Prod.mk.inj h
      exact .inl ⟨by rw [List.length_cons]; omega, rfl, rfl⟩

/-- A step that neither brings a report nor takes one leaves the books. -/
theorem Books.quiet {labels : List (HidLabel ι)} {s s' : System ι} {l : Ledger Report 32} (h : Books labels s l)
    {a : HidLabel ι} (hreceived : a.received? = none) (hdisplaced : a.displaced? = none)
    (hreturned : a.returnedData? = none) (hreports : s'.dev.inputReports = s.dev.inputReports) :
    Books (labels ++ [a]) s' l where
  arrived := by rw [receivedReports_snoc, hreceived, h.arrived, Option.toList_none, List.append_nil]
  queue := h.queue.trans hreports.symm
  lost := by rw [displacedReports_snoc, hdisplaced, h.lost, Option.toList_none, List.append_nil]
  read := by
    rw [returnedData_snoc, hreturned, Option.toList_none, List.append_nil]
    exact h.read

variable [DecidableEq ι]

/-- One step keeps the books. -/
theorem books_step (hb : b.Lawful) {labels : List (HidLabel ι)} {s s' : System ι} {a : HidLabel ι}
    (h : ∃ l, Books labels s l) (moves : HidStep b s a s') : ∃ l, Books (labels ++ [a]) s' l := by
  obtain ⟨l, h⟩ := h
  cases moves with
  | @received rpt inputReports displaced readers _ attached _ =>
    have hbound := l.bounded
    rw [h.queue] at hbound
    rcases attachReport_cases hbound attached with ⟨hroom, rfl, rfl⟩ | ⟨oldest, rest, hqueue, -, rfl, rfl⟩
    · refine ⟨l.push rpt (h.queue ▸ hroom), ⟨?_, congrArg (· ++ [rpt]) h.queue, ?_, ?_⟩⟩
      · rw [receivedReports_snoc, ← h.arrived]
        rfl
      · rw [displacedReports_snoc, ← h.lost]
        exact (List.append_nil _).symm
      · rw [returnedData_snoc]
        exact (List.append_nil _).symm ▸ h.read
    · rw [← h.queue] at hqueue
      refine ⟨l.displace rpt hqueue, ⟨?_, rfl, ?_, ?_⟩⟩
      · rw [receivedReports_snoc, ← h.arrived]
        rfl
      · rw [displacedReports_snoc, ← h.lost, Ledger.left_displace]
        rfl
      · rw [Ledger.left_displace, if_neg (by decide), List.append_nil, returnedData_snoc]
        exact (List.append_nil _).symm ▸ h.read
  | flagged flag => exact ⟨l, h.quiet rfl rfl rfl (hb.flag _ _ flag).1⟩
  | ended => exact ⟨l, h.quiet rfl rfl rfl rfl⟩
  | wakes => exact ⟨l, h.quiet rfl rfl rfl rfl⟩
  | waits => exact ⟨l, h.quiet rfl rfl rfl rfl⟩
  | returned => exact ⟨l, h.quiet rfl rfl rfl rfl⟩
  | @returnedData i read bytesRead data dev turn =>
    cases turn.does hb with
    | @takes rpt next reports =>
      rw [← h.queue] at reports
      refine ⟨l.pop reports, ⟨?_, rfl, ?_, ?_⟩⟩
      · rw [receivedReports_snoc, ← h.arrived]
        exact (List.append_nil _).symm
      · rw [displacedReports_snoc, ← h.lost, Ledger.left_pop]
        rfl
      · rw [Ledger.left_pop, if_pos rfl, returnedData_snoc]
        exact List.rel_append h.read (.cons ⟨rfl, rfl⟩ .nil)

/-- Every run keeps books. -/
theorem run_books (hb : b.Lawful) {labels : List (HidLabel ι)} {s : System ι}
    (h : Run (HidStep b) .opened labels s) : ∃ l, Books labels s l :=
  h.invariant (I := fun labels s => ∃ l, Books labels s l) ⟨.empty, rfl, rfl, rfl, .nil⟩
    (fun _ _ _ _ hbooks moves => books_step hb hbooks moves)

/-- **Reports are read in order and at most once.** Over every run, what
arrived is what was read, what was displaced, and what is still listed, in
order; each read returned its report up to its room. A report displaces
another only if 32 were listed. -/
theorem reports_read_in_order (hb : b = Linux.backend ∨ b = Mac.backend) {labels : List (HidLabel ι)} {s : System ι}
    (h : Run (HidStep b) .opened labels s) :
    (∃ l, Books labels s l) ∧
      ∀ before rpt oldest later, labels = before ++ .received rpt (some oldest) :: later →
        (receivedReports before).length = (returnedData before).length + (displacedReports before).length + 32 := by
  have hlawful := lawful_of hb
  refine ⟨run_books hlawful h, ?_⟩
  rintro before rpt oldest later rfl
  obtain ⟨mid, hbefore, hlater⟩ := h.split
  obtain ⟨next, hmoves, -⟩ := hlater.head
  obtain ⟨l, hbooks⟩ := run_books hlawful hbefore
  have hfull : l.queue.length = 32 := by
    cases hmoves with
    | received _ attached _ =>
      rw [hbooks.queue]
      rcases attachReport_cases (hbooks.queue ▸ l.bounded) attached with ⟨-, -, hnone⟩ | ⟨_, _, -, hfull, -⟩
      · cases hnone
      · exact hfull
  have hlength := l.length_arrived
  rw [hbooks.arrived, hbooks.lost, hbooks.read.length_eq, hfull] at hlength
  exact hlength

/-! Runs on Linux with one reader, which does not wait. -/

/-- A device with these reports in its list. -/
def System.listing (inputReports : List Report) : System Unit :=
  { (.opened : System Unit) with dev := ⟨inputReports, false, false, true⟩ }

theorem linux_received {inputReports pushed : List Report} {rpt : Report} {displaced : Option Report}
    (h : attachReport inputReports rpt = (pushed, displaced)) :
    HidStep Linux.backend (.listing inputReports) (.received rpt displaced) (.listing pushed) := by
  refine .received rfl h ?_
  split
  · exact ⟨fun _ => .inl rfl, fun hasleep => absurd hasleep.choose_spec id⟩
  · rfl

theorem linux_returnedData (rpt : Report) (next : List Report) (read : HidRead) :
    HidStep Linux.backend (.listing (rpt :: next))
      (.returnedData () read (min read.length rpt.length) (rpt.take read.length)) (.listing next) := by
  have turn : Turn Linux.backend (.listing (rpt :: next)) () read
      (.returnsData (min read.length rpt.length) (rpt.take read.length) ⟨next, false, false, true⟩) := by
    have hreturns := HidDevice.returnData_eq (System.listing (rpt :: next)).dev rpt next read.length
    exact hreturns ▸ .enter rfl
  have hreturned := HidStep.returnedData turn
  rwa [show Function.update (System.listing (rpt :: next)).readers () .idle = _ from Function.update_eq_self () _] at hreturned

/-- Reports come while there is room. -/
theorem linux_fills (inputReports rpts : List Report) (hroom : inputReports.length + rpts.length ≤ 32) :
    Run (HidStep Linux.backend) (.listing inputReports) (rpts.map fun rpt => .received rpt none)
      (.listing (inputReports ++ rpts)) := by
  induction rpts generalizing inputReports with
  | nil =>
    rw [List.append_nil]
    exact .start
  | cons rpt rpts ih =>
    rw [List.length_cons] at hroom
    have hattach : attachReport inputReports rpt = (inputReports ++ [rpt], none) := by
      rcases attachReport_cases (by omega) (rfl : attachReport inputReports rpt = (_, _)) with ⟨-, hpushed, hnone⟩ | ⟨_, _, -, hfull, -⟩
      · exact Prod.ext hpushed hnone
      · omega
    have hrest := ih (inputReports ++ [rpt]) (by rw [List.length_append, List.length_singleton]; omega)
    rw [List.append_assoc, List.singleton_append] at hrest
    exact .cons (linux_received hattach) hrest

/-- A report comes, and a read takes it. -/
theorem linux_one_report (rpt : Report) (read : HidRead) :
    Run (HidStep Linux.backend) (.opened : System Unit)
      [.received rpt none, .returnedData () read (min read.length rpt.length) (rpt.take read.length)] .opened :=
  .cons (linux_received rfl) (.single (linux_returnedData rpt [] read))

/-- Thirty-three reports come, of which the last displaces the first, and the
second is read. -/
def fullLabels : List (HidLabel Unit) :=
  (List.range 32).map (fun i => .received [.ofNat i, 7] none) ++
    [.received [32, 7] (some [0, 7]), .returnedData () ⟨1, 0⟩ 1 [1]]

/-- What is left in the list then. -/
def fullLeft : List Report := (List.range' 2 31).map fun i => [.ofNat i, 7]

theorem fullLabels_run : Run (HidStep Linux.backend) .opened fullLabels (.listing fullLeft) := by
  have hfills := linux_fills [] ((List.range 32).map fun i => [.ofNat i, 7]) (by decide)
  rw [List.map_map] at hfills
  exact hfills.append (.cons (linux_received (by decide)) (.single (linux_returnedData [1, 7] fullLeft ⟨1, 0⟩)))

theorem reports_read_in_order_full :
    (∃ l, Books fullLabels (.listing fullLeft) l) ∧
      ∀ before rpt oldest later, fullLabels = before ++ .received rpt (some oldest) :: later →
        (receivedReports before).length = (returnedData before).length + (displacedReports before).length + 32 :=
  reports_read_in_order (.inl rfl) fullLabels_run

end TouchMouse
