import TouchMouse.Concurrency.Ledger
import TouchMouse.Model.OverlappedRead

/-!
# One `ReadFile` over many calls

Over every run each report that a `ReadFile` read is returned by one call, in
order, however many calls came to their timeout before. What `memcpy` does is
right for one length only: a longer one reads past the end of `read_buf`, and
with a shorter one the call returns more than was asked for.
-/

namespace TouchMouse
namespace Windows
open Labelled

variable {n : Nat}

/-! ## The buffer -/

theorem take_overwrite (readBuf : Vector UInt8 n) {rpt : Report} (h : rpt.length ≤ n) :
    rpt <+: (overwrite readBuf rpt).toList := by
  rw [List.prefix_iff_getElem]
  refine ⟨by rw [Vector.length_toList]; exact h, fun i hi => ?_⟩
  rw [Vector.getElem_toList, overwrite, Vector.getElem_ofFn, List.getElem?_eq_getElem hi]
  rfl

/-- Where the report in the buffer starts: the byte 0 that is no report number
is passed over. -/
def skip (rpt : Report) : Nat := if rpt[0]? = some 0 then 1 else 0

/-- A call returned a report, as much of it as it has room for. -/
structure Shows (rpt : Report) (r : HidRead × Nat × List UInt8 × Nat) : Prop where
  bytesRead : r.2.1 = rpt.length - skip rpt
  data : r.2.2.1.take r.2.1 = (rpt.drop (skip rpt)).take r.1.length
  upTo : r.2.2.2 = if rpt = [] then 0 else skip rpt + r.1.length

def Label.returned? : Label → Option (HidRead × Nat × List UInt8 × Nat)
  | .returned read bytesRead data upTo => some (read, bytesRead, data, upTo)
  | _ => none

def Label.completed? : Label → Option Report
  | .completed rpt => some rpt
  | _ => none

theorem take_take_append {α : Type} (u v : List α) (l : Nat) : ((u ++ v).take l).take u.length = u.take l := by
  rw [List.take_take, Nat.min_comm, ← List.take_take, List.take_left]

/-- The end of a call shows the report in the buffer. -/
theorem finish_shows {readBuf : Vector UInt8 n} {rpt : Report} (h : rpt <+: readBuf.toList) (read : HidRead) :
    ∃ r, (finish readBuf rpt.length read).returned? = some r ∧ r.1 = read ∧ Shows rpt r ∧
      (finish readBuf rpt.length read).completed? = none := by
  obtain ⟨rest, hrest⟩ := h
  unfold finish
  split
  · next hpos =>
    have hne : rpt ≠ [] := List.ne_nil_of_length_pos hpos
    have hfirst : readBuf[0]? = rpt[0]? := by
      rw [← Vector.getElem?_toList, ← hrest, List.getElem?_append_left hpos]
    rw [hfirst]
    split
    · next hzero =>
      have hskip : skip rpt = 1 := if_pos hzero
      have hdrop : readBuf.toList.drop 1 = rpt.drop 1 ++ rest := by rw [← hrest, List.drop_append_of_le_length hpos]
      have hlength : rpt.length - 1 = (rpt.drop 1).length := (List.length_drop ..).symm
      refine ⟨_, rfl, rfl, ⟨by rw [hskip], ?_, by rw [if_neg hne, hskip]⟩, rfl⟩
      rw [hskip, hdrop, hlength]
      exact take_take_append _ _ _
    · next hzero =>
      have hskip : skip rpt = 0 := if_neg hzero
      refine ⟨_, rfl, rfl, ⟨by rw [hskip]; rfl, ?_, by rw [if_neg hne, hskip, Nat.zero_add]⟩, rfl⟩
      rw [hskip, ← hrest]
      exact take_take_append _ _ _
  · next hpos =>
    obtain rfl : rpt = [] := List.length_eq_zero_iff.1 (Nat.eq_zero_of_not_pos hpos)
    exact ⟨_, rfl, rfl, ⟨rfl, (List.take_nil).trans (List.take_nil).symm, rfl⟩, rfl⟩

/-! ## The books of a run -/

/-- What the `ReadFile`s read, and what the calls returned, each in order. -/
def completedReports (labels : List Label) : List Report := labels.filterMap Label.completed?
def returns (labels : List Label) : List (HidRead × Nat × List UInt8 × Nat) := labels.filterMap Label.returned?

theorem completedReports_snoc (labels : List Label) (a : Label) :
    completedReports (labels ++ [a]) = completedReports labels ++ a.completed?.toList := filterMap_snoc _ _ _

theorem returns_snoc (labels : List Label) (a : Label) :
    returns (labels ++ [a]) = returns labels ++ a.returned?.toList := filterMap_snoc _ _ _

/-- What waits in the buffer. -/
def Waits (s : State n) (queue : List Report) : Prop :=
  match s.ol with
  | .done (some bytesRead) => ∃ rpt, queue = [rpt] ∧ rpt.length = bytesRead ∧ rpt <+: s.readBuf.toList
  | _ => queue = []

structure Books (labels : List Label) (s : State n) (l : Ledger Report 1) : Prop where
  arrived : l.arrived = completedReports labels
  lossless : l.left .lost = []
  read : List.Forall₂ Shows (l.left .read) (returns labels)
  waits : Waits s l.queue
  pending : s.readPending = false → s.ol = .none

theorem Books.quiet {labels : List Label} {s s' : State n} {l : Ledger Report 1} (h : Books labels s l) {a : Label}
    (hcompleted : a.completed? = none) (hreturned : a.returned? = none) (hwaits : Waits s' l.queue)
    (hpending : s'.readPending = false → s'.ol = .none) : Books (labels ++ [a]) s' l where
  arrived := by rw [completedReports_snoc, hcompleted, h.arrived, Option.toList_none, List.append_nil]
  lossless := h.lossless
  read := by
    rw [returns_snoc, hreturned, Option.toList_none, List.append_nil]
    exact h.read
  waits := hwaits
  pending := hpending

theorem books_step {labels : List Label} {s s' : State n} {a : Label} (h : ∃ l, Books labels s l)
    (moves : Step s a s') : ∃ l, Books (labels ++ [a]) s' l := by
  obtain ⟨l, h⟩ := h
  have hwaits := h.waits
  cases moves with
  | starts _ pending =>
    rw [Waits, h.pending pending] at hwaits
    exact ⟨l, h.quiet rfl rfl hwaits nofun⟩
  | finds | timedOut => exact ⟨l, h.quiet rfl rfl hwaits h.pending⟩
  | refused => exact ⟨l, h.quiet rfl rfl hwaits h.pending⟩
  | @completed rpt pending fits =>
    rw [Waits, pending] at hwaits
    have hroom : l.queue.length < 1 := by rw [hwaits]; exact Nat.zero_lt_one
    refine ⟨l.push rpt hroom, ⟨?_, h.lossless, ?_, ?_, fun hfree => ?_⟩⟩
    · rw [completedReports_snoc, ← h.arrived]
      rfl
    · rw [returns_snoc]
      exact (List.append_nil _).symm ▸ h.read
    · exact ⟨rpt, congrArg (· ++ [rpt]) hwaits, rfl, take_overwrite s.readBuf fits⟩
    · have hnone := h.pending hfree
      rw [pending] at hnone
      cases hnone
  | failed pending =>
    rw [Waits, pending] at hwaits
    refine ⟨l, h.quiet rfl rfl hwaits fun hfree => ?_⟩
    have hnone := h.pending hfree
    rw [pending] at hnone
    cases hnone
  | @returned read bytesRead _ done =>
    rw [Waits, done] at hwaits
    obtain ⟨rpt, hqueue, rfl, hprefix⟩ := hwaits
    obtain ⟨r, hreturned, -, hshows, hcompleted⟩ := finish_shows hprefix read
    refine ⟨l.pop hqueue, ⟨?_, ?_, ?_, rfl, fun _ => rfl⟩⟩
    · rw [completedReports_snoc, hcompleted, Option.toList_none, List.append_nil, ← h.arrived]
      rfl
    · rw [Ledger.left_pop, h.lossless]
      rfl
    · rw [Ledger.left_pop, if_pos rfl, returns_snoc, hreturned]
      exact List.rel_append h.read (.cons hshows .nil)
  | errored _ done =>
    rw [Waits, done] at hwaits
    exact ⟨l, h.quiet rfl rfl hwaits fun _ => rfl⟩

theorem run_books {readBuf : Vector UInt8 n} {labels : List Label} {s : State n}
    (h : Run Step (.opened readBuf) labels s) : ∃ l, Books labels s l := by
  have hstart : ∃ l, Books [] (.opened readBuf) l := ⟨.empty, rfl, rfl, .nil, rfl, fun _ => rfl⟩
  exact h.invariant (I := fun labels s => ∃ l, Books labels s l) hstart fun _ _ _ _ hbooks moves =>
    books_step hbooks moves

/-- **Timeouts lose nothing.** Over every run, the reports that the
`ReadFile`s read are those that the calls returned, in order and each once,
and one at most that waits in `read_buf` for the next call. -/
theorem overlapped_reads_in_order {readBuf : Vector UInt8 n} {labels : List Label} {s : State n}
    (h : Run Step (.opened readBuf) labels s) :
    ∃ shown waiting, completedReports labels = shown ++ waiting ∧ List.Forall₂ Shows shown (returns labels) ∧
      waiting.length ≤ 1 ∧ Waits s waiting := by
  obtain ⟨l, hbooks⟩ := run_books h
  exact ⟨l.left .read, l.queue, hbooks.arrived.symm.trans (l.lossless hbooks.lossless), hbooks.read, l.bounded,
    hbooks.waits⟩

/-- A call comes to its timeout, and the next one returns the report. -/
def oneReport (read : HidRead) (readBuf : Vector UInt8 n) (rpt : Report) : List Label :=
  [.called read, .timedOut read, .completed rpt, .called read] ++ [finish (overwrite readBuf rpt) rpt.length read]

theorem oneReport_run (read : HidRead) (hread : 0 ≤ read.milliseconds) (readBuf : Vector UInt8 n) (rpt : Report)
    (hrpt : rpt.length ≤ n) :
    Run Step (.opened readBuf) (oneReport read readBuf rpt) (.opened (overwrite readBuf rpt)) :=
  .cons (.starts rfl rfl) (.cons (.timedOut rfl hread) (.cons (.completed rfl hrpt) (.cons (.finds rfl rfl)
    (.single (.returned rfl rfl)))))

theorem overlapped_reads_in_order_one :
    ∃ shown waiting, [[0x27, 5]] = shown ++ waiting ∧
      List.Forall₂ Shows shown [(⟨255, 10⟩, 2, [0x27, 5], 255)] ∧ waiting.length ≤ 1 := by
  have hrun := oneReport_run ⟨255, 10⟩ (by decide) (Vector.replicate 2 0) [0x27, 5] (by decide)
  obtain ⟨shown, waiting, hall, hshown, hwaiting, -⟩ := overlapped_reads_in_order hrun
  exact ⟨shown, waiting, hall, hshown, hwaiting⟩

/-! ## The length of a call -/

/-- Every copy of a call stays in `read_buf`, and no call returns more than it
was asked for. -/
def Exact (n : Nat) (labels : List Label) : Prop := ∀ r ∈ returns labels, r.2.2.2 ≤ n ∧ r.2.1 ≤ r.1.length

theorem fits_of_run {readBuf : Vector UInt8 n} {labels : List Label} {s : State n}
    (h : Run Step (.opened readBuf) labels s) : ∀ rpt ∈ completedReports labels, rpt.length ≤ n := by
  refine h.invariant (I := fun labels _ => ∀ rpt ∈ completedReports labels, rpt.length ≤ n) (by simp [completedReports]) ?_
  intro labels s a s' hfits moves rpt hmem
  rw [completedReports_snoc] at hmem
  rcases List.mem_append.1 hmem with hmem | hmem
  · exact hfits rpt hmem
  · cases moves with
    | completed _ fits =>
      obtain rfl := List.mem_singleton.1 hmem
      exact fits
    | @returned read bytesRead =>
      unfold finish at hmem
      split at hmem
      · split at hmem <;> cases hmem
      · cases hmem
    | _ => cases hmem

/-- **The length that fits.** Where the reports carry their numbers, that the
calls with room for `length` bytes stay in `read_buf` and return no more than
that, in every run, is exactly that `length` is the size of `read_buf`, or
that there is nothing to read. -/
theorem overlapped_reads_exact_iff (n length : Nat) :
    (∀ (readBuf : Vector UInt8 n) labels s, Run Step (.opened readBuf) labels s →
        (∀ rpt ∈ completedReports labels, rpt[0]? ≠ some 0) → (∀ r ∈ returns labels, r.1.length = length) →
        Exact n labels) ↔
      length = n ∨ n = 0 := by
  constructor
  · intro h
    rcases Nat.eq_zero_or_pos n with hzero | hn
    · exact .inr hzero
    -- the longest report, and a call that returns it
    let rpt : Report := List.replicate n 1
    let buf : Vector UInt8 n := Vector.replicate n 0
    let read : HidRead := ⟨length, 0⟩
    have hlength : rpt.length = n := List.length_replicate
    have hfirst : rpt[0]? = some 1 := by rw [List.getElem?_replicate, if_pos hn]
    have hrun := oneReport_run read (Int32.le_refl 0) buf rpt (Nat.le_of_eq hlength)
    obtain ⟨r, hreturned, hread, hshows, hcompleted⟩ :=
      finish_shows (take_overwrite buf (Nat.le_of_eq hlength)) read
    have hreturns : returns (oneReport read buf rpt) = [r] := by
      rw [oneReport, returns_snoc, hreturned]
      rfl
    have hreports : completedReports (oneReport read buf rpt) = [rpt] := by
      rw [oneReport, completedReports_snoc, hcompleted]
      rfl
    have hnumbered : ∀ rpt' ∈ completedReports (oneReport read buf rpt), rpt'[0]? ≠ some 0 := by
      rw [hreports, List.forall_mem_singleton, hfirst]
      decide
    have hlengths : ∀ r' ∈ returns (oneReport read buf rpt), r'.1.length = length := by
      rw [hreturns, List.forall_mem_singleton, hread]
    obtain ⟨hupTo, hbytesRead⟩ := h _ _ _ hrun hnumbered hlengths r (by rw [hreturns]; exact List.mem_singleton_self r)
    have hskip : skip rpt = 0 := if_neg (by rw [hfirst]; decide)
    have hne : rpt ≠ [] := List.ne_nil_of_length_pos (by rw [hlength]; exact hn)
    rw [hshows.upTo, if_neg hne, hskip, hread, Nat.zero_add] at hupTo
    rw [hshows.bytesRead, hskip, hlength, hread, Nat.sub_zero] at hbytesRead
    exact .inl (Nat.le_antisymm hupTo hbytesRead)
  · intro hn readBuf labels s hrun hnumbered hlengths r hr
    obtain ⟨l, hbooks⟩ := run_books hrun
    obtain ⟨rpt, hmem, hshows⟩ : ∃ rpt ∈ l.left .read, Shows rpt r := by
      obtain ⟨i, hi, rfl⟩ := List.getElem_of_mem hr
      have hlt : i < (l.left .read).length := by rw [hbooks.read.length_eq]; exact hi
      exact ⟨(l.left .read)[i], List.getElem_mem hlt, hbooks.read.get hlt hi⟩
    have harrived : rpt ∈ completedReports labels := by
      rw [← hbooks.arrived]
      exact l.read_sublist.subset hmem
    have hfits := fits_of_run hrun rpt harrived
    have hskip : skip rpt = 0 := if_neg (hnumbered rpt harrived)
    rw [hshows.upTo, hshows.bytesRead, hskip, hlengths r hr]
    rcases hn with rfl | hzero
    · split <;> omega
    · have hnil : rpt = [] := List.length_eq_zero_iff.1 (by omega)
      rw [if_pos hnil, hnil]
      exact ⟨Nat.zero_le n, Nat.zero_le length⟩

end Windows
end TouchMouse
