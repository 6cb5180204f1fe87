import TouchMouse.Call.Own
import TouchMouse.Call.Deadline

/-!
# The timeouts of the reads

`(deadline - nanos) / 1000000` is a 64-bit quotient of an unsigned difference,
and `hid_read_timeout` takes an `int`: it sees the residue of the quotient
modulo 2^32 (`remaining_toInt`). When the deadline is far away, or has passed,
the residue depends on the reading of the clock in whole milliseconds, modulo
2^32 as well (`residue_before_end`).
-/

namespace TouchMouse

/-! ## The argument as a residue -/

/-- The residue of the milliseconds between two times of the clock. -/
def residue (difference : Nat) : Nat := difference / 1000000 % 4294967296

/-- The milliseconds of a time, counted from the nanosecond 551616 of the
first one on, modulo 2^32. -/
def wrappedMillis (nanos : Nat) : Nat := (nanos + 448384) / 1000000 % 4294967296

theorem remaining_toInt (deadline nanos : UInt64) :
    (remaining deadline nanos).toInt =
      if residue (deadline - nanos).toNat < 2147483648 then (residue (deadline - nanos).toNat : Int)
      else (residue (deadline - nanos).toNat : Int) - 4294967296 := by
  have hresidue : ((deadline - nanos) / 1000000).toUInt32.toNat = residue (deadline - nanos).toNat := by
    rw [UInt64.toNat_toUInt32, UInt64.toNat_div]
    rfl
  rw [remaining, ← Int32.toInt_toBitVec, UInt32.toBitVec_toInt32, BitVec.toInt_eq_toNat_cond, UInt32.toNat_toBitVec,
    hresidue]
  split <;> split <;> omega

/-- The argument is within a budget exactly if the residue is. -/
theorem remaining_within_iff (deadline nanos : UInt64) {milliseconds : Int32} (h : 0 ≤ milliseconds.toInt) :
    (0 ≤ remaining deadline nanos ∧ remaining deadline nanos ≤ milliseconds) ↔
      (residue (deadline - nanos).toNat : Int) ≤ milliseconds.toInt := by
  have hmax := Int32.toInt_lt milliseconds
  have hlt : residue (deadline - nanos).toNat < 4294967296 := Nat.mod_lt _ (by decide)
  rw [Int32.le_iff_toInt_le, Int32.le_iff_toInt_le, remaining_toInt]
  show (0 : Int) ≤ _ ∧ _ ↔ _
  split <;> omega

/-- Where the residue is far from the end of the 64-bit range, it counts back
from 4154504685, the residue of 2^64 - 1. -/
theorem residue_before_end {n : Nat} (h : n < 18446744073709551616) :
    residue (18446744073709551615 - n) = (8449471981 - wrappedMillis n) % 4294967296 := by
  have hquotient : (18446744073709551615 - n) / 1000000 + (n + 448384) / 1000000 = 18446744073709 := by omega
  simp only [residue, wrappedMillis]
  omega

/-! ## A negative timeout -/

/-- The readings of the clock at which the wait for ever is passed on as one:
from the 2007021038th millisecond of each period of 2^32 to the 4154504686th,
with one exception. -/
def BlocksAt (nanos : UInt64) : Prop :=
  2007021038 ≤ wrappedMillis nanos.toNat ∧ wrappedMillis nanos.toNat ≤ 4154504686 ∧
    wrappedMillis nanos.toNat ≠ 4154504685

theorem remaining_blocks_iff (nanos : UInt64) :
    (remaining (-1) nanos = -1 ∨ 0 < remaining (-1) nanos) ↔ BlocksAt nanos := by
  have hlt : wrappedMillis nanos.toNat < 4294967296 := Nat.mod_lt _ (by decide)
  have hdifference : ((-1 : UInt64) - nanos).toNat = 18446744073709551615 - nanos.toNat :=
    UInt64.toNat_sub_of_le _ _ (UInt64.le_iff_toNat_le.2 (Nat.le_of_lt_succ nanos.toNat_lt))
  have hresidue := residue_before_end nanos.toNat_lt
  rw [← hdifference] at hresidue
  rw [← Int32.toInt_inj, Int32.lt_iff_toInt_lt, remaining_toInt, hresidue, BlocksAt]
  show _ = (-1 : Int) ∨ (0 : Int) < _ ↔ _
  split <;> omega

/-- **A negative timeout blocks** exactly while the clock reads such times:
each argument passed on is -1 or positive if and only if each reading is one
of them. -/
theorem negative_timeout_blocks_iff (cbs : Callbacks) {milliseconds : Int32} (hms : milliseconds < 0) {clock : Clock}
    (hclock : ∀ i, clock i ≠ 0 ∧ clock i < 18446744073709551615) (env : Env) :
    let es := own (touchmouseProcessEventsTimeout cbs milliseconds clock env).events
    (∀ timeout ∈ hidReads es, timeout = -1 ∨ 0 < timeout) ↔ ∀ nanos ∈ clockReadings es, BlocksAt nanos := by
  intro es
  have hes : es = _ := (call_own cbs milliseconds clock env).1
  have hindex : startIndex milliseconds = 0 := if_pos hms
  have hdeadline : deadlineOf milliseconds clock = -1 := if_pos hms
  have hstart : clockReadings (startEvents milliseconds clock) = [clock 0] := by rw [startEvents, hindex]; rfl
  rcases call_cases milliseconds clock env with ⟨hbroken, -⟩ | ⟨-, -, hc⟩
  · rw [hindex, hdeadline] at hbroken
    exact absurd hbroken (not_or.2 ⟨(hclock 0).1, by decide⟩)
  · rw [hindex, hdeadline] at hc
    have hreads := eventLoop_hidReads (-1) (clock 0) (fun i => clock (i + 0 + 1)) .zero env.dev env.reads
    obtain ⟨n, hn⟩ := eventLoop_clockReadings (-1) (clock 0) (fun i => clock (i + 0 + 1)) .zero env.dev env.reads
    -- no reading is at the deadline, so each is followed by a read
    have hall : ∀ nanos ∈ (List.range n).map (fun i => clock (i + 0 + 1)), decide (nanos < (-1 : UInt64)) = true := by
      intro nanos hnanos
      obtain ⟨i, -, rfl⟩ := List.mem_map.1 hnanos
      exact decide_eq_true (hclock _).2
    dsimp only at hreads
    rw [hn, List.filter_eq_self.2 hall, ← hn] at hreads
    rw [hes, hc]
    simp only [hidReads_append, clockReadings_append, startEvents_hidReads, hstart, hreads, List.nil_append,
      List.singleton_append, List.forall_mem_map]
    exact forall₂_congr fun nanos _ => remaining_blocks_iff nanos

/-- About 34 days after the epoch of the clock the read waits. -/
theorem negative_timeout_blocks_late :
    hidReads (own (touchmouseProcessEventsTimeout passive (-1) (fun _ => 3000000000000000)
        ⟨(touchmouseOpen 1).get (by decide), []⟩).events) = [1154504685] ∧
      ∀ timeout ∈ hidReads (own (touchmouseProcessEventsTimeout passive (-1) (fun _ => 3000000000000000)
        ⟨(touchmouseOpen 1).get (by decide), []⟩).events), timeout = -1 ∨ 0 < timeout := by
  refine ⟨by decide, ?_⟩
  refine (negative_timeout_blocks_iff passive (by decide) (fun _ => by decide) _).2 ?_
  intro nanos hnanos
  obtain rfl : nanos = 3000000000000000 := List.mem_singleton.1 hnanos
  unfold BlocksAt
  decide

/-- One nanosecond after it the argument is neither -1 nor positive. -/
theorem negative_timeout_polls_early :
    ¬ ∀ timeout ∈ hidReads (own (touchmouseProcessEventsTimeout passive (-1) (fun _ => 1)
      ⟨(touchmouseOpen 1).get (by decide), []⟩).events), timeout = -1 ∨ 0 < timeout := by
  intro h
  have hreads : hidReads (own (touchmouseProcessEventsTimeout passive (-1) (fun _ => 1)
      ⟨(touchmouseOpen 1).get (by decide), []⟩).events) = [-140462611] := by decide
  rw [hreads] at h
  exact absurd (h _ (List.mem_singleton_self _)) (by decide)

/-! ## A finite timeout -/

/-- How far the second reading of the clock is past the time the first sets
as the deadline, in nanoseconds. -/
def lateness (milliseconds : Int32) (clock : Clock) : Nat :=
  (clock 1).toNat - ((clock 0).toNat + milliseconds.toInt.toNat * 1000000)

/-- The residue of the milliseconds that are left at a time up to the
deadline. -/
theorem residue_before_deadline {p n : Nat} (h : p < 4294967296 * 1000000) :
    residue (p - n) ≤ p / 1000000 := by
  rw [residue, Nat.mod_eq_of_lt (by omega)]
  omega

theorem clock_le {clock : Clock} (hmono : ∀ i, clock i ≤ clock (i + 1)) (i j : Nat) : clock i ≤ clock (i + j) := by
  induction j with
  | zero => exact UInt64.le_refl _
  | succ j ih => exact UInt64.le_trans ih (hmono (i + j))

section Finite

variable {milliseconds : Int32} (hms : 0 ≤ milliseconds) (hfits : milliseconds.toInt * 1000000 < 2147483648)
include hms hfits

theorem deadline_mod (nanos : UInt64) :
    (finiteDeadline milliseconds nanos).toNat =
      (nanos.toNat + milliseconds.toInt.toNat * 1000000) % 18446744073709551616 := by
  have hnonneg : 0 ≤ milliseconds.toInt := Int32.le_iff_toInt_le.1 hms
  apply finiteDeadline_mod hnonneg
  rw [Int32.toInt_mul, show (1000000 : Int32).toInt = 1000000 from rfl]
  rw [Int.bmod_eq_of_le] <;> omega

/-- From the first reading to the deadline the argument is what is left. -/
theorem remaining_in_time {first nanos : UInt64} (hle : first ≤ nanos)
    (hearly : nanos.toNat ≤ first.toNat + milliseconds.toInt.toNat * 1000000) :
    0 ≤ remaining (finiteDeadline milliseconds first) nanos ∧
      remaining (finiteDeadline milliseconds first) nanos ≤ milliseconds := by
  have hnonneg : 0 ≤ milliseconds.toInt := Int32.le_iff_toInt_le.1 hms
  have hle := UInt64.le_iff_toNat_le.1 hle
  have hfirst := first.toNat_lt
  have hdifference : (finiteDeadline milliseconds first - nanos).toNat =
      milliseconds.toInt.toNat * 1000000 - (nanos.toNat - first.toNat) := by
    rw [UInt64.toNat_sub, deadline_mod hms hfits]
    have := nanos.toNat_lt
    omega
  have hresidue := residue_before_deadline (p := milliseconds.toInt.toNat * 1000000) (n := nanos.toNat - first.toNat)
    (by omega)
  rw [remaining_within_iff _ _ hnonneg, hdifference]
  omega

/-- Past the deadline the difference wraps, and the argument is in the budget
only at some distances of about 48 days, modulo 2^32 ms. -/
theorem remaining_late_iff {first nanos : UInt64} {late : Nat}
    (hlate : nanos.toNat = first.toNat + milliseconds.toInt.toNat * 1000000 + (late + 1)) :
    (0 ≤ remaining (finiteDeadline milliseconds first) nanos ∧
        remaining (finiteDeadline milliseconds first) nanos ≤ milliseconds) ↔
      4154504685 ≤ wrappedMillis late + milliseconds.toInt.toNat ∧ wrappedMillis late ≤ 4154504685 := by
  have hnonneg : 0 ≤ milliseconds.toInt := Int32.le_iff_toInt_le.1 hms
  have hnanos := nanos.toNat_lt
  have hdifference : (finiteDeadline milliseconds first - nanos).toNat = 18446744073709551615 - late := by
    rw [UInt64.toNat_sub, deadline_mod hms hfits]
    omega
  have hresidue := residue_before_end (n := late) (by omega)
  have hlt : wrappedMillis late < 4294967296 := Nat.mod_lt _ (by decide)
  rw [remaining_within_iff _ _ hnonneg, hdifference, hresidue]
  omega

/-- **Finite waits stay within the budget**, for every clock that does not run
backwards and any number of turns, exactly if the second reading of the clock
is not past the deadline, or is past it by one of these distances: only the
first read can be made with an argument out of range. -/
theorem finite_wait_within_budget_iff (cbs : Callbacks) {clock : Clock} (hclock : ∀ i, clock i ≠ 0)
    (hmono : ∀ i, clock i ≤ clock (i + 1)) (env : Env) :
    (∀ timeout ∈ hidReads (own (touchmouseProcessEventsTimeout cbs milliseconds clock env).events),
        0 ≤ timeout ∧ timeout ≤ milliseconds) ↔
      lateness milliseconds clock = 0 ∨
        (4154504685 ≤ wrappedMillis (lateness milliseconds clock - 1) + milliseconds.toInt.toNat ∧
          wrappedMillis (lateness milliseconds clock - 1) ≤ 4154504685) := by
  have hneg : ¬ milliseconds < 0 := Int32.not_lt.2 hms
  have hindex : startIndex milliseconds = 1 := if_neg hneg
  have hdeadline : deadlineOf milliseconds clock = finiteDeadline milliseconds (clock 0) := if_neg hneg
  have hfirst := (clock 0).toNat_lt
  have hsecond := (clock 1).toNat_lt
  have hmod := deadline_mod hms hfits (clock 0)
  rw [(call_own cbs milliseconds clock env).1]
  rcases call_cases milliseconds clock env with ⟨hbroken, hc⟩ | ⟨-, -, hc⟩
  · -- the deadline is exactly 2^64, and the call reads nothing
    rw [hindex, hdeadline] at hbroken
    have hzero : (finiteDeadline milliseconds (clock 0)).toNat = 0 :=
      congrArg UInt64.toNat (hbroken.resolve_left (hclock 1))
    have hpos : (clock 0).toNat ≠ 0 := fun h => hclock 0 (UInt64.toNat_inj.1 h)
    rw [hc, startEvents_hidReads]
    have hearly : lateness milliseconds clock = 0 := by
      rw [lateness]
      omega
    exact ⟨fun _ => .inl hearly, fun _ timeout htimeout => nomatch htimeout⟩
  · rw [hindex, hdeadline] at hc
    have hreads := eventLoop_hidReads (finiteDeadline milliseconds (clock 0)) (clock 1) (fun i => clock (i + 1 + 1))
      .zero env.dev env.reads
    obtain ⟨n, hn⟩ := eventLoop_clockReadings (finiteDeadline milliseconds (clock 0)) (clock 1)
      (fun i => clock (i + 1 + 1)) .zero env.dev env.reads
    dsimp only at hreads
    rw [hn] at hreads
    rw [hc]
    simp only [hidReads_append, startEvents_hidReads, List.nil_append, hreads, List.map_cons, List.forall_mem_cons,
      List.mem_filter, List.mem_map, List.mem_range, decide_eq_true_eq]
    rcases Nat.eq_zero_or_pos (lateness milliseconds clock) with hearly | hpos
    · rw [lateness] at hearly
      refine ⟨fun _ => .inl hearly, fun _ => ⟨remaining_in_time hms hfits (hmono 0) (by omega), ?_⟩⟩
      rintro timeout ⟨nanos, ⟨⟨i, -, rfl⟩, hbefore⟩, rfl⟩
      have hle : clock 0 ≤ clock (i + 1 + 1) := by
        have := clock_le hmono 0 (i + 1 + 1)
        rwa [Nat.zero_add] at this
      have hbefore := UInt64.lt_iff_toNat_lt.1 hbefore
      have hle' := UInt64.le_iff_toNat_le.1 hle
      exact remaining_in_time hms hfits hle (by omega)
    · have hlate : (clock 1).toNat =
          (clock 0).toNat + milliseconds.toInt.toNat * 1000000 + ((lateness milliseconds clock - 1) + 1) := by
        rw [lateness] at hpos ⊢
        omega
      rw [remaining_late_iff hms hfits hlate]
      refine ⟨fun h => .inr h.1, fun h => ⟨h.resolve_left (by omega), ?_⟩⟩
      -- the deadline has passed at the second reading, so no turn goes on
      rintro timeout ⟨nanos, ⟨⟨i, -, rfl⟩, hbefore⟩, rfl⟩
      have hle : clock 1 ≤ clock (i + 1 + 1) := by
        have := clock_le hmono 1 (i + 1)
        rwa [Nat.add_comm 1 (i + 1)] at this
      have hbefore := UInt64.lt_iff_toNat_lt.1 hbefore
      have hle' := UInt64.le_iff_toNat_le.1 hle
      omega

end Finite

/-- A call of 5 ms on a clock that stands still. -/
theorem finite_wait_clock_still :
    hidReads (own (touchmouseProcessEventsTimeout passive 5 (fun _ => 1)
        ⟨(touchmouseOpen 1).get (by decide), [.empty]⟩).events) = [5, 5] ∧
      ∀ timeout ∈ hidReads (own (touchmouseProcessEventsTimeout passive 5 (fun _ => 1)
        ⟨(touchmouseOpen 1).get (by decide), [.empty]⟩).events), 0 ≤ timeout ∧ timeout ≤ 5 := by
  refine ⟨by decide, ?_⟩
  exact (finite_wait_within_budget_iff (by decide) (by decide) passive (fun _ => by decide) (fun _ => UInt64.le_refl _) _).2
    (.inl (by decide))

/-- With a timeout of 0 and a clock that moves on by a nanosecond between its
first two readings the argument is negative. -/
theorem finite_wait_clock_moves :
    hidReads (own (touchmouseProcessEventsTimeout passive 0 (fun i => if i = 0 then 1 else 2)
        ⟨(touchmouseOpen 1).get (by decide), []⟩).events) = [-140462611] ∧
      ¬ ∀ timeout ∈ hidReads (own (touchmouseProcessEventsTimeout passive 0 (fun i => if i = 0 then 1 else 2)
        ⟨(touchmouseOpen 1).get (by decide), []⟩).events), 0 ≤ timeout ∧ timeout ≤ 0 := by
  have hreads : hidReads (own (touchmouseProcessEventsTimeout passive 0 (fun i => if i = 0 then 1 else 2)
      ⟨(touchmouseOpen 1).get (by decide), []⟩).events) = [-140462611] := by decide
  refine ⟨hreads, fun h => ?_⟩
  rw [hreads] at h
  exact absurd (h _ (List.mem_singleton_self _)).1 (by decide)

end TouchMouse
