import Mathlib.Order.Fin.Basic
import TouchMouse.Model.MonoTimer
import TouchMouse.Timer.Scaling

/-!
# The timer is exact while its product fits

A platform has a counter with constants, the order its readings come in, and
the nanoseconds a reading stands for. On Linux the timer returns them; on the
others it multiplies first, and returns them exactly if the product fits the
word it is made in (`monoTimerNanos_eq_iff`). The timer runs true over a
sequence of readings exactly if that is so at each of them.
-/

namespace TouchMouse

/-- A platform, with the constants of its counter. -/
inductive Platform where
  | windows (freq : Int64) (hfreq : 0 < freq)
  | apple (info : MachTimebaseInfo) (hnumer : 0 < info.numer) (hdenom : 0 < info.denom)
  | linux

/-- `CLOCK_MONOTONIC` starts at 0 and its nanoseconds are a fraction of a
second. -/
def Timespec.IsMonotonicTime (ts : Timespec) : Prop :=
  0 ≤ ts.tvSec ∧ 0 ≤ ts.tvNsec ∧ ts.tvNsec < 1000000000

theorem Timespec.IsMonotonicTime.toInt {ts : Timespec} (h : ts.IsMonotonicTime) :
    0 ≤ ts.tvSec.toInt ∧ 0 ≤ ts.tvNsec.toInt ∧ ts.tvNsec.toInt < 1000000000 :=
  ⟨Int64.le_iff_toInt_le.1 h.1, Int64.le_iff_toInt_le.1 h.2.1, Int64.lt_iff_toInt_lt.1 h.2.2⟩

/-- A value of `mach_absolute_time`. -/
structure Ticks where
  val : UInt64

namespace Platform

/-- The values of the counter. -/
def Reading : Platform → Type
  | windows .. => { count : Int64 // 0 ≤ count }
  | apple .. => Ticks
  | linux => { ts : Timespec // ts.IsMonotonicTime }

/-- One reading is not later than another. -/
def NotLater : (p : Platform) → p.Reading → p.Reading → Prop
  | windows _ _, count, count' => count.val ≤ count'.val
  | apple _ _ _, ticks, ticks' => ticks.val ≤ ticks'.val
  | linux, ts, ts' =>
    ts.val.tvSec < ts'.val.tvSec ∨ ts.val.tvSec = ts'.val.tvSec ∧ ts.val.tvNsec ≤ ts'.val.tvNsec

/-- The nanoseconds a reading stands for, rounded down. -/
def nanos : (p : Platform) → p.Reading → Nat
  | windows freq _, count => count.val.toInt.toNat * 1000000000 / freq.toInt.toNat
  | apple info _ _, ticks => ticks.val.toNat * info.numer.toNat / info.denom.toNat
  | linux, ts => ts.val.tvSec.toInt.toNat * 1000000000 + ts.val.tvNsec.toInt.toNat

/-- What the timer returns at a reading. -/
def monoTimerNanos : (p : Platform) → p.Reading → UInt64
  | windows freq _, count => Windows.monoTimerNanos (some freq) (some count.val)
  | apple info _ _, ticks => Apple.monoTimerNanos info ticks.val
  | linux, ts => Linux.monoTimerNanos (some ts.val)

/-- The product on the way is not wrapped. -/
def ProductExact : (p : Platform) → p.Reading → Prop
  | windows _ _, count => (count.val * 1000000000).toInt = count.val.toInt * 1000000000
  | apple info _ _, ticks => (ticks.val * info.numer.toUInt64).toNat = ticks.val.toNat * info.numer.toNat
  | linux, ts => (ts.val.tvSec.toUInt64 * 1000000000).toNat = ts.val.tvSec.toInt.toNat * 1000000000

/-- The readings whose product fits. -/
def InRange : (p : Platform) → p.Reading → Prop
  | windows _ _, count => count.val ≤ 9223372036
  | apple info _ _, ticks => ticks.val.toNat * info.numer.toNat < 18446744073709551616
  | linux, _ => True

/-! ## One reading -/

/-- The product of the seconds is no more than the time it is part of. -/
theorem linux_product {ts : Timespec} (h : ts.IsMonotonicTime)
    (hnanos : ts.tvSec.toInt.toNat * 1000000000 + ts.tvNsec.toInt.toNat < 9223372036854775808) :
    (ts.tvSec.toUInt64 * 1000000000).toNat = ts.tvSec.toInt.toNat * 1000000000 := by
  have hsec : ts.tvSec.toUInt64.toNat = ts.tvSec.toInt.toNat := Int64.toNat_toUInt64_of_le h.1
  have hfits : ts.tvSec.toInt.toNat * 1000000000 < 18446744073709551616 :=
    Nat.lt_trans (Nat.lt_of_le_of_lt (Nat.le_add_right _ _) hnanos) (by decide)
  rw [← hsec] at hfits ⊢
  exact Scaling.toNat_mul_of_lt hfits

/-- A later reading does not stand for an earlier time. -/
theorem nanos_le (p : Platform) {r r' : p.Reading} (h : p.NotLater r r') : p.nanos r ≤ p.nanos r' := by
  cases p with
  | windows freq hfreq =>
    have hcount : r.val.toInt ≤ r'.val.toInt := Int64.le_iff_toInt_le.1 h
    exact Nat.div_le_div_right (Nat.mul_le_mul_right _ (by omega))
  | apple info hnumer hdenom =>
    have hticks : r.val.toNat ≤ r'.val.toNat := UInt64.le_iff_toNat_le.1 h
    exact Nat.div_le_div_right (Nat.mul_le_mul_right _ hticks)
  | linux =>
    obtain ⟨hsec, hnsec, hlt⟩ := r.property.toInt
    obtain ⟨hsec', hnsec', hlt'⟩ := r'.property.toInt
    simp only [NotLater, Int64.lt_iff_toInt_lt, Int64.le_iff_toInt_le, ← Int64.toInt_inj] at h
    simp only [nanos]
    omega

/-- A product that fits is exact. -/
theorem InRange.productExact {p : Platform} {r : p.Reading} (h : p.InRange r) (hnanos : p.nanos r < 9223372036854775808) :
    p.ProductExact r := by
  cases p with
  | windows freq hfreq =>
    have hcount : 0 ≤ r.val.toInt := Int64.le_iff_toInt_le.1 r.property
    have hle : r.val.toInt ≤ 9223372036 := Int64.le_iff_toInt_le.1 h
    rw [ProductExact, Int64.toInt_mul]
    exact Int.bmod_eq_of_le (by simp; omega) (by simp; omega)
  | apple info hnumer hdenom =>
    rw [ProductExact, UInt64.toNat_mul]
    exact Nat.mod_eq_of_lt h
  | linux => exact linux_product r.property hnanos

theorem scale_nonneg : 0 ≤ (1000000000 : Int64).toInt := by decide

/-- **One reading.** The timer returns the nanoseconds it stands for exactly
if its product fits. -/
theorem monoTimerNanos_eq_iff (p : Platform) (r : p.Reading) (hnanos : p.nanos r < 9223372036854775808) :
    (p.monoTimerNanos r).toNat = p.nanos r ↔ p.InRange r := by
  cases p with
  | windows freq hfreq =>
    have hcount : 0 ≤ r.val.toInt := Int64.le_iff_toInt_le.1 r.property
    have hunit : 0 < freq.toInt := Int64.lt_iff_toInt_lt.1 hfreq
    have hfits := Scaling.toNat_mul_div_signed_iff hcount scale_nonneg hunit hnanos
    rw [show (1000000000 : Int64).toInt.toNat = 1000000000 from rfl] at hfits
    refine hfits.trans ?_
    simp only [InRange, Int64.le_iff_toInt_le]
    rw [show (9223372036 : Int64).toInt = 9223372036 from rfl]
    omega
  | apple info hnumer hdenom =>
    have hunit : 0 < info.denom.toUInt64.toNat := UInt32.lt_iff_toNat_lt.1 hdenom
    exact Scaling.toNat_mul_div_iff r.val info.numer.toUInt64 info.denom.toUInt64 hunit
  | linux =>
    have hproduct := linux_product r.property hnanos
    have hnsec : r.val.tvNsec.toUInt64.toNat = r.val.tvNsec.toInt.toNat := Int64.toNat_toUInt64_of_le r.property.2.1
    refine iff_of_true ?_ trivial
    simp only [nanos] at hnanos
    rw [monoTimerNanos, Linux.monoTimerNanos, UInt64.toNat_add, hproduct, hnsec]
    exact Nat.mod_eq_of_lt (Nat.lt_trans hnanos (by decide))

/-! ## Sequences of readings -/

/-- The timer runs true over a sequence of readings: no product wraps, each
time is the one its reading stands for, and no time is earlier than one
before it. -/
structure RunsTrue (p : Platform) {ι : Type} [Preorder ι] (readings : ι → p.Reading) : Prop where
  productExact : ∀ i, p.ProductExact (readings i)
  eq_nanos : ∀ i, (p.monoTimerNanos (readings i)).toNat = p.nanos (readings i)
  mono : ∀ i j, i ≤ j → p.monoTimerNanos (readings i) ≤ p.monoTimerNanos (readings j)

/-- **The timer runs true** over a sequence of readings that do not run
backwards, each of a time below 2^63 nanoseconds, exactly if the product of
each fits. -/
theorem timer_runs_true_iff (p : Platform) {ι : Type} [Preorder ι] {readings : ι → p.Reading}
    (hreadings : ∀ i j, i ≤ j → p.NotLater (readings i) (readings j))
    (hnanos : ∀ i, p.nanos (readings i) < 9223372036854775808) :
    p.RunsTrue readings ↔ ∀ i, p.InRange (readings i) := by
  constructor
  · intro h i
    exact (monoTimerNanos_eq_iff p (readings i) (hnanos i)).1 (h.eq_nanos i)
  · intro h
    have heq : ∀ i, (p.monoTimerNanos (readings i)).toNat = p.nanos (readings i) := fun i =>
      (monoTimerNanos_eq_iff p (readings i) (hnanos i)).2 (h i)
    refine ⟨fun i => (h i).productExact (hnanos i), heq, fun i j hle => ?_⟩
    rw [UInt64.le_iff_toNat_le, heq, heq]
    exact nanos_le p (hreadings i j hle)

/-- The counter of a common clock, at 10 MHz. -/
abbrev tenMegahertz : Platform := .windows 10000000 (by decide)

/-- Two readings of it a quarter of an hour after the start. -/
theorem timer_runs_true_quarter_hour :
    tenMegahertz.RunsTrue fun i : Fin 2 => (⟨if i = 0 then 9000000000 else 9000000001, by split <;> decide⟩) := by
  refine (timer_runs_true_iff tenMegahertz ?_ ?_).2 ?_
  · show ∀ i j : Fin 2, i ≤ j → _ ≤ _
    decide
  · show ∀ i : Fin 2, _ < _
    decide
  · show ∀ i : Fin 2, _ ≤ _
    decide

/-- Two readings of it half an hour after the start. -/
def halfHour (i : Fin 2) : tenMegahertz.Reading := ⟨if i = 0 then 18446744073 else 18446744074, by split <;> decide⟩

/-- Between them the product wraps around to 0, and the time with it. -/
theorem timer_runs_backwards :
    (∀ i j, i ≤ j → tenMegahertz.NotLater (halfHour i) (halfHour j)) ∧
      (∀ i, tenMegahertz.nanos (halfHour i) < 9223372036854775808) ∧
      tenMegahertz.monoTimerNanos (halfHour 1) < tenMegahertz.monoTimerNanos (halfHour 0) := by
  refine ⟨?_, ?_, ?_⟩
  · show ∀ i j : Fin 2, i ≤ j → _ ≤ _
    decide
  · show ∀ i : Fin 2, _ < _
    decide
  · decide

end Platform

end TouchMouse
