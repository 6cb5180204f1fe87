import Mathlib.Algebra.Group.Nat.Defs

/-!
# Numerals

The digits of a number in some base, most significant first, with zeroes in
front up to a width, and the number that digits stand for. A number that fits
the width is read back, so numbers are told apart by their digits.
-/

namespace Numeral

variable {α : Type} (base : Nat) (digit : Nat → α)

def write : (width n : Nat) → List α
  | 0, _ => []
  | width + 1, n => write width (n / base) ++ [digit (n % base)]

@[simp] theorem length_write (width n : Nat) : (write base digit width n).length = width := by
  induction width generalizing n with
  | zero => rfl
  | succ width ih => rw [write, List.length_append, ih, List.length_singleton]

/-- Each digit tells its value. -/
def Distinct : Prop := ∀ x < base, ∀ y < base, digit x = digit y → x = y

instance [DecidableEq α] : Decidable (Distinct base digit) :=
  inferInstanceAs (Decidable (∀ x < base, ∀ y < base, digit x = digit y → x = y))

variable {base} {digit}

theorem write_inj (hdigit : Distinct base digit) {width n m : Nat} (hn : n < base ^ width) (hm : m < base ^ width)
    (h : write base digit width n = write base digit width m) : n = m := by
  induction width generalizing n m with
  | zero =>
    rw [Nat.pow_zero, Nat.lt_one_iff] at hn hm
    rw [hn, hm]
  | succ width ih =>
    have hpos : 0 < base := by
      rcases Nat.eq_zero_or_pos base with rfl | hpos
      · rw [Nat.zero_pow (Nat.succ_pos _)] at hn
        exact absurd hn (Nat.not_lt_zero _)
      · exact hpos
    obtain ⟨hinit, hlast⟩ := List.append_inj' h rfl
    rw [Nat.pow_succ] at hn hm
    have hdiv : n / base = m / base :=
      ih (Nat.div_lt_of_lt_mul (by rwa [Nat.mul_comm])) (Nat.div_lt_of_lt_mul (by rwa [Nat.mul_comm])) hinit
    have hmod : n % base = m % base :=
      hdigit _ (Nat.mod_lt _ hpos) _ (Nat.mod_lt _ hpos) (List.cons.inj hlast).1
    rw [← Nat.div_add_mod n base, hdiv, hmod, Nat.div_add_mod]

/-- The number of some digits, most significant first. -/
def value (base : Nat) (ds : List Nat) : Nat := ds.foldl (fun n d => n * base + d) 0

@[simp] theorem value_nil (base : Nat) : value base [] = 0 := rfl

theorem value_append_singleton (base : Nat) (ds : List Nat) (d : Nat) :
    value base (ds ++ [d]) = value base ds * base + d := by
  rw [value, List.foldl_append]
  rfl

/-- What is written is read back. -/
theorem value_write {width n : Nat} (hn : n < base ^ width) : value base (write base id width n) = n := by
  induction width generalizing n with
  | zero =>
    rw [Nat.pow_zero, Nat.lt_one_iff] at hn
    rw [hn]
    rfl
  | succ width ih =>
    rw [Nat.pow_succ] at hn
    have hdiv := ih (Nat.div_lt_of_lt_mul (by rwa [Nat.mul_comm]))
    rw [write, value_append_singleton, hdiv, id, Nat.mul_comm, Nat.div_add_mod]

/-- The digits of a text are those of the number. -/
theorem map_write {δ : Type} (f : α → δ) (width n : Nat) :
    (write base digit width n).map f = write base (f ∘ digit) width n := by
  induction width generalizing n with
  | zero => rfl
  | succ width ih =>
    rw [write, List.map_append, ih]
    rfl

/-- Only the digits below the base are written. -/
theorem write_congr {f g : Nat → α} (hpos : 0 < base) (h : ∀ d < base, f d = g d) (width n : Nat) :
    write base f width n = write base g width n := by
  induction width generalizing n with
  | zero => rfl
  | succ width ih => rw [write, write, ih, h _ (Nat.mod_lt _ hpos)]

/-! ## Without a width -/

end Numeral
