import Mathlib.Data.Fintype.Card
import Mathlib.Data.Finset.Card
import Mathlib.Logic.Function.Basic

/-!
# Threads at a condition variable

Each thread has a local state. `Signal` is what one notification of a
condition variable does to those that sleep at it: at least one of them, if
there is one, is roused, and the others stay as they are. `broadcast` rouses
all of them. `count` is the number of threads in some local state, and what a
change of one thread or a signal does to it.
-/

namespace Threads

variable {ι α : Type}

/-- A signal rouses one sleeper at least, if there is any. A thread whose wait
has ended by itself does not sleep any more. That it takes no signal from those
that do, as where a timeout and a signal come together, is assumed of the
condition variable. -/
structure Signal (asleep : α → Prop) (rouse : α → α) (threads threads' : ι → α) : Prop where
  moves : ∀ i, threads' i = threads i ∨ asleep (threads i) ∧ threads' i = rouse (threads i)
  one : (∃ i, asleep (threads i)) → ∃ i, asleep (threads i) ∧ threads' i = rouse (threads i)

/-- A broadcast rouses all. -/
def broadcast (asleep : α → Prop) [DecidablePred asleep] (rouse : α → α) (threads : ι → α) : ι → α :=
  fun i => if asleep (threads i) then rouse (threads i) else threads i

variable {asleep : α → Prop} {rouse : α → α} {threads threads' : ι → α}

/-- A thread that sleeps after a signal slept before it. -/
theorem Signal.asleep_of (h : Signal asleep rouse threads threads') (hrouse : ∀ x, ¬ asleep (rouse x)) {i : ι}
    (hi : asleep (threads' i)) : asleep (threads i) ∧ threads' i = threads i := by
  rcases h.moves i with hsame | ⟨-, hroused⟩
  · exact ⟨hsame ▸ hi, hsame⟩
  · rw [hroused] at hi
    exact absurd hi (hrouse _)

theorem broadcast_not_asleep [DecidablePred asleep] (hrouse : ∀ x, ¬ asleep (rouse x)) (i : ι) :
    ¬ asleep (broadcast asleep rouse threads i) := by
  unfold broadcast
  split
  · exact hrouse _
  · assumption

/-- Where there is one thread only, a signal leaves nobody asleep. -/
theorem Signal.not_asleep [Subsingleton ι] (h : Signal asleep rouse threads threads') (hrouse : ∀ x, ¬ asleep (rouse x))
    (i : ι) : ¬ asleep (threads' i) := by
  intro hi
  obtain ⟨j, -, hj⟩ := h.one ⟨i, (h.asleep_of hrouse hi).1⟩
  rw [Subsingleton.elim i j, hj] at hi
  exact hrouse _ hi

/-! ## Counting -/

variable [Fintype ι] (P : α → Prop) [DecidablePred P]

/-- The number of threads in a local state that `P` holds of. -/
def count (threads : ι → α) : Nat := (Finset.univ.filter fun i => P (threads i)).card

variable {P}

theorem count_eq_zero (h : ∀ i, ¬ P (threads i)) : count P threads = 0 :=
  Finset.card_eq_zero.2 (Finset.filter_eq_empty_iff.2 fun i _ => h i)

theorem exists_not_of_count_lt (h : count P threads < Fintype.card ι) : ∃ i, ¬ P (threads i) := by
  by_contra hall
  rw [not_exists_not] at hall
  have hcount : count P threads = Fintype.card ι := by
    rw [count, Finset.filter_true_of_mem fun i _ => hall i, Finset.card_univ]
  exact Nat.ne_of_lt h hcount

variable [DecidableEq ι]

theorem count_update (i : ι) (x : α) (hi : ¬ P (threads i)) :
    count P (Function.update threads i x) = count P threads + if P x then 1 else 0 := by
  have hother : ∀ j ∈ Finset.univ.filter fun j => P (threads j), j ≠ i := by
    rintro j hj rfl
    exact hi (Finset.mem_filter.1 hj).2
  have hmem : ∀ j, P (Function.update threads i x j) ↔ (j = i ∧ P x) ∨ P (threads j) := by
    intro j
    by_cases hji : j = i
    · subst hji
      simp [hi]
    · simp [hji]
  split
  · next hx =>
    have hinsert : (Finset.univ.filter fun j => P (Function.update threads i x j)) =
        insert i (Finset.univ.filter fun j => P (threads j)) := by
      ext j
      simp [hmem, hx]
    rw [count, hinsert, Finset.card_insert_of_notMem fun hmem => hother i hmem rfl, count]
  · next hx =>
    have hsame : (Finset.univ.filter fun j => P (Function.update threads i x j)) =
        Finset.univ.filter fun j => P (threads j) := by
      ext j
      simp [hmem, hx]
    rw [count, hsame, count, Nat.add_zero]

/-- All but one. -/
theorem all_of_count {i : ι} (hi : ¬ P (threads i)) (h : Fintype.card ι ≤ count P threads + 1) {j : ι} (hj : j ≠ i) :
    P (threads j) := by
  have hsub : (Finset.univ.filter fun j => P (threads j)) ⊆ Finset.univ.erase i := by
    intro k hk
    refine Finset.mem_erase.2 ⟨?_, Finset.mem_univ k⟩
    rintro rfl
    exact hi (Finset.mem_filter.1 hk).2
  have hcard : (Finset.univ.erase i).card ≤ count P threads := by
    rw [Finset.card_erase_of_mem (Finset.mem_univ i), Finset.card_univ]
    omega
  have hmem : j ∈ Finset.univ.erase i := Finset.mem_erase.2 ⟨hj, Finset.mem_univ j⟩
  rw [← Finset.eq_of_subset_of_card_le hsub hcard] at hmem
  exact (Finset.mem_filter.1 hmem).2

end Threads
