import Mathlib.Data.List.Basic
import Mathlib.Data.List.Induction

/-!
# Readers of growing strings

A reader looks at a string that grows at its end and says that it needs more,
that it holds a full value, or that it is bad. The empty string is never
enough, and an answer once given stands whatever follows: both are fields, so
a function that changes its mind is not a `Reader`.
-/

/-- A string with a property that the empty one does not have gets it at some
element. -/
theorem exists_first {α : Type} {P : List α → Prop} (hnil : ¬ P []) {l : List α} (h : P l) :
    ∃ front x rest, l = front ++ x :: rest ∧ ¬ P front ∧ P (front ++ [x]) := by
  induction l using List.reverseRecOn with
  | nil => exact absurd h hnil
  | append_singleton u x ih =>
    by_cases hu : P u
    · obtain ⟨front, y, rest, rfl, hfront, hy⟩ := ih hu
      exact ⟨front, y, rest ++ [x], by simp, hfront, hy⟩
    · exact ⟨u, x, [], rfl, hu, h⟩

/-- What a reader says of a string. -/
inductive Verdict (φ : Type) where
  | more
  | full (value : φ)
  | bad
  deriving DecidableEq

structure Reader (β φ : Type) where
  verdict : List β → Verdict φ
  more_nil : verdict [] = .more
  stable : ∀ u v, verdict u ≠ .more → verdict (u ++ v) = verdict u

namespace Reader

variable {β φ : Type} (R : Reader β φ)

/-- A string that still needs more has only prefixes that need more. -/
theorem more_of_append {u v : List β} (h : R.verdict (u ++ v) = .more) : R.verdict u = .more := by
  by_contra hu
  exact hu ((R.stable u v hu).symm.trans h)

/-- A reader of symbols reads any units that spell symbols. -/
def spell {γ : Type} (f : γ → List β) : Reader γ φ where
  verdict w := R.verdict (w.flatMap f)
  more_nil := R.more_nil
  stable u v h := by rw [List.flatMap_append]; exact R.stable _ _ h

end Reader
