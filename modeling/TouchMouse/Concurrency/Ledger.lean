import Mathlib.Data.List.Basic
import Mathlib.Data.List.Forall2

/-!
# A bounded queue and its books

A queue that displaces its oldest entry when it is full, with the books of
everything that ever entered it: each entry was read or lost, in order, or is
still there. The books are fields, so a queue that reorders, repeats or
forgets an entry is not a `Ledger`.
-/

/-- How an entry left. -/
inductive Fate where
  | read
  | lost
  deriving DecidableEq

structure Ledger (ρ : Type) (capacity : Nat) where
  arrived : List ρ
  gone : List (ρ × Fate)
  queue : List ρ
  account : arrived = gone.map Prod.fst ++ queue
  bounded : queue.length ≤ capacity

namespace Ledger

variable {ρ : Type} {capacity : Nat}

def empty : Ledger ρ capacity := ⟨[], [], [], rfl, Nat.zero_le _⟩

/-- The entries that left in one way, in order. -/
def left (l : Ledger ρ capacity) (fate : Fate) : List ρ := (l.gone.filter (·.2 = fate)).map Prod.fst

/-- A new entry that there is room for. -/
def push (l : Ledger ρ capacity) (r : ρ) (room : l.queue.length < capacity) : Ledger ρ capacity where
  arrived := l.arrived ++ [r]
  gone := l.gone
  queue := l.queue ++ [r]
  account := by rw [l.account, List.append_assoc]
  bounded := by
    rw [List.length_append]
    exact room

/-- A new entry that displaces the oldest. -/
def displace (l : Ledger ρ capacity) (r : ρ) {oldest : ρ} {rest : List ρ} (hqueue : l.queue = oldest :: rest) :
    Ledger ρ capacity where
  arrived := l.arrived ++ [r]
  gone := l.gone ++ [(oldest, .lost)]
  queue := rest ++ [r]
  account := by
    rw [l.account, hqueue]
    simp
  bounded := by
    have hbounded := l.bounded
    rw [hqueue] at hbounded
    rwa [List.length_append]

/-- The oldest entry is read. -/
def pop (l : Ledger ρ capacity) {oldest : ρ} {rest : List ρ} (hqueue : l.queue = oldest :: rest) :
    Ledger ρ capacity where
  arrived := l.arrived
  gone := l.gone ++ [(oldest, .read)]
  queue := rest
  account := by
    rw [l.account, hqueue]
    simp
  bounded := by
    have hbounded := l.bounded
    rw [hqueue] at hbounded
    exact Nat.le_of_succ_le hbounded

@[simp] theorem left_empty (fate : Fate) : (empty : Ledger ρ capacity).left fate = [] := rfl

@[simp] theorem left_push (l : Ledger ρ capacity) (r : ρ) (room : l.queue.length < capacity) (fate : Fate) :
    (l.push r room).left fate = l.left fate := rfl

theorem left_displace (l : Ledger ρ capacity) (r : ρ) {oldest : ρ} {rest : List ρ}
    (hqueue : l.queue = oldest :: rest) (fate : Fate) :
    (l.displace r hqueue).left fate = l.left fate ++ if fate = .lost then [oldest] else [] := by
  cases fate <;> simp [left, displace]

theorem left_pop (l : Ledger ρ capacity) {oldest : ρ} {rest : List ρ} (hqueue : l.queue = oldest :: rest)
    (fate : Fate) : (l.pop hqueue).left fate = l.left fate ++ if fate = .read then [oldest] else [] := by
  cases fate <;> simp [left, pop]

/-- What was read is some of what arrived, in the same order. -/
theorem read_sublist (l : Ledger ρ capacity) : (l.left .read).Sublist l.arrived := by
  rw [l.account]
  exact (List.filter_sublist.map Prod.fst).trans (List.sublist_append_left _ _)

/-- Where nothing was lost, what was read and what is still there is all that
arrived. -/
theorem lossless (l : Ledger ρ capacity) (h : l.left .lost = []) : l.arrived = l.left .read ++ l.queue := by
  have hread : l.gone.filter (·.2 = .read) = l.gone := by
    rw [left, List.map_eq_nil_iff, List.filter_eq_nil_iff] at h
    rw [List.filter_eq_self]
    rintro ⟨r, fate⟩ hmem
    cases fate with
    | read => rfl
    | lost => exact absurd rfl (h _ hmem)
  rw [l.account, left, hread]

/-- Each entry is in the books once. -/
theorem length_arrived (l : Ledger ρ capacity) :
    l.arrived.length = (l.left .read).length + (l.left .lost).length + l.queue.length := by
  have hsplit : ∀ gone : List (ρ × Fate),
      gone.length = (gone.filter (·.2 = .read)).length + (gone.filter (·.2 = .lost)).length := by
    intro gone
    induction gone with
    | nil => rfl
    | cons g gone ih =>
      obtain ⟨r, fate⟩ := g
      cases fate <;> simp [ih] <;> omega
  have hgone := hsplit l.gone
  rw [l.account, List.length_append, List.length_map, hgone, left, left, List.length_map, List.length_map]

end Ledger
