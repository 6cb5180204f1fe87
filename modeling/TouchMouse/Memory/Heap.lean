import Mathlib.Data.Multiset.Range
import Mathlib.Data.Multiset.UnionInter
import Mathlib.Logic.Function.Basic

/-!
# A heap of blocks

An address is handed out once and names one block for ever. A heap knows the
blocks that are live and the order of the releases; each block handed out is
live or was released once. To read, change or release a block that is not
live is a fault, and the program has no outcome.

`Heap.Holds` says which cells a heap consists of, exactly. The rules below it
say what each operation does to them.
-/

namespace Memory

/-- Addresses are numbers, and 0 is `NULL`. -/
structure Heap (β : Type) where
  /-- the blocks that are live -/
  block : Nat → Option β
  /-- the address of the next block -/
  next : Nat
  /-- the releases, the last one first -/
  released : List Nat
  pos : 0 < next
  handedOut : ∀ a, (a ∈ released ∨ (block a).isSome = true) ↔ 0 < a ∧ a < next
  dead : ∀ a ∈ released, block a = none
  once : released.Nodup

namespace Heap

variable {β : Type} {h : Heap β}

/-- The heap that nothing was allocated in. -/
def empty : Heap β where
  block _ := none
  next := 1
  released := []
  pos := Nat.zero_lt_one
  handedOut a := by simp; omega
  dead _ ha := absurd ha List.not_mem_nil
  once := List.nodup_nil

theorem block_next (h : Heap β) : h.block h.next = none := by
  have hnot := mt (h.handedOut h.next).1 (fun hlt => Nat.lt_irrefl _ hlt.2)
  exact Option.not_isSome_iff_eq_none.1 (not_or.1 hnot).2

theorem next_not_released (h : Heap β) : h.next ∉ h.released := fun hmem =>
  Nat.lt_irrefl _ ((h.handedOut h.next).1 (.inl hmem)).2

theorem lt_next {a : Nat} {b : β} (hb : h.block a = some b) : 0 < a ∧ a < h.next :=
  (h.handedOut a).1 (.inr (by rw [hb]; rfl))

/-- A new block. -/
def alloc (h : Heap β) (b : β) : Heap β where
  block := Function.update h.block h.next (some b)
  next := h.next + 1
  released := h.released
  pos := Nat.succ_pos _
  handedOut a := by
    have hout := h.handedOut a
    have hpos := h.pos
    by_cases ha : a = h.next
    · subst ha
      simp [hpos]
    · rw [Function.update_of_ne ha, hout]
      omega
  dead a ha := by
    have hne : a ≠ h.next := fun heq => h.next_not_released (heq ▸ ha)
    rw [Function.update_of_ne hne]
    exact h.dead a ha
  once := h.once

/-- Another content for a live block. -/
def write (h : Heap β) (a : Nat) (b : β) (live : (h.block a).isSome = true) : Heap β where
  block := Function.update h.block a (some b)
  next := h.next
  released := h.released
  pos := h.pos
  handedOut x := by
    have hout := h.handedOut x
    by_cases hx : x = a
    · subst hx
      rw [← hout]
      simp [live]
    · rw [Function.update_of_ne hx, hout]
  dead x hx := by
    have hne : x ≠ a := fun heq => by
      rw [← heq, h.dead x hx] at live
      cases live
    rw [Function.update_of_ne hne]
    exact h.dead x hx
  once := h.once

/-- The release of a live block. -/
def free (h : Heap β) (a : Nat) (live : (h.block a).isSome = true) : Heap β where
  block := Function.update h.block a none
  next := h.next
  released := a :: h.released
  pos := h.pos
  handedOut x := by
    have hout := h.handedOut x
    by_cases hx : x = a
    · subst hx
      rw [← hout]
      simp [live]
    · rw [Function.update_of_ne hx, ← hout, List.mem_cons]
      simp [hx]
  dead x hx := by
    by_cases heq : x = a
    · rw [heq, Function.update_self]
    · rw [Function.update_of_ne heq]
      exact h.dead x ((List.mem_cons.1 hx).resolve_left heq)
  once := by
    refine List.nodup_cons.2 ⟨fun hmem => ?_, h.once⟩
    rw [h.dead a hmem] at live
    cases live

/-- A block that was handed out and is not live has been released once. -/
theorem released_once {a : Nat} (hpos : 0 < a) (hlt : a < h.next) (hdead : h.block a = none) :
    h.released.count a = 1 := by
  have hmem : a ∈ h.released := ((h.handedOut a).2 ⟨hpos, hlt⟩).resolve_right (by rw [hdead]; exact Bool.false_ne_true)
  exact List.count_eq_one_of_mem h.once hmem

/-! ## What a heap consists of -/

/-- The live blocks are exactly these cells. -/
structure Holds (h : Heap β) (cells : Multiset (Nat × β)) : Prop where
  block : ∀ a b, h.block a = some b ↔ (a, b) ∈ cells
  nodup : (cells.map Prod.fst).Nodup

theorem holds_empty : (empty : Heap β).Holds 0 where
  block _ _ := iff_of_false (fun hb => by cases hb) (Multiset.notMem_zero _)
  nodup := Multiset.nodup_zero

variable {cells : Multiset (Nat × β)}

theorem Holds.live {a : Nat} {b : β} (hh : h.Holds cells) (hmem : (a, b) ∈ cells) : (h.block a).isSome = true := by
  rw [(hh.block a b).2 hmem]
  rfl

theorem Holds.dead (hh : h.Holds 0) (a : Nat) : h.block a = none :=
  Option.eq_none_iff_forall_not_mem.2 fun b hb => Multiset.notMem_zero _ ((hh.block a b).1 hb)

/-- There are fewer cells than addresses. -/
theorem Holds.card_lt (hh : h.Holds cells) : cells.card < h.next := by
  have hzero : 0 ∉ cells.map Prod.fst := by
    intro hmem
    obtain ⟨⟨a, b⟩, hcell, rfl⟩ := Multiset.mem_map.1 hmem
    exact Nat.lt_irrefl 0 (lt_next ((hh.block 0 b).2 hcell)).1
  have hnodup : (0 ::ₘ cells.map Prod.fst).Nodup := Multiset.nodup_cons.2 ⟨hzero, hh.nodup⟩
  have hle : 0 ::ₘ cells.map Prod.fst ≤ Multiset.range h.next := by
    refine (Multiset.le_iff_subset hnodup).2 fun a ha => ?_
    rcases Multiset.mem_cons.1 ha with rfl | hmem
    · exact Multiset.mem_range.2 h.pos
    · obtain ⟨⟨a, b⟩, hcell, rfl⟩ := Multiset.mem_map.1 hmem
      exact Multiset.mem_range.2 (lt_next ((hh.block a b).2 hcell)).2
  have hcard := Multiset.card_le_card hle
  rwa [Multiset.card_cons, Multiset.card_map, Multiset.card_range] at hcard

theorem Holds.alloc (hh : h.Holds cells) (b : β) : (h.alloc b).Holds ((h.next, b) ::ₘ cells) where
  block x y := by
    rw [Multiset.mem_cons, ← hh.block, Heap.alloc]
    by_cases hx : x = h.next
    · subst hx
      simp [h.block_next, eq_comm]
    · simp [hx]
  nodup := by
    rw [Multiset.map_cons, Multiset.nodup_cons]
    refine ⟨fun hmem => ?_, hh.nodup⟩
    obtain ⟨⟨x, y⟩, hcell, rfl⟩ := Multiset.mem_map.1 hmem
    have hblock := (hh.block _ _).2 hcell
    rw [h.block_next] at hblock
    cases hblock

/-- The cell at an address is the only one there. -/
theorem Holds.notMem {a : Nat} {b : β} (hh : h.Holds ((a, b) ::ₘ cells)) (b' : β) : (a, b') ∉ cells := by
  have hnodup := hh.nodup
  rw [Multiset.map_cons, Multiset.nodup_cons] at hnodup
  exact fun hmem => hnodup.1 (Multiset.mem_map.2 ⟨(a, b'), hmem, rfl⟩)

theorem Holds.write {a : Nat} {b : β} (hh : h.Holds ((a, b) ::ₘ cells)) (b' : β) (live : (h.block a).isSome = true) :
    (h.write a b' live).Holds ((a, b') ::ₘ cells) where
  block x y := by
    have hblock := hh.block x y
    rw [Multiset.mem_cons] at hblock ⊢
    by_cases hx : x = a
    · subst hx
      simp [Heap.write, hh.notMem, eq_comm]
    · simpa [Heap.write, hx] using hblock
  nodup := by
    have hnodup := hh.nodup
    rwa [Multiset.map_cons] at hnodup ⊢

theorem Holds.free {a : Nat} {b : β} (hh : h.Holds ((a, b) ::ₘ cells)) (live : (h.block a).isSome = true) :
    (h.free a live).Holds cells where
  block x y := by
    have hblock := hh.block x y
    rw [Multiset.mem_cons] at hblock
    by_cases hx : x = a
    · subst hx
      simp [Heap.free, hh.notMem]
    · simpa [Heap.free, hx] using hblock
  nodup := by
    have hnodup := hh.nodup
    rw [Multiset.map_cons, Multiset.nodup_cons] at hnodup
    exact hnodup.2

end Heap

end Memory
