import Mathlib.Algebra.BigOperators.Group.List.Basic
import TouchMouse.Enumeration.Lists

/-!
# Clients of the enumeration

A client enumerates and frees in any order, each list once and by its head.
The live blocks are exactly the cells of the lists it holds
(`Client.Owns`), so each call finds what it reads and what it releases, and
when nothing is held nothing is left.
-/

namespace TouchMouse
open Memory

variable {platform : HidPlatform}

/-- The heap consists of the lists the client holds, each the list of the
TouchMice among the interfaces it was made from. -/
structure Client.Owns (platform : HidPlatform) (c : Client) (owned : List (HeldList × DeviceList)) : Prop where
  held : owned.map Prod.fst = c.held
  lists : ∀ o ∈ owned, o.2.Lists platform o.1.infos ∧ o.1.head = o.2.head
  cells : c.heap.Holds (owned.map (·.2.cells)).sum

theorem start_owns : Client.start.Owns platform [] where
  held := rfl
  lists _ ho := absurd ho List.not_mem_nil
  cells := Heap.holds_empty

/-- Enumeration adds a list to those that are held. -/
theorem enumerate_owns {c : Client} {owned : List (HeldList × DeviceList)} (h : c.Owns platform owned)
    (infos : List HidDeviceInfo) :
    ∃ c' owned', c.exec platform (.enumerate infos) = some c' ∧ c'.Owns platform owned' := by
  obtain ⟨retval, heap, cells, hrun, ⟨l, hlists, rfl, rfl⟩, hholds⟩ :=
    touchmouseEnumerateDevices_spec platform infos _ c.heap (by rw [zero_add]; exact h.cells)
  refine ⟨_, owned ++ [(⟨l.head, infos⟩, l)], by rw [Client.exec, hrun]; rfl, ?_, ?_, ?_⟩
  · rw [List.map_append, h.held]
    rfl
  · intro o ho
    rcases List.mem_append.1 ho with ho | ho
    · exact h.lists o ho
    · rw [List.mem_singleton.1 ho]
      exact ⟨hlists, rfl⟩
  · rw [List.map_append, List.sum_append, add_comm, List.map_singleton, List.sum_singleton]
    exact hholds

theorem sum_cells {owned : List (HeldList × DeviceList)} {i : Nat} (hi : i < owned.length) :
    (owned.map (·.2.cells)).sum = owned[i].2.cells + ((owned.eraseIdx i).map (·.2.cells)).sum := by
  have hi' : i < (owned.map (·.2.cells)).length := by rwa [List.length_map]
  rw [← List.CommMonoid.add_sum_eraseIdx hi', List.getElem_map, List.eraseIdx_map]

/-- To free a list takes its cells, and no others. -/
theorem free_owns {c : Client} {owned : List (HeldList × DeviceList)} (h : c.Owns platform owned) (i : Nat) :
    ∃ c' owned', c.exec platform (.free i) = some c' ∧ c'.Owns platform owned' := by
  by_cases hi : i < owned.length
  · have hmem := List.getElem_mem hi
    obtain ⟨hlists, hhead⟩ := h.lists _ hmem
    have hget : c.held[i]? = some owned[i].1 := by
      rw [← h.held, List.getElem?_map, List.getElem?_eq_getElem hi]
      rfl
    have hcells := h.cells
    rw [sum_cells hi] at hcells
    obtain ⟨_, heap, cells, hrun, rfl, hholds⟩ := touchmouseFreeEnumeration_spec hlists _ c.heap hcells
    refine ⟨_, owned.eraseIdx i, by rw [Client.exec, hget]; simp only [hhead, hrun]; rfl, ?_, ?_, ?_⟩
    · rw [← List.eraseIdx_map, h.held]
    · exact fun o ho => h.lists o (List.mem_of_mem_eraseIdx ho)
    · rwa [zero_add] at hholds
  · have hget : c.held[i]? = none := by
      rw [← h.held, List.getElem?_eq_none_iff, List.length_map]
      exact Nat.not_lt.1 hi
    exact ⟨c, owned, by rw [Client.exec, hget], h⟩

/-- What one operation preserves, every run does. -/
theorem run_owns {c : Client} {owned : List (HeldList × DeviceList)} (h : c.Owns platform owned) (ops : List ClientOp) :
    ∃ c' owned', c.run platform ops = some c' ∧ c'.Owns platform owned' := by
  induction ops generalizing c owned with
  | nil => exact ⟨c, owned, rfl, h⟩
  | cons op ops ih =>
    have hstep : ∃ c' owned', c.exec platform op = some c' ∧ c'.Owns platform owned' := by
      cases op with
      | enumerate infos => exact enumerate_owns h infos
      | free i => exact free_owns h i
    obtain ⟨c', owned', hexec, howns⟩ := hstep
    obtain ⟨c'', owned'', hrun, howns'⟩ := ih howns
    exact ⟨c'', owned'', by rw [Client.run, hexec]; exact hrun, howns'⟩

/-- A client that walks a list it holds finds the TouchMice. -/
theorem Client.Owns.records {c : Client} {owned : List (HeldList × DeviceList)} (h : c.Owns platform owned)
    {held : HeldList} (hheld : held ∈ c.held) :
    ∃ heap, listedRecords held.head c.heap = some (held.infos.filter platform.isTouchMouse, heap) := by
  rw [← h.held] at hheld
  obtain ⟨o, ho, rfl⟩ := List.mem_map.1 hheld
  obtain ⟨hlists, hhead⟩ := h.lists o ho
  obtain ⟨i, hi, rfl⟩ := List.getElem_of_mem ho
  have hcells := h.cells
  rw [sum_cells hi] at hcells
  obtain ⟨records, heap, cells, hrun, ⟨rfl, -⟩, -⟩ := listedRecords_spec hlists _ c.heap hcells
  exact ⟨heap, by rw [hhead, hrun]⟩

/-- Lists whose head is `NULL` have no cells. -/
theorem Client.Owns.holds_zero {c : Client} {owned : List (HeldList × DeviceList)} (h : c.Owns platform owned)
    (hnone : ∀ held ∈ c.held, held.head = 0) : c.heap.Holds 0 := by
  have hzero : ∀ o ∈ owned, o.2.cells = 0 := by
    intro o ho
    obtain ⟨hlists, hhead⟩ := h.lists o ho
    have hnull : o.2.head = 0 := by
      rw [← hhead]
      exact hnone o.1 (h.held ▸ List.mem_map_of_mem ho)
    obtain ⟨i, hi, rfl⟩ := List.getElem_of_mem ho
    have hcells := h.cells
    rw [sum_cells hi] at hcells
    exact hlists.cells_nil (DeviceList.nodes_eq_nil hcells hnull)
  have hcells := h.cells
  rwa [List.map_congr_left hzero, List.map_const', List.sum_replicate, nsmul_zero] at hcells

/-- **Enumeration is a filter that owns its blocks exactly.** Any client, over
any order of its calls, runs without a fault: nothing is read or released
after its release. The live blocks are at all times the cells of the lists it
holds, and each list shows the TouchMice among its interfaces, in order. When
every list that was not `NULL` is freed, each block ever handed out has been
released once. -/
theorem enumeration_owned (platform : HidPlatform) (ops : List ClientOp) :
    ∃ c owned, Client.start.run platform ops = some c ∧ c.Owns platform owned ∧
      (∀ held ∈ c.held, ∃ heap,
        listedRecords held.head c.heap = some (held.infos.filter platform.isTouchMouse, heap)) ∧
      ((∀ held ∈ c.held, held.head = 0) →
        ∀ a, 0 < a → a < c.heap.next → c.heap.block a = none ∧ c.heap.released.count a = 1) := by
  have hstart : Client.start.Owns platform [] := start_owns
  obtain ⟨c, owned, hrun, howns⟩ := run_owns hstart ops
  refine ⟨c, owned, hrun, howns, fun held hheld => howns.records hheld, fun hnone a hpos hlt => ?_⟩
  have hdead := (howns.holds_zero hnone).dead a
  exact ⟨hdead, Heap.released_once hpos hlt hdead⟩

-- One of two interfaces matches, then none: the second list goes at once, and
-- the first by its records, its pair and its node.
example : (Client.start.run .other
      [.enumerate [⟨"hidraw0", 0, 0, 0⟩, ⟨"hidraw1", 0, 0, 2⟩], .enumerate [⟨"hidraw0", 0, 0, 0⟩], .free 0]).map
    (·.heap.released) = some [3, 4, 2, 1, 5] := by decide

end TouchMouse
