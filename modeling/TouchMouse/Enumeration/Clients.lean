import TouchMouse.Enumeration.Lists
import TouchMouse.Model.Clients

/-!
# Which device the example programs open

The console demo opens the first TouchMouse and never faults. The viewer opens
the one at its index; its test of the index is short by one, so it reads
`NULL` exactly if the index is the number of TouchMice.
-/

namespace TouchMouse
open Memory

variable {platform : HidPlatform} {infos : List HidDeviceInfo}

/-- The records that a list refers to, in order. -/
theorem DeviceList.Lists.records {l : DeviceList} (h : l.Lists platform infos) :
    (l.hids.filter (platform.isTouchMouse ·.2)).map Prod.snd = infos.filter platform.isTouchMouse := by
  have hfilter : (l.hids.filter (platform.isTouchMouse ·.2)).map Prod.snd =
      (l.hids.map Prod.snd).filter platform.isTouchMouse := by
    rw [List.filter_map]
    rfl
  rw [hfilter, h.hids]
  split
  · rfl
  · next hnone =>
    rw [List.filter_nil, eq_comm, List.filter_eq_nil_iff]
    exact fun info hmem hmatch => hnone (List.any_eq_true.2 ⟨info, hmem, hmatch⟩)

theorem DeviceList.Lists.length {l : DeviceList} (h : l.Lists platform infos) :
    l.nodes.length = (infos.filter platform.isTouchMouse).length := by
  have hnodes := congrArg List.length h.nodes
  rw [List.length_map, List.length_map] at hnodes
  rw [← h.records, List.length_map, hnodes]

/-! ## One function -/

/-- The count of the nodes that are left. -/
theorem countLoop_spec {n : Nat} (others : Multiset (Nat × Block)) (done rest : List (Nat × DeviceNode)) (devsFound : Nat)
    (hn : rest.length < n) :
    let pre := others + chain DeviceNode.block 0 (done ++ rest)
    Triple pre (countLoop n (first 0 rest) devsFound) fun r cells => r = devsFound + rest.length ∧ cells = pre := by
  intro pre
  induction rest generalizing n done devsFound with
  | nil =>
    obtain ⟨n, rfl⟩ := Nat.exists_eq_succ_of_ne_zero (Nat.ne_of_gt hn)
    exact .pure ⟨rfl, rfl⟩
  | cons node rest ih =>
    obtain ⟨a, x⟩ := node
    obtain ⟨n, rfl⟩ := Nat.exists_eq_succ_of_ne_zero (Nat.ne_zero_of_lt hn)
    have hnode : (a, x.block (first 0 rest)) ∈ pre := Multiset.mem_add.2 (.inr (mem_chain DeviceNode.block 0 done a x rest))
    have hdone : done ++ (a, x) :: rest = done ++ [(a, x)] ++ rest := List.append_cons _ _ _
    refine .ne_zero hnode fun ha => ?_
    rw [first_cons, countLoop, if_neg ha]
    refine .read hnode rfl ?_
    have hrest := ih (done ++ [(a, x)]) (devsFound + 1) (Nat.lt_of_succ_lt_succ hn)
    rw [← hdone] at hrest
    refine hrest.weaken ?_
    rintro r cells ⟨rfl, rfl⟩
    exact ⟨by rw [List.length_cons]; omega, rfl⟩

/-- The node at a place, or `NULL` after the last one. -/
theorem nextLoop_spec {i : Nat} (others : Multiset (Nat × Block)) (done rest : List (Nat × DeviceNode))
    (hi : i ≤ rest.length) :
    let pre := others + chain DeviceNode.block 0 (done ++ rest)
    Triple pre (nextLoop i (first 0 rest)) fun r cells => r = first 0 (rest.drop i) ∧ cells = pre := by
  intro pre
  induction i generalizing done rest with
  | zero => exact .pure ⟨rfl, rfl⟩
  | succ i ih =>
    cases rest with
    | nil => exact absurd hi (Nat.not_succ_le_zero i)
    | cons node rest =>
      obtain ⟨a, x⟩ := node
      have hnode : (a, x.block (first 0 rest)) ∈ pre :=
        Multiset.mem_add.2 (.inr (mem_chain DeviceNode.block 0 done a x rest))
      have hdone : done ++ (a, x) :: rest = done ++ [(a, x)] ++ rest := List.append_cons _ _ _
      refine .read hnode rfl ?_
      have hrest := ih (done ++ [(a, x)]) rest (Nat.le_of_succ_le_succ hi)
      rw [← hdone] at hrest
      exact hrest

/-- What `touchmouse_open` finds at the node at a place. -/
theorem openedRecord_spec {l : DeviceList} (h : l.Lists platform infos) {i : Nat} (hi : i < l.nodes.length) :
    Triple l.cells (openedRecord (first 0 (l.nodes.drop i))) fun info cells =>
      (infos.filter platform.isTouchMouse)[i]? = some info ∧ cells = l.cells := by
  have hlisted : i < (l.hids.filter (platform.isTouchMouse ·.2)).length := by
    rwa [← List.length_map, ← h.nodes, List.length_map]
  have hinfo : (infos.filter platform.isTouchMouse)[i]? = some (l.hids.filter (platform.isTouchMouse ·.2))[i].2 := by
    rw [← h.records, List.getElem?_map, List.getElem?_eq_getElem hlisted]
    rfl
  have hcurDev : l.nodes[i].2.curDev = (l.hids.filter (platform.isTouchMouse ·.2))[i].1 := by
    have hget := congrArg (·[i]?) h.nodes
    simpa [List.getElem?_eq_getElem hi, List.getElem?_eq_getElem hlisted] using hget
  have hrecord := (List.mem_filter.1 (List.getElem_mem hlisted)).1
  obtain ⟨⟨curDev, info⟩, hrec⟩ : ∃ hid, (l.hids.filter (platform.isTouchMouse ·.2))[i] = hid := ⟨_, rfl⟩
  obtain ⟨⟨a, x⟩, hnode⟩ : ∃ node, l.nodes[i] = node := ⟨_, rfl⟩
  rw [hrec] at hinfo hcurDev hrecord
  rw [hnode] at hcurDev
  obtain ⟨hids₁, hids₂, hids⟩ := List.append_of_mem hrecord
  have hnodes : l.nodes = l.nodes.take i ++ (a, x) :: l.nodes.drop (i + 1) := by
    rw [← hnode, List.getElem_cons_drop, List.take_append_drop]
  have hcell : (a, x.block (first 0 (l.nodes.drop (i + 1)))) ∈ l.cells := by
    have hmem := mem_chain DeviceNode.block 0 (l.nodes.take i) a x (l.nodes.drop (i + 1))
    rw [← hnodes] at hmem
    exact Multiset.mem_add.2 (.inr (Multiset.mem_add.2 (.inl hmem)))
  have hpair : (x.pair, .hidPair x.curDev (first 0 l.hids)) ∈ l.cells := by
    refine Multiset.mem_add.2 (.inr (Multiset.mem_add.2 (.inr ?_)))
    exact Multiset.mem_coe.2 (List.mem_map.2 ⟨(a, x), hnode ▸ List.getElem_mem hi, rfl⟩)
  have hhid : (x.curDev, .hidDeviceInfo info (first 0 hids₂)) ∈ l.cells := by
    refine Multiset.mem_add.2 (.inl ?_)
    rw [hids, show x.curDev = curDev from hcurDev]
    exact mem_chain Block.hidDeviceInfo 0 hids₁ curDev info hids₂
  rw [List.drop_eq_getElem_cons hi, hnode, first_cons]
  exact .read hcell rfl (.read hpair rfl (.read hhid rfl (.pure ⟨hinfo, rfl⟩)))

/-! ## The two programs -/

/-- The count of a list. -/
theorem count_spec {l : DeviceList} (h : l.Lists platform infos) {n : Nat} (hn : l.cells.card < n) :
    Triple l.cells (countLoop n l.head 0) fun r cells =>
      r = (infos.filter platform.isTouchMouse).length ∧ cells = l.cells := by
  have hlength : l.nodes.length < n := by
    rw [DeviceList.cells, Multiset.card_add] at hn
    exact Nat.lt_of_le_of_lt (Nat.le_trans (length_le_card (first 0 l.hids) l.nodes) (Nat.le_add_left _ _)) hn
  have hcells : l.cells = hidCells l.hids + pairCells (first 0 l.hids) l.nodes + chain DeviceNode.block 0 ([] ++ l.nodes) := by
    rw [DeviceList.cells, deviceCells, List.nil_append]
    ac_rfl
  rw [hcells, ← h.length]
  refine (countLoop_spec _ [] l.nodes 0 hlength).weaken ?_
  rintro r cells ⟨rfl, rfl⟩
  exact ⟨Nat.zero_add _, rfl⟩

theorem next_spec {l : DeviceList} {i : Nat} (hi : i ≤ l.nodes.length) :
    Triple l.cells (nextLoop i l.head) fun r cells => r = first 0 (l.nodes.drop i) ∧ cells = l.cells := by
  have hcells : l.cells = hidCells l.hids + pairCells (first 0 l.hids) l.nodes + chain DeviceNode.block 0 ([] ++ l.nodes) := by
    rw [DeviceList.cells, deviceCells, List.nil_append]
    ac_rfl
  rw [hcells]
  exact nextLoop_spec _ [] l.nodes hi

theorem consoleDemo_spec (platform : HidPlatform) (infos : List HidDeviceInfo) :
    Triple 0 (consoleDemo platform infos) fun r cells =>
      r = (infos.filter platform.isTouchMouse).head? ∧ cells = 0 := by
  apply Triple.bind (touchmouseEnumerateDevices_spec platform infos) (zero_add 0).symm
  rintro _ _ ⟨l, hlists, rfl, rfl⟩
  rw [add_zero]
  apply Triple.addresses
  intro n hn
  apply Triple.bind (count_spec hlists hn) (add_zero _).symm
  rintro _ _ ⟨rfl, rfl⟩
  rw [add_zero, ← hlists.length]
  split
  · next hnone =>
    have hnil : l.nodes = [] := List.length_eq_zero_iff.1 hnone
    have hempty : infos.filter platform.isTouchMouse = [] := by
      rw [← List.length_eq_zero_iff, ← hlists.length, hnone]
    exact .pure ⟨by rw [hempty]; rfl, hlists.cells_nil hnil⟩
  · next hsome =>
    have hopen := openedRecord_spec hlists (Nat.pos_of_ne_zero hsome)
    apply Triple.bind hopen (add_zero _).symm
    rintro info _ ⟨hinfo, rfl⟩
    rw [add_zero]
    apply Triple.bind (touchmouseFreeEnumeration_spec hlists) (add_zero _).symm
    rintro _ _ rfl
    exact .pure ⟨by rw [List.head?_eq_getElem?, hinfo], add_zero _⟩

/-- Another index than the number of TouchMice. -/
theorem mousePoller_spec (platform : HidPlatform) (infos : List HidDeviceInfo) {index : Int}
    (hindex : index.toNat ≠ (infos.filter platform.isTouchMouse).length) :
    Triple 0 (mousePoller platform infos index) fun r cells =>
      r = (infos.filter platform.isTouchMouse)[index.toNat]? ∧ cells = 0 := by
  apply Triple.bind (touchmouseEnumerateDevices_spec platform infos) (zero_add 0).symm
  rintro _ _ ⟨l, hlists, rfl, rfl⟩
  rw [add_zero]
  apply Triple.addresses
  intro n hn
  apply Triple.bind (count_spec hlists hn) (add_zero _).symm
  rintro _ _ ⟨rfl, rfl⟩
  rw [add_zero]
  split
  · next hless =>
    have hnone : (infos.filter platform.isTouchMouse)[index.toNat]? = none := List.getElem?_eq_none (by omega)
    apply Triple.bind (touchmouseFreeEnumeration_spec hlists) (add_zero _).symm
    rintro _ _ rfl
    exact .pure ⟨hnone.symm, add_zero _⟩
  · next hless =>
    have hlt : index.toNat < l.nodes.length := by
      rw [hlists.length]
      omega
    apply Triple.bind (next_spec (Nat.le_of_lt hlt)) (add_zero _).symm
    rintro _ _ ⟨rfl, rfl⟩
    rw [add_zero]
    apply Triple.bind (openedRecord_spec hlists hlt) (add_zero _).symm
    rintro info _ ⟨hinfo, rfl⟩
    rw [add_zero]
    apply Triple.bind (touchmouseFreeEnumeration_spec hlists) (add_zero _).symm
    rintro _ _ rfl
    exact .pure ⟨hinfo.symm, add_zero _⟩

/-- The index after the last one: the walk ends at `NULL`, which
`touchmouse_open` reads. -/
theorem mousePoller_faults (platform : HidPlatform) (infos : List HidDeviceInfo) {index : Int}
    (hindex : index.toNat = (infos.filter platform.isTouchMouse).length) :
    Faults 0 (mousePoller platform infos index) := by
  apply Faults.bind (touchmouseEnumerateDevices_spec platform infos) (zero_add 0).symm
  rintro _ _ ⟨l, hlists, rfl, rfl⟩
  rw [add_zero]
  apply Faults.addresses
  intro n hn
  apply Faults.bind (count_spec hlists hn) (add_zero _).symm
  rintro _ _ ⟨rfl, rfl⟩
  rw [add_zero, if_neg (by omega)]
  apply Faults.bind (next_spec (by rw [hindex, hlists.length])) (add_zero _).symm
  rintro _ _ ⟨rfl, rfl⟩
  rw [hindex, ← hlists.length, List.drop_length, openedRecord, bind_assoc]
  exact .read_null

/-- **The example programs**, beside any other blocks. The demo opens the
first TouchMouse there is. The viewer opens the one at its index, if there is
one, and faults exactly if the index is the number of TouchMice (none of them
for an index below 0). What they enumerate they free. -/
theorem example_clients_open (platform : HidPlatform) (infos : List HidDeviceInfo) (index : Int) {heap : Heap Block}
    {cells : Multiset (Nat × Block)} (h : heap.Holds cells) :
    let touchMice := infos.filter platform.isTouchMouse
    (∃ heap', consoleDemo platform infos heap = some (touchMice.head?, heap') ∧ heap'.Holds cells) ∧
      (mousePoller platform infos index heap = none ↔ index.toNat = touchMice.length) ∧
      ∀ opened heap', mousePoller platform infos index heap = some (opened, heap') →
        opened = touchMice[index.toNat]? ∧ heap'.Holds cells := by
  intro touchMice
  rw [← zero_add cells] at h
  refine ⟨?_, ?_, fun opened heap' hrun => ?_⟩
  · obtain ⟨_, heap', _, hrun, ⟨rfl, rfl⟩, hheap⟩ := consoleDemo_spec platform infos cells heap h
    exact ⟨heap', hrun, by rwa [zero_add] at hheap⟩
  · constructor
    · intro hnone
      by_contra hindex
      obtain ⟨_, _, _, hrun, -⟩ := mousePoller_spec platform infos hindex cells heap h
      rw [hnone] at hrun
      cases hrun
    · exact fun hindex => mousePoller_faults platform infos hindex cells heap h
  · by_cases hindex : index.toNat = touchMice.length
    · rw [mousePoller_faults platform infos hindex cells heap h] at hrun
      cases hrun
    · obtain ⟨_, _, _, hrun', ⟨rfl, rfl⟩, hheap⟩ := mousePoller_spec platform infos hindex cells heap h
      rw [hrun'] at hrun
      cases hrun
      exact ⟨rfl, by rwa [zero_add] at hheap⟩

/-- One TouchMouse, and the index 1. -/
theorem example_clients_open_one : mousePoller .other [⟨"0001:0004:02", 0, 0, 2⟩] 1 .empty = none :=
  ((example_clients_open .other [⟨"0001:0004:02", 0, 0, 2⟩] 1 Heap.holds_empty).2.1).2 (by decide)

end TouchMouse
