import TouchMouse.Memory.Chain
import TouchMouse.Model.Enumerate

/-!
# Lists of devices

What each function of the enumeration does to the cells of its list. The
loops that build append to a list whose last node they hold a pointer to
(`chain_snoc_snoc`), those that release take it from the front. A list of
devices is a list of nodes, a pair for each, and the HIDAPI list that the
pairs point into (`DeviceList`).
-/

namespace TouchMouse
open Memory

/-! ## The list of HIDAPI -/

/-- The cells of a HIDAPI list. -/
abbrev hidCells (hids : List (Nat × HidDeviceInfo)) : Multiset (Nat × Block) := chain Block.hidDeviceInfo 0 hids

/-- To append a record is to make it, and to link the last one to it. -/
theorem hidEnumerateLoop_spec (infos : List HidDeviceInfo) (hids : List (Nat × HidDeviceInfo)) :
    Triple (hidCells hids) (hidEnumerateLoop infos (first 0 hids) (lastAddr hids)) fun root cells =>
      ∃ new, new.map Prod.snd = infos ∧ root = first 0 (hids ++ new) ∧ cells = hidCells (hids ++ new) := by
  induction infos generalizing hids with
  | nil => exact .pure ⟨[], rfl, by rw [List.append_nil], by rw [List.append_nil]⟩
  | cons info infos ih =>
    apply Triple.alloc
    intro tmp _
    have hnext := ih (hids ++ [(tmp, info)])
    rw [lastAddr_snoc] at hnext
    have hpost : ∀ root cells,
        (∃ new, new.map Prod.snd = infos ∧ root = first 0 (hids ++ [(tmp, info)] ++ new) ∧
          cells = hidCells (hids ++ [(tmp, info)] ++ new)) →
        ∃ new, new.map Prod.snd = info :: infos ∧ root = first 0 (hids ++ new) ∧ cells = hidCells (hids ++ new) := by
      rintro root cells ⟨new, hnew, hroot, hcells⟩
      rw [List.append_assoc] at hroot hcells
      exact ⟨(tmp, info) :: new, by rw [List.map_cons, hnew], hroot, hcells⟩
    rcases List.eq_nil_or_concat' hids with rfl | ⟨init, ⟨last, x⟩, rfl⟩
    · rw [lastAddr_nil, if_neg (not_not.2 rfl)]
      exact hnext.weaken hpost
    · rw [hidCells, chain_snoc_snoc] at hnext
      rw [hidCells, chain_snoc, lastAddr_snoc]
      apply Triple.ne_zero (a := last) (Multiset.mem_cons_of_mem (Multiset.mem_cons_self _ _))
      intro hlast
      rw [if_pos hlast]
      refine .modify (Multiset.cons_swap _ _ _) rfl ?_
      have hroot : first 0 (init ++ [(last, x)] ++ [(tmp, info)]) = first 0 (init ++ [(last, x)]) := by
        simp only [first_append, first_cons]
      rw [hroot] at hnext
      exact hnext.weaken hpost

theorem hidEnumerate_spec (infos : List HidDeviceInfo) :
    Triple 0 (hidEnumerate infos) fun root cells =>
      ∃ hids, hids.map Prod.snd = infos ∧ root = first 0 hids ∧ cells = hidCells hids :=
  hidEnumerateLoop_spec infos []

theorem hidFreeLoop_spec {n : Nat} {hids : List (Nat × HidDeviceInfo)} (hn : hids.length < n) :
    Triple (hidCells hids) (hidFreeLoop n (first 0 hids)) fun _ cells => cells = 0 := by
  induction hids generalizing n with
  | nil =>
    obtain ⟨n, rfl⟩ := Nat.exists_eq_succ_of_ne_zero (Nat.ne_of_gt hn)
    exact .pure rfl
  | cons hid hids ih =>
    obtain ⟨a, info⟩ := hid
    obtain ⟨n, rfl⟩ := Nat.exists_eq_succ_of_ne_zero (Nat.ne_zero_of_lt hn)
    have hmem := Multiset.mem_cons_self (a, Block.hidDeviceInfo info (first 0 hids)) (hidCells hids)
    apply Triple.ne_zero hmem
    intro ha
    rw [first_cons, hidFreeLoop, if_neg ha]
    refine .read hmem rfl ?_
    exact .free rfl (ih (Nat.lt_of_succ_lt_succ hn))

theorem hidFreeEnumeration_spec (hids : List (Nat × HidDeviceInfo)) :
    Triple (hidCells hids) (hidFreeEnumeration (first 0 hids)) fun _ cells => cells = 0 := by
  refine .addresses fun n hn => hidFreeLoop_spec ?_
  rwa [card_chain] at hn

/-! ## The list of devices -/

/-- A node of the list, besides its pointer to the next: its pair, and the
HIDAPI record in it. -/
structure DeviceNode where
  pair : Nat
  curDev : Nat

/-- The block of a node. -/
abbrev DeviceNode.block (node : DeviceNode) (next : Nat) : Block := .touchmouseDeviceInfo next node.pair

/-- The cells of the pairs, each with the head of the HIDAPI list. -/
def pairCells (devs : Nat) (nodes : List (Nat × DeviceNode)) : Multiset (Nat × Block) :=
  .ofList (nodes.map fun n => (n.2.pair, .hidPair n.2.curDev devs))

/-- The cells of a list of devices, and its pairs. -/
abbrev deviceCells (devs : Nat) (nodes : List (Nat × DeviceNode)) : Multiset (Nat × Block) :=
  chain DeviceNode.block 0 nodes + pairCells devs nodes

theorem pairCells_cons (devs : Nat) (n : Nat × DeviceNode) (nodes : List (Nat × DeviceNode)) :
    pairCells devs (n :: nodes) = (n.2.pair, .hidPair n.2.curDev devs) ::ₘ pairCells devs nodes := rfl

theorem deviceCells_nil (devs : Nat) : deviceCells devs [] = 0 := rfl

theorem length_le_card (devs : Nat) (nodes : List (Nat × DeviceNode)) :
    nodes.length ≤ (deviceCells devs nodes).card := by
  rw [deviceCells, Multiset.card_add, card_chain]
  exact Nat.le_add_right _ _

theorem pairCells_snoc (devs : Nat) (nodes : List (Nat × DeviceNode)) (n : Nat × DeviceNode) :
    pairCells devs (nodes ++ [n]) = (n.2.pair, .hidPair n.2.curDev devs) ::ₘ pairCells devs nodes := by
  have hsplit : pairCells devs (nodes ++ [n]) = pairCells devs nodes + pairCells devs [n] := by
    simp only [pairCells, List.map_append, Multiset.coe_add]
  rw [hsplit, pairCells_cons, Multiset.add_cons]
  exact congrArg _ (add_zero _)

/-- Where `prev_next_pointer` points after some nodes were made. -/
def nextPointer (nodes : List (Nat × DeviceNode)) : NextPointer :=
  if nodes = [] then .retval else .next (lastAddr nodes)

theorem nextPointer_snoc (nodes : List (Nat × DeviceNode)) (a : Nat) (x : DeviceNode) :
    nextPointer (nodes ++ [(a, x)]) = .next a := by
  rw [nextPointer, if_neg (List.append_ne_nil_of_right_ne_nil _ (List.cons_ne_nil _ _)), lastAddr_snoc]

/-- To store a new node is to link the last one to it, or to start the list
with it. -/
theorem store_spec (nodes : List (Nat × DeviceNode)) (node : Nat) (x : DeviceNode) :
    Triple ((node, x.block 0) ::ₘ chain DeviceNode.block 0 nodes)
      ((nextPointer nodes).store node (first 0 nodes)) fun retval cells =>
        retval = first 0 (nodes ++ [(node, x)]) ∧ cells = chain DeviceNode.block 0 (nodes ++ [(node, x)]) := by
  rcases List.eq_nil_or_concat' nodes with rfl | ⟨init, ⟨last, y⟩, rfl⟩
  · exact .pure ⟨rfl, rfl⟩
  · rw [nextPointer_snoc, chain_snoc_snoc, chain_snoc]
    refine .modify (Multiset.cons_swap _ _ _) rfl (.pure ⟨?_, rfl⟩)
    simp only [first_append, first_cons]

/-- The body of the loop appends a node. -/
theorem addDevice_spec (devs curDev : Nat) (nodes : List (Nat × DeviceNode)) :
    Triple (deviceCells devs nodes) (addDevice devs curDev (first 0 nodes) (nextPointer nodes)) fun r cells =>
      ∃ node pair, r = (first 0 (nodes ++ [(node, ⟨pair, curDev⟩)]), nextPointer (nodes ++ [(node, ⟨pair, curDev⟩)])) ∧
        cells = deviceCells devs (nodes ++ [(node, ⟨pair, curDev⟩)]) := by
  apply Triple.alloc
  intro node _
  apply Triple.bind (store_spec nodes node ⟨0, curDev⟩) (Multiset.cons_add _ _ _).symm
  rintro retval cells ⟨rfl, rfl⟩
  apply Triple.alloc
  intro pair _
  rw [chain_snoc, Multiset.cons_add, Multiset.cons_swap]
  refine .modify rfl rfl (.modify (Multiset.cons_swap _ _ _) rfl (.pure ⟨node, pair, ?_, ?_⟩))
  · rw [nextPointer_snoc, first_append, first_append]
    rfl
  · rw [deviceCells, chain_snoc, pairCells_snoc, Multiset.cons_add, Multiset.add_cons, Multiset.cons_swap]

/-- The loop goes on from some record: it appends a node for each TouchMouse
that is left. -/
theorem enumerateLoop_spec (platform : HidPlatform) (devs : Nat) {n : Nat} (done rest : List (Nat × HidDeviceInfo))
    (nodes : List (Nat × DeviceNode)) (hn : rest.length < n) :
    Triple (hidCells (done ++ rest) + deviceCells devs nodes)
      (enumerateLoop platform devs n (first 0 rest) (first 0 nodes) (nextPointer nodes)) fun retval cells =>
        ∃ new, new.map (·.2.curDev) = (rest.filter (platform.isTouchMouse ·.2)).map Prod.fst ∧
          retval = first 0 (nodes ++ new) ∧ cells = hidCells (done ++ rest) + deviceCells devs (nodes ++ new) := by
  induction rest generalizing n done nodes with
  | nil =>
    obtain ⟨n, rfl⟩ := Nat.exists_eq_succ_of_ne_zero (Nat.ne_of_gt hn)
    exact .pure ⟨[], rfl, by rw [List.append_nil], by rw [List.append_nil, List.append_nil]⟩
  | cons hid rest ih =>
    obtain ⟨curDev, info⟩ := hid
    obtain ⟨n, rfl⟩ := Nat.exists_eq_succ_of_ne_zero (Nat.ne_zero_of_lt hn)
    have hmem := mem_chain Block.hidDeviceInfo 0 done curDev info rest
    have hdone : done ++ (curDev, info) :: rest = done ++ [(curDev, info)] ++ rest := List.append_cons _ _ _
    apply Triple.ne_zero (Multiset.mem_add.2 (.inl hmem))
    intro hcur
    rw [first_cons, enumerateLoop, if_neg hcur]
    refine .read (Multiset.mem_add.2 (.inl hmem)) rfl ?_
    dsimp only
    split
    · next hmatch =>
      apply Triple.bind (addDevice_spec devs curDev nodes) (add_comm _ _)
      rintro ⟨retval, prev⟩ cells ⟨node, pair, hr, rfl⟩
      obtain ⟨rfl, rfl⟩ := Prod.mk.inj hr
      rw [add_comm]
      refine .read (Multiset.mem_add.2 (.inl hmem)) rfl ?_
      rw [hdone]
      refine (ih (done ++ [(curDev, info)]) _ (Nat.lt_of_succ_lt_succ hn)).weaken ?_
      rintro retval cells ⟨new, hnew, hretval, hcells⟩
      rw [List.append_assoc] at hretval
      rw [List.append_assoc nodes] at hcells
      exact ⟨(node, ⟨pair, curDev⟩) :: new, by simp [hmatch, hnew], hretval, hcells⟩
    · next hmatch =>
      rw [pure_bind]
      refine .read (Multiset.mem_add.2 (.inl hmem)) rfl ?_
      rw [hdone]
      refine (ih (done ++ [(curDev, info)]) nodes (Nat.lt_of_succ_lt_succ hn)).weaken ?_
      rintro retval cells ⟨new, hnew, hretval, hcells⟩
      exact ⟨new, by simp [hmatch, hnew], hretval, hcells⟩

theorem freeLoop_spec {n : Nat} (devs : Nat) (nodes : List (Nat × DeviceNode)) (hn : nodes.length < n) :
    Triple (deviceCells devs nodes) (freeLoop n (first 0 nodes)) fun _ cells => cells = 0 := by
  induction nodes generalizing n with
  | nil =>
    obtain ⟨n, rfl⟩ := Nat.exists_eq_succ_of_ne_zero (Nat.ne_of_gt hn)
    exact .pure rfl
  | cons node nodes ih =>
    obtain ⟨a, x⟩ := node
    obtain ⟨n, rfl⟩ := Nat.exists_eq_succ_of_ne_zero (Nat.ne_zero_of_lt hn)
    rw [deviceCells, chain_cons, pairCells_cons, Multiset.cons_add, Multiset.add_cons]
    have hmem := Multiset.mem_cons_self (a, x.block (first 0 nodes))
      ((x.pair, .hidPair x.curDev devs) ::ₘ deviceCells devs nodes)
    apply Triple.ne_zero hmem
    intro ha
    rw [first_cons, freeLoop, if_neg ha]
    refine .read hmem rfl (.read hmem rfl ?_)
    exact .free (Multiset.cons_swap _ _ _) (.free rfl (ih (Nat.lt_of_succ_lt_succ hn)))

/-! ## Whole lists -/

/-- A list of devices as it lies in memory: the HIDAPI records it keeps, and
its nodes. -/
structure DeviceList where
  hids : List (Nat × HidDeviceInfo)
  nodes : List (Nat × DeviceNode)

namespace DeviceList

variable {platform : HidPlatform} {infos : List HidDeviceInfo} {l : DeviceList}

def head (l : DeviceList) : Nat := first 0 l.nodes

/-- All its cells. Each pair carries the head of the HIDAPI list. -/
def cells (l : DeviceList) : Multiset (Nat × Block) := hidCells l.hids + deviceCells (first 0 l.hids) l.nodes

/-- It is the list of the TouchMice among some interfaces: it keeps the
records of all of them, unless there is none to list, and its nodes refer to
those of the TouchMice, in order. -/
structure Lists (platform : HidPlatform) (infos : List HidDeviceInfo) (l : DeviceList) : Prop where
  hids : l.hids.map Prod.snd = if infos.any platform.isTouchMouse then infos else []
  nodes : l.nodes.map (·.2.curDev) = (l.hids.filter (platform.isTouchMouse ·.2)).map Prod.fst

/-- A live list whose head is `NULL` has no nodes. -/
theorem nodes_eq_nil {heap : Heap Block} {rest : Multiset (Nat × Block)} (h : heap.Holds (l.cells + rest))
    (hhead : l.head = 0) : l.nodes = [] := by
  obtain ⟨hids, nodes⟩ := l
  cases nodes with
  | nil => rfl
  | cons node nodes =>
    obtain ⟨a, x⟩ := node
    have hmem : (a, x.block (first 0 nodes)) ∈ cells ⟨hids, (a, x) :: nodes⟩ + rest :=
      Multiset.mem_add.2 (.inl (Multiset.mem_add.2 (.inr (Multiset.mem_add.2 (.inl (Multiset.mem_cons_self _ _))))))
    exact absurd hhead (Nat.ne_of_gt (Heap.lt_next ((h.block _ _).2 hmem)).1)

/-- There are nodes exactly if there is a TouchMouse to list. -/
theorem nodes_eq_nil_iff {hids : List (Nat × HidDeviceInfo)} {nodes : List (Nat × DeviceNode)}
    (hnodes : nodes.map (·.2.curDev) = (hids.filter (platform.isTouchMouse ·.2)).map Prod.fst) :
    nodes = [] ↔ (hids.map Prod.snd).any platform.isTouchMouse = false := by
  rw [← List.map_eq_nil_iff (f := (·.2.curDev)), hnodes, List.map_eq_nil_iff, List.filter_eq_nil_iff, List.any_map,
    List.any_eq_false]
  rfl

/-- A list without nodes keeps nothing. -/
theorem Lists.cells_nil (h : l.Lists platform infos) (hnodes : l.nodes = []) : l.cells = 0 := by
  have hnone := (nodes_eq_nil_iff h.nodes).1 hnodes
  have hids := h.hids
  split at hids
  · next hany =>
    rw [hids, hany] at hnone
    cases hnone
  · rw [cells, hnodes, List.map_eq_nil_iff.1 hids]
    rfl

end DeviceList

/-- **Enumeration** makes the list of the TouchMice, and no other block stays. -/
theorem touchmouseEnumerateDevices_spec (platform : HidPlatform) (infos : List HidDeviceInfo) :
    Triple 0 (touchmouseEnumerateDevices platform infos) fun retval cells =>
      ∃ l : DeviceList, l.Lists platform infos ∧ retval = l.head ∧ cells = l.cells := by
  apply Triple.bind (hidEnumerate_spec infos) (zero_add 0).symm
  rintro devs cells ⟨hids, hinfos, rfl, rfl⟩
  rw [add_zero]
  apply Triple.addresses
  intro n hn
  rw [card_chain] at hn
  have hstart : hidCells hids = hidCells ([] ++ hids) + deviceCells (first 0 hids) [] + 0 := by
    rw [deviceCells_nil, List.nil_append, add_zero, add_zero]
  apply Triple.bind (enumerateLoop_spec platform (first 0 hids) [] hids [] hn) hstart
  rintro retval cells ⟨nodes, hnodes, rfl, rfl⟩
  rw [List.nil_append, List.nil_append, add_zero]
  have hiff := DeviceList.nodes_eq_nil_iff hnodes
  rw [hinfos] at hiff
  cases nodes with
  | nil =>
    -- nothing to list, so the records are released at once
    have hnone : ¬ infos.any platform.isTouchMouse = true := Bool.not_eq_true _ ▸ hiff.1 rfl
    rw [deviceCells_nil, add_zero, first_nil, if_pos rfl]
    apply Triple.bind (hidFreeEnumeration_spec hids) (add_zero _).symm
    rintro _ cells rfl
    exact .pure ⟨⟨[], []⟩, ⟨by rw [if_neg hnone]; rfl, rfl⟩, rfl, rfl⟩
  | cons node nodes =>
    obtain ⟨a, x⟩ := node
    have hany : infos.any platform.isTouchMouse = true :=
      Bool.of_not_eq_false fun hnone => List.cons_ne_nil _ _ (hiff.2 hnone)
    refine .ne_zero (a := a) (b := x.block (first 0 nodes)) ?_ fun ha => ?_
    · exact Multiset.mem_add.2 (.inr (Multiset.mem_add.2 (.inl (Multiset.mem_cons_self _ _))))
    · rw [first_cons, if_neg ha]
      exact .pure ⟨⟨hids, (a, x) :: nodes⟩, ⟨by rw [if_pos hany]; exact hinfos, hnodes⟩, rfl, rfl⟩

/-- **Freeing** releases all of it. -/
theorem touchmouseFreeEnumeration_spec {platform : HidPlatform} {infos : List HidDeviceInfo} {l : DeviceList}
    (h : l.Lists platform infos) : Triple l.cells (touchmouseFreeEnumeration l.head) fun _ cells => cells = 0 := by
  obtain ⟨hids, nodes⟩ := l
  cases nodes with
  | nil =>
    rw [h.cells_nil rfl]
    exact .addresses fun n hn => freeLoop_spec 0 [] hn
  | cons node nodes =>
    obtain ⟨a, x⟩ := node
    have hnode : (a, x.block (first 0 nodes)) ∈ deviceCells (first 0 hids) ((a, x) :: nodes) :=
      Multiset.mem_add.2 (.inl (Multiset.mem_cons_self _ _))
    have hpair : (x.pair, .hidPair x.curDev (first 0 hids)) ∈ deviceCells (first 0 hids) ((a, x) :: nodes) :=
      Multiset.mem_add.2 (.inr (by rw [pairCells_cons]; exact Multiset.mem_cons_self _ _))
    apply Triple.ne_zero (Multiset.mem_add.2 (.inr hnode))
    intro ha
    rw [touchmouseFreeEnumeration]
    show Triple _ (if a ≠ 0 then _ else _) _
    rw [if_pos ha]
    refine .read (Multiset.mem_add.2 (.inr hnode)) rfl (.read (Multiset.mem_add.2 (.inr hpair)) rfl ?_)
    apply Triple.bind (hidFreeEnumeration_spec hids) rfl
    rintro _ cells rfl
    rw [zero_add]
    exact .addresses fun n hn => freeLoop_spec _ _ (Nat.lt_of_le_of_lt (length_le_card _ _) hn)

/-! ## A walk -/

/-- A walk along the nodes finds the records they refer to, in order. -/
theorem walk_spec {n : Nat} (devs : Nat) (hids listed : List (Nat × HidDeviceInfo)) (hlisted : ∀ hid ∈ listed, hid ∈ hids)
    (done rest : List (Nat × DeviceNode)) (hrest : rest.map (·.2.curDev) = listed.map Prod.fst) (hn : rest.length < n) :
    let pre := hidCells hids + deviceCells devs (done ++ rest)
    Triple pre (walk n (first 0 rest)) fun infos cells => infos = listed.map Prod.snd ∧ cells = pre := by
  intro pre
  induction rest generalizing n done listed with
  | nil =>
    obtain ⟨n, rfl⟩ := Nat.exists_eq_succ_of_ne_zero (Nat.ne_of_gt hn)
    exact .pure ⟨by rw [List.map_eq_nil_iff.1 hrest.symm]; rfl, rfl⟩
  | cons node rest ih =>
    obtain ⟨a, x⟩ := node
    obtain ⟨n, rfl⟩ := Nat.exists_eq_succ_of_ne_zero (Nat.ne_zero_of_lt hn)
    cases listed with
    | nil => cases hrest
    | cons hid listed =>
      obtain ⟨curDev, info⟩ := hid
      obtain ⟨hcur, hrest⟩ := List.cons.inj hrest
      obtain ⟨hids₁, hids₂, hsplit⟩ := List.append_of_mem (hlisted (curDev, info) List.mem_cons_self)
      have hnode : (a, x.block (first 0 rest)) ∈ pre :=
        Multiset.mem_add.2 (.inr (Multiset.mem_add.2 (.inl (mem_chain DeviceNode.block 0 done a x rest))))
      have hpair : (x.pair, .hidPair x.curDev devs) ∈ pre := by
        refine Multiset.mem_add.2 (.inr (Multiset.mem_add.2 (.inr ?_)))
        exact Multiset.mem_coe.2 (List.mem_map.2 ⟨(a, x), List.mem_append_right _ List.mem_cons_self, rfl⟩)
      have hrecord : (x.curDev, .hidDeviceInfo info (first 0 hids₂)) ∈ pre := by
        refine Multiset.mem_add.2 (.inl ?_)
        rw [hsplit, show x.curDev = curDev from hcur]
        exact mem_chain Block.hidDeviceInfo 0 hids₁ curDev info hids₂
      apply Triple.ne_zero hnode
      intro ha
      rw [first_cons, walk, if_neg ha, openedRecord]
      simp only [bind_assoc, pure_bind]
      refine .read hnode rfl (.read hpair rfl (.read hrecord rfl (.read hnode rfl ?_)))
      have hdone : pre = hidCells hids + deviceCells devs (done ++ [(a, x)] ++ rest) := by
        rw [List.append_assoc, List.singleton_append]
      rw [hdone]
      have hnext := ih listed (fun hid hmem => hlisted hid (List.mem_cons_of_mem _ hmem)) (done ++ [(a, x)]) hrest
        (Nat.lt_of_succ_lt_succ hn)
      apply Triple.bind hnext (add_zero _).symm
      rintro infos cells ⟨rfl, rfl⟩
      exact .pure ⟨rfl, add_zero _⟩

/-- The records of a list are those of the TouchMice. -/
theorem listedRecords_spec {platform : HidPlatform} {infos : List HidDeviceInfo} {l : DeviceList}
    (h : l.Lists platform infos) :
    Triple l.cells (listedRecords l.head) fun records cells =>
      records = infos.filter platform.isTouchMouse ∧ cells = l.cells := by
  have hrecords : (l.hids.filter (platform.isTouchMouse ·.2)).map Prod.snd = infos.filter platform.isTouchMouse := by
    have hfilter : (l.hids.filter (platform.isTouchMouse ·.2)).map Prod.snd =
      (l.hids.map Prod.snd).filter platform.isTouchMouse := by
      rw [List.filter_map]
      rfl
    rw [hfilter, h.hids]
    split
    · rfl
    · next hnone =>
      rw [List.filter_nil, eq_comm, List.filter_eq_nil_iff]
      exact fun info hmem hmatch => hnone (List.any_eq_true.2 ⟨info, hmem, hmatch⟩)
  rw [← hrecords]
  apply Triple.addresses
  intro n hn
  refine walk_spec (first 0 l.hids) l.hids _ (fun hid hmem => (List.mem_filter.1 hmem).1) [] l.nodes h.nodes ?_
  rw [DeviceList.cells, Multiset.card_add] at hn
  exact Nat.lt_of_le_of_lt (Nat.le_trans (length_le_card _ _) (Nat.le_add_left _ _)) hn

end TouchMouse
