import TouchMouse.HidApi.Delivery
import TouchMouse.Memory.Chain
import TouchMouse.Model.InputReports

/-!
# The list of reports on the heap

The list functions of HIDAPI do to the cells of the list what
`attachReport` and `HidDevice.returnData` say: whatever the order of arrivals
and reads, nothing is read or released that is not live, and `hid_close`
leaves nothing.
-/

namespace TouchMouse.InputReports
open Memory

/-! ## One function -/

/-- A node of the list, besides its pointer to the next. -/
structure Node where
  data : Nat
  bytes : Report

abbrev Node.block (node : Node) (next : Nat) : HidBlock := .inputReport node.data node.bytes.length next

/-- The cells of the data of some nodes. -/
def dataCells (nodes : List (Nat × Node)) : Multiset (Nat × HidBlock) :=
  .ofList (nodes.map fun n => (n.2.data, .reportData n.2.bytes))

/-- The cells of a list that ends at `last`. -/
abbrev listCells (last : Nat) (nodes : List (Nat × Node)) : Multiset (Nat × HidBlock) :=
  chain Node.block last nodes + dataCells nodes

/-- The reports of a list. -/
def contents (nodes : List (Nat × Node)) : List Report := nodes.map (·.2.bytes)

theorem listCells_cons (last a : Nat) (x : Node) (nodes : List (Nat × Node)) :
    listCells last ((a, x) :: nodes) =
      (a, x.block (first last nodes)) ::ₘ (x.data, .reportData x.bytes) ::ₘ listCells last nodes := by
  have hdata : dataCells ((a, x) :: nodes) = (x.data, .reportData x.bytes) ::ₘ dataCells nodes := rfl
  rw [listCells, chain_cons, hdata, Multiset.cons_add, Multiset.add_cons]

/-- The last node. -/
theorem listCells_snoc (last a : Nat) (x : Node) (nodes : List (Nat × Node)) :
    listCells last (nodes ++ [(a, x)]) =
      (a, x.block last) ::ₘ (x.data, .reportData x.bytes) ::ₘ listCells a nodes := by
  have hdata : dataCells (nodes ++ [(a, x)]) = (x.data, .reportData x.bytes) ::ₘ dataCells nodes := by
    have hone : dataCells [(a, x)] = (x.data, .reportData x.bytes) ::ₘ 0 := rfl
    have hsplit : dataCells (nodes ++ [(a, x)]) = dataCells nodes + dataCells [(a, x)] := by
      simp only [dataCells, List.map_append, Multiset.coe_add]
    rw [hsplit, hone, Multiset.add_cons, add_zero]
  rw [listCells, chain_snoc, hdata, Multiset.cons_add, Multiset.add_cons]

theorem length_le_listCells (last : Nat) (nodes : List (Nat × Node)) : nodes.length ≤ (listCells last nodes).card := by
  rw [listCells, Multiset.card_add, card_chain]
  exact Nat.le_add_right _ _

theorem returnData_spec (a : Nat) (x : Node) (nodes : List (Nat × Node)) (length : Nat) :
    Triple (listCells 0 ((a, x) :: nodes)) (returnData a length) fun r cells =>
      r = (x.bytes.take length, first 0 nodes) ∧ cells = listCells 0 nodes := by
  have hnode := Multiset.mem_cons_self (a, x.block (first 0 nodes)) ((x.data, .reportData x.bytes) ::ₘ listCells 0 nodes)
  have hdata : (x.data, HidBlock.reportData x.bytes) ∈
      (a, x.block (first 0 nodes)) ::ₘ (x.data, .reportData x.bytes) ::ₘ listCells 0 nodes :=
    Multiset.mem_cons_of_mem (Multiset.mem_cons_self _ _)
  rw [listCells_cons]
  refine .read hnode rfl ?_
  have hlen : (if length < x.bytes.length then length else x.bytes.length) = min length x.bytes.length := by
    split <;> omega
  have htake : x.bytes.take (min length x.bytes.length) = x.bytes.take length :=
    List.take_eq_take_iff.2 (by omega)
  have hfrees : Triple ((a, x.block (first 0 nodes)) ::ₘ (x.data, .reportData x.bytes) ::ₘ listCells 0 nodes)
      (do
        Prog.free x.data
        Prog.free a
        pure (x.bytes.take length, first 0 nodes)) fun r cells =>
      r = (x.bytes.take length, first 0 nodes) ∧ cells = listCells 0 nodes :=
    .free (Multiset.cons_swap _ _ _) (.free rfl (.pure ⟨rfl, rfl⟩))
  dsimp only
  rw [hlen]
  split
  · rw [bind_assoc]
    refine .read hdata rfl ?_
    rw [pure_bind, htake]
    exact hfrees
  · next hzero =>
    have hnil : x.bytes.take length = [] := by
      rw [List.take_eq_nil_iff, ← List.length_eq_zero_iff]
      omega
    rw [pure_bind]
    rwa [hnil] at hfrees ⊢

theorem newReport_spec (buffer : Report) (nodes : List (Nat × Node)) :
    Triple (listCells 0 nodes) (newReport buffer) fun rpt cells =>
      ∃ data, rpt ≠ 0 ∧
        cells = (rpt, Node.block ⟨data, buffer⟩ 0) ::ₘ (data, .reportData buffer) ::ₘ listCells 0 nodes := by
  apply Triple.alloc
  intro rpt hrpt
  apply Triple.alloc
  intro data _
  refine .modify rfl rfl ?_
  refine .modify (Multiset.cons_swap _ _ _) rfl ?_
  exact .pure ⟨data, hrpt, rfl⟩

/-- From any node the walk ends at the last one. -/
theorem findEnd_spec {n : Nat} (done rest : List (Nat × Node)) (a : Nat) (x : Node) (numQueued : Nat)
    (others : Multiset (Nat × HidBlock)) (hn : rest.length < n) :
    let pre := others + listCells 0 (done ++ (a, x) :: rest)
    Triple pre (findEnd n a numQueued) fun r cells =>
      r = (lastAddr ((a, x) :: rest), numQueued + rest.length) ∧ cells = pre := by
  intro pre
  induction rest generalizing n done a x numQueued with
  | nil =>
    obtain ⟨n, rfl⟩ := Nat.exists_eq_succ_of_ne_zero (Nat.ne_of_gt hn)
    have hnode : (a, x.block 0) ∈ pre :=
      Multiset.mem_add.2 (.inr (Multiset.mem_add.2 (.inl (mem_chain Node.block 0 done a x []))))
    rw [findEnd]
    refine .read hnode rfl ?_
    exact .pure ⟨rfl, rfl⟩
  | cons node rest ih =>
    obtain ⟨a', x'⟩ := node
    obtain ⟨n, rfl⟩ := Nat.exists_eq_succ_of_ne_zero (Nat.ne_zero_of_lt hn)
    have hnode : (a, x.block a') ∈ pre :=
      Multiset.mem_add.2 (.inr (Multiset.mem_add.2 (.inl (mem_chain Node.block 0 done a x ((a', x') :: rest)))))
    have hdone : done ++ (a, x) :: (a', x') :: rest = done ++ [(a, x)] ++ (a', x') :: rest := List.append_cons _ _ _
    have hnext : (a', x'.block (first 0 rest)) ∈ pre := by
      refine Multiset.mem_add.2 (.inr (Multiset.mem_add.2 (.inl ?_)))
      rw [hdone]
      exact mem_chain Node.block 0 (done ++ [(a, x)]) a' x' rest
    rw [findEnd]
    refine .read hnode rfl ?_
    apply Triple.ne_zero hnext
    intro ha'
    dsimp only
    rw [if_pos ha']
    have hrest := ih (done ++ [(a, x)]) a' x' (numQueued + 1) (Nat.lt_of_succ_lt_succ hn)
    rw [← hdone] at hrest
    refine hrest.weaken ?_
    rintro r cells ⟨rfl, rfl⟩
    refine ⟨?_, rfl⟩
    rw [List.length_cons, Nat.add_right_comm, Nat.add_assoc]
    rfl

/-- To link a new report to the last one. -/
theorem link_spec {nodes init : List (Nat × Node)} {last : Nat} {y : Node} (hnodes : nodes = init ++ [(last, y)])
    (rpt : Nat) (x : Node) :
    Triple ((rpt, x.block 0) ::ₘ (x.data, .reportData x.bytes) ::ₘ listCells 0 nodes)
      (Prog.modify (HidBlock.setNext rpt) last) fun _ cells => cells = listCells 0 (nodes ++ [(rpt, x)]) := by
  have hlast : (rpt, x.block 0) ::ₘ (x.data, .reportData x.bytes) ::ₘ listCells 0 nodes =
      (last, y.block 0) ::ₘ (rpt, x.block 0) ::ₘ (x.data, .reportData x.bytes) ::ₘ (y.data, .reportData y.bytes) ::ₘ
        listCells last init := by
    rw [hnodes, listCells_snoc, Multiset.cons_swap (x.data, _), Multiset.cons_swap (rpt, _)]
  have hlinked : (last, y.block rpt) ::ₘ (rpt, x.block 0) ::ₘ (x.data, .reportData x.bytes) ::ₘ
      (y.data, .reportData y.bytes) ::ₘ listCells last init = listCells 0 (nodes ++ [(rpt, x)]) := by
    rw [hnodes, listCells_snoc, listCells_snoc, Multiset.cons_swap (last, _), Multiset.cons_swap (last, _)]
  have hmodify : Triple ((last, y.block 0) ::ₘ (rpt, x.block 0) ::ₘ (x.data, .reportData x.bytes) ::ₘ
      (y.data, .reportData y.bytes) ::ₘ listCells last init) (Prog.modify (HidBlock.setNext rpt) last >>= pure)
      fun _ cells => cells = listCells 0 (nodes ++ [(rpt, x)]) :=
    .modify rfl rfl (.pure hlinked)
  rw [hlast]
  rwa [bind_pure] at hmodify

/-- **An arrival** attaches the report, and displaces the oldest of 32. -/
theorem readCallback_spec (buffer : Report) (nodes : List (Nat × Node)) :
    Triple (listCells 0 nodes) (readCallback buffer (first 0 nodes)) fun inputReports cells =>
      ∃ nodes', inputReports = first 0 nodes' ∧ cells = listCells 0 nodes' ∧
        contents nodes' = (attachReport (contents nodes) buffer).1 := by
  apply Triple.bind (newReport_spec buffer nodes) (add_zero _).symm
  rintro rpt cells ⟨data, hrpt, rfl⟩
  rw [add_zero]
  cases nodes with
  | nil => exact .pure ⟨[(rpt, ⟨data, buffer⟩)], rfl, (listCells_cons 0 rpt ⟨data, buffer⟩ []).symm, rfl⟩
  | cons node rest =>
    obtain ⟨a, x⟩ := node
    obtain ⟨init, ⟨last, y⟩, hnodes⟩ := (List.eq_nil_or_concat' ((a, x) :: rest)).resolve_left (List.cons_ne_nil _ _)
    have hlast : lastAddr ((a, x) :: rest) = last := by rw [hnodes, lastAddr_snoc]
    have hnode : (a, x.block (first 0 rest)) ∈ listCells 0 ((a, x) :: rest) := by
      rw [listCells_cons]
      exact Multiset.mem_cons_self _ _
    apply Triple.ne_zero (Multiset.mem_cons_of_mem (Multiset.mem_cons_of_mem hnode))
    intro ha
    rw [first_cons, attach, if_neg ha]
    apply Triple.addresses
    intro n hn
    have hlength : rest.length < n := by
      have hle := length_le_listCells 0 ((a, x) :: rest)
      rw [Multiset.card_cons, Multiset.card_cons] at hn
      rw [List.length_cons] at hle
      omega
    have hwalk := findEnd_spec [] rest a x 0
      ((rpt, Node.block ⟨data, buffer⟩ 0) ::ₘ (data, .reportData buffer) ::ₘ 0) hlength
    have hsplit : (rpt, Node.block ⟨data, buffer⟩ 0) ::ₘ (data, .reportData buffer) ::ₘ listCells 0 ((a, x) :: rest) =
        (rpt, Node.block ⟨data, buffer⟩ 0) ::ₘ (data, .reportData buffer) ::ₘ 0 +
          listCells 0 ([] ++ (a, x) :: rest) := by
      rw [Multiset.cons_add, Multiset.cons_add, zero_add, List.nil_append]
    rw [hsplit]
    apply Triple.bind hwalk (add_zero _).symm
    rintro ⟨cur, numQueued⟩ cells ⟨hr, rfl⟩
    obtain ⟨rfl, rfl⟩ := Prod.mk.inj hr
    rw [add_zero, ← hsplit, hlast, Nat.zero_add]
    apply Triple.bind (link_spec hnodes rpt ⟨data, buffer⟩) (add_zero _).symm
    rintro _ cells rfl
    rw [add_zero]
    have hcontents : contents ((a, x) :: rest) = x.bytes :: contents rest := rfl
    have hnumQueued : (contents rest).length = rest.length := List.length_map _
    have hsnoc : ∀ nodes : List (Nat × Node), contents (nodes ++ [(rpt, ⟨data, buffer⟩)]) = contents nodes ++ [buffer] :=
      fun nodes => List.map_append
    rw [hcontents, attachReport]
    split
    · next hfull =>
      -- the oldest is popped off
      rw [if_pos (hnumQueued ▸ hfull), List.cons_append]
      have hpopped := returnData_spec a x (rest ++ [(rpt, (⟨data, buffer⟩ : Node))]) 0
      refine Triple.bind hpopped (add_zero _).symm ?_
      rintro r cells ⟨rfl, rfl⟩
      rw [add_zero]
      exact .pure ⟨_, rfl, rfl, hsnoc rest⟩
    · next hroom =>
      rw [if_neg (hnumQueued ▸ hroom)]
      exact .pure ⟨_, rfl, rfl, hsnoc ((a, x) :: rest)⟩

theorem closeLoop_spec {n : Nat} (nodes : List (Nat × Node)) (hn : nodes.length < n) :
    Triple (listCells 0 nodes) (closeLoop n (first 0 nodes)) fun _ cells => cells = 0 := by
  induction nodes generalizing n with
  | nil =>
    obtain ⟨n, rfl⟩ := Nat.exists_eq_succ_of_ne_zero (Nat.ne_of_gt hn)
    exact .pure rfl
  | cons node nodes ih =>
    obtain ⟨a, x⟩ := node
    obtain ⟨n, rfl⟩ := Nat.exists_eq_succ_of_ne_zero (Nat.ne_zero_of_lt hn)
    have hnode : (a, x.block (first 0 nodes)) ∈ listCells 0 ((a, x) :: nodes) := by
      rw [listCells_cons]
      exact Multiset.mem_cons_self _ _
    apply Triple.ne_zero hnode
    intro ha
    rw [first_cons, closeLoop, if_neg ha]
    apply Triple.bind (returnData_spec a x nodes 0) (add_zero _).symm
    rintro r cells ⟨rfl, rfl⟩
    rw [add_zero]
    exact ih (Nat.lt_of_succ_lt_succ hn)

/-- **Closing** releases every report. -/
theorem hidClose_spec (nodes : List (Nat × Node)) :
    Triple (listCells 0 nodes) (hidClose (first 0 nodes)) fun _ cells => cells = 0 := by
  apply Triple.addresses
  intro n hn
  exact closeLoop_spec nodes (Nat.lt_of_le_of_lt (length_le_listCells 0 nodes) hn)

/-! ## Any order of arrivals and reads -/

/-- The heap consists of the list of these reports. -/
def Lists (s : State) (reports : List Report) : Prop :=
  ∃ nodes, s.heap.Holds (listCells 0 nodes) ∧ s.inputReports = first 0 nodes ∧ contents nodes = reports

theorem opened_lists : Lists .opened [] := ⟨[], Heap.holds_empty, rfl, rfl⟩

theorem Lists.received {s : State} {reports : List Report} (h : Lists s reports) (buffer : Report) :
    ∃ s', s.exec (.received buffer) = some (s', []) ∧ Lists s' (attachReport reports buffer).1 := by
  obtain ⟨nodes, hheap, hfirst, rfl⟩ := h
  rw [← add_zero (listCells 0 nodes)] at hheap
  obtain ⟨inputReports, heap, cells, hrun, ⟨nodes', rfl, rfl, hcontents⟩, hheap'⟩ :=
    readCallback_spec buffer nodes 0 s.heap hheap
  rw [add_zero] at hheap'
  refine ⟨⟨heap, first 0 nodes'⟩, ?_, nodes', hheap', rfl, hcontents⟩
  rw [State.exec, hfirst, hrun]
  rfl

theorem Lists.returnData {s : State} {rpt : Report} {next : List Report} (h : Lists s (rpt :: next)) (length : Nat) :
    ∃ s', s.exec (.returnData length) = some (s', [rpt.take length]) ∧ Lists s' next := by
  obtain ⟨nodes, hheap, hfirst, hcontents⟩ := h
  obtain ⟨⟨a, x⟩, rest, rfl, rfl, rfl⟩ := List.map_eq_cons_iff.1 hcontents
  have hne : a ≠ 0 := by
    have hmem : (a, x.block (first 0 rest)) ∈ listCells 0 ((a, x) :: rest) := by
      rw [listCells_cons]
      exact Multiset.mem_cons_self _ _
    exact Nat.ne_of_gt (Heap.lt_next ((hheap.block _ _).2 hmem)).1
  rw [← add_zero (listCells 0 _)] at hheap
  obtain ⟨r, heap, cells, hrun, ⟨rfl, rfl⟩, hheap'⟩ := returnData_spec a x rest length 0 s.heap hheap
  rw [add_zero] at hheap'
  refine ⟨⟨heap, first 0 rest⟩, ?_, rest, hheap', rfl, rfl⟩
  rw [State.exec, hfirst, first_cons, if_neg hne, hrun]
  rfl

theorem State.run_snoc {ops : List ListOp} {op : ListOp} {s s' s'' : State} {data data' : List (List UInt8)}
    (h : State.run ops s = some (s', data)) (hop : s'.exec op = some (s'', data')) :
    State.run (ops ++ [op]) s = some (s'', data ++ data') := by
  induction ops generalizing s data with
  | nil =>
    cases h
    rw [List.nil_append, State.run, hop]
    show some (s'', data' ++ []) = _
    rw [List.append_nil, List.nil_append]
  | cons o ops ih =>
    rw [State.run, Option.bind_eq_some_iff] at h
    obtain ⟨⟨mid, out⟩, hexec, h⟩ := h
    obtain ⟨⟨last, outs⟩, hrun, hout⟩ := Option.map_eq_some_iff.1 h
    obtain ⟨rfl, rfl⟩ := Prod.mk.inj hout
    rw [List.cons_append, State.run, hexec]
    show (State.run (ops ++ [op]) mid).map _ = _
    rw [ih hrun, List.append_assoc]
    rfl

end TouchMouse.InputReports

namespace TouchMouse
open Memory Labelled InputReports

variable {ι : Type}

/-- What a step does to the list. -/
def HidLabel.op? : HidLabel ι → Option ListOp
  | .received rpt _ => some (.received rpt)
  | .returnedData _ read _ _ => some (.returnData read.length)
  | _ => none

def listOps (labels : List (HidLabel ι)) : List ListOp := labels.filterMap HidLabel.op?

/-- The operations of a run, on the heap: they return what the reads of the
run return, and the heap lists what the device lists. -/
structure OnHeap (labels : List (HidLabel ι)) (s : System ι) (state : State) : Prop where
  runs : State.run (listOps labels) .opened = some (state, (returnedData labels).map fun r => r.2.2)
  lists : Lists state s.dev.inputReports

theorem OnHeap.quiet {labels : List (HidLabel ι)} {s s' : System ι} {state : State} (h : OnHeap labels s state)
    {a : HidLabel ι} (hop : a.op? = none) (hreturned : a.returnedData? = none)
    (hreports : s'.dev.inputReports = s.dev.inputReports) : OnHeap (labels ++ [a]) s' state where
  runs := by
    rw [listOps, filterMap_snoc, hop, returnedData_snoc, hreturned, Option.toList_none, Option.toList_none,
      List.append_nil, List.append_nil]
    exact h.runs
  lists := hreports ▸ h.lists

variable [DecidableEq ι] {b : Backend}

theorem onHeap_step (hb : b.Lawful) {labels : List (HidLabel ι)} {s s' : System ι} {a : HidLabel ι}
    (h : ∃ state, OnHeap labels s state) (moves : HidStep b s a s') : ∃ state, OnHeap (labels ++ [a]) s' state := by
  obtain ⟨state, h⟩ := h
  cases moves with
  | @received rpt inputReports displaced readers _ attached _ =>
    obtain ⟨state', hexec, hlists⟩ := h.lists.received rpt
    rw [attached] at hlists
    refine ⟨state', ⟨?_, hlists⟩⟩
    have hrun := State.run_snoc h.runs hexec
    rw [List.append_nil] at hrun
    rw [listOps, filterMap_snoc, returnedData_snoc]
    exact hrun.trans (congrArg (fun r => some (state', List.map _ r)) (List.append_nil _).symm)
  | flagged flag => exact ⟨state, h.quiet rfl rfl (hb.flag _ _ flag).1⟩
  | ended => exact ⟨state, h.quiet rfl rfl rfl⟩
  | wakes => exact ⟨state, h.quiet rfl rfl rfl⟩
  | waits => exact ⟨state, h.quiet rfl rfl rfl⟩
  | returned => exact ⟨state, h.quiet rfl rfl rfl⟩
  | @returnedData i read bytesRead data dev turn =>
    cases turn.does hb with
    | @takes rpt next reports =>
      obtain ⟨state', hexec, hlists⟩ := (reports ▸ h.lists : Lists state (rpt :: next)).returnData read.length
      refine ⟨state', ⟨?_, hlists⟩⟩
      rw [listOps, filterMap_snoc, returnedData_snoc, List.map_append]
      exact State.run_snoc h.runs hexec

theorem run_onHeap (hb : b.Lawful) {labels : List (HidLabel ι)} {s : System ι}
    (h : Run (HidStep b) .opened labels s) : ∃ state, OnHeap labels s state :=
  h.invariant (I := fun labels s => ∃ state, OnHeap labels s state) ⟨.opened, rfl, opened_lists⟩
    (fun _ _ _ _ honHeap moves => onHeap_step hb honHeap moves)

/-- **The linked list implements the queue**, over every run: none of its
operations faults, the reads return what the list held, and after `hid_close`
every block was released, once. -/
theorem report_list_on_heap (hb : b = Linux.backend ∨ b = Mac.backend) {labels : List (HidLabel ι)} {s : System ι}
    (h : Run (HidStep b) .opened labels s) :
    ∃ state, OnHeap labels s state ∧
      ∃ heap, hidClose state.inputReports state.heap = some ((), heap) ∧
        ∀ a, 0 < a → a < heap.next → heap.released.count a = 1 := by
  obtain ⟨state, hstate⟩ := run_onHeap (lawful_of hb) h
  obtain ⟨nodes, hheap, hfirst, -⟩ := hstate.lists
  rw [← add_zero (listCells 0 nodes)] at hheap
  obtain ⟨_, heap, cells, hclose, rfl, hempty⟩ := hidClose_spec nodes 0 state.heap hheap
  refine ⟨state, hstate, heap, hfirst ▸ hclose, fun a hpos hlt => ?_⟩
  exact heap.released_once hpos hlt (hempty.dead a)

/-- Of 33 reports one was displaced and one read, and 31 are still listed when
the device is closed. -/
theorem report_list_on_heap_full :
    ∃ state, OnHeap fullLabels (.listing fullLeft) state ∧
      ∃ heap, hidClose state.inputReports state.heap = some ((), heap) ∧
        ∀ a, 0 < a → a < heap.next → heap.released.count a = 1 :=
  report_list_on_heap (.inl rfl) fullLabels_run

end TouchMouse
