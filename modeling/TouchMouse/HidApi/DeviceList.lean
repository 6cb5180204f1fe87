import TouchMouse.HidApi.ReportList
import TouchMouse.Model.DeviceList

/-!
# The list of the open devices on the heap

What the functions of the device list do to its cells: those of the list
itself, and for each device its buffer and its reports. The walks go from a
device to the next as those of the report list do; that one device is not
another is because two blocks are not at one address.
-/

namespace TouchMouse.Mac
open Memory InputReports

/-! ## What the devices are -/

/-- A device as its list and its reports have it. -/
structure OpenDevice where
  deviceHandle : Nat
  attached : Bool
  disconnected : Bool
  inputReports : List Report
  deriving DecidableEq

def OpenDevice.made : OpenDevice := ⟨0, false, false, []⟩

/-- `hid_open_path` opened the handle, unless it did before. -/
def OpenDevice.attach (osDev : Nat) (d : OpenDevice) : OpenDevice :=
  if d.attached then d else { d with deviceHandle := osDev, attached := true }

def OpenDevice.receive (rpt : Report) (d : OpenDevice) : OpenDevice :=
  { d with inputReports := (attachReport d.inputReports rpt).1 }

/-- The handle was unplugged. -/
def OpenDevice.remove (devRef : Nat) (d : OpenDevice) : OpenDevice :=
  if d.deviceHandle = devRef then { d with disconnected := true } else d

/-! ## Their cells -/

/-- A device on the heap: its buffer, once it has one, and its reports. -/
structure HidNode where
  deviceHandle : Nat
  disconnected : Bool
  buf : Option (Nat × List UInt8)
  reports : List (Nat × Node)

namespace HidNode

def bufAddr (x : HidNode) : Nat := (x.buf.map Prod.fst).getD 0

/-- Its fields, given where its `next` points. -/
abbrev fields (x : HidNode) (next : Nat) : DeviceFields :=
  ⟨x.deviceHandle, x.disconnected, x.bufAddr, first 0 x.reports, next⟩

abbrev block (x : HidNode) (next : Nat) : HidBlock := .hidDevice (x.fields next)

def device (x : HidNode) : OpenDevice := ⟨x.deviceHandle, x.buf.isSome, x.disconnected, contents x.reports⟩

def bufCells (x : HidNode) : Multiset (Nat × HidBlock) :=
  .ofList (x.buf.toList.map fun b => (b.1, .reportData b.2))

/-- The cells that belong to it, besides its own. -/
def owned (x : HidNode) : Multiset (Nat × HidBlock) := x.bufCells + listCells 0 x.reports

def made : HidNode := ⟨0, false, none, []⟩

/-- The cell and the cells of a device. -/
def cells (a : Nat) (x : HidNode) (next : Nat) : Multiset (Nat × HidBlock) := (a, x.block next) ::ₘ x.owned

end HidNode

open HidNode

/-- What the devices of a list own. -/
def ownedCells (nodes : List (Nat × HidNode)) : Multiset (Nat × HidBlock) := (nodes.map (·.2.owned)).sum

abbrev openCells (nodes : List (Nat × HidNode)) : Multiset (Nat × HidBlock) :=
  chain HidNode.block 0 nodes + ownedCells nodes

/-- The cells of the devices before and after one. -/
def otherCells (before : List (Nat × HidNode)) (a : Nat) (after : List (Nat × HidNode)) :
    Multiset (Nat × HidBlock) :=
  chain HidNode.block a before + chain HidNode.block 0 after + (ownedCells before + ownedCells after)

theorem ownedCells_cons (n : Nat × HidNode) (nodes : List (Nat × HidNode)) :
    ownedCells (n :: nodes) = n.2.owned + ownedCells nodes := List.sum_cons

theorem ownedCells_append (nodes nodes' : List (Nat × HidNode)) :
    ownedCells (nodes ++ nodes') = ownedCells nodes + ownedCells nodes' := by
  rw [ownedCells, List.map_append, List.sum_append]
  rfl

/-- One device among the others. -/
theorem openCells_split (before : List (Nat × HidNode)) (a : Nat) (x : HidNode)
    (after : List (Nat × HidNode)) :
    openCells (before ++ (a, x) :: after) = x.cells a (first 0 after) + otherCells before a after := by
  rw [openCells, chain_append, chain_cons, first_cons, ownedCells_append, ownedCells_cons, cells, otherCells]
  simp only [Multiset.cons_add, Multiset.add_cons]
  exact congrArg _ (by ac_rfl)

/-- A program that works on one device. -/
theorem onDevice {α : Type} {p : Prog HidBlock α} {a : Nat} {x : HidNode} {post : α → HidNode → Prop}
    (hp : ∀ next, Triple (x.cells a next) p fun r cells => ∃ x', post r x' ∧ cells = x'.cells a next)
    (before after : List (Nat × HidNode)) :
    Triple (openCells (before ++ (a, x) :: after)) p fun r cells =>
      ∃ x', post r x' ∧ cells = openCells (before ++ (a, x') :: after) := by
  rw [openCells_split]
  refine ((hp (first 0 after)).frame (otherCells before a after)).weaken ?_
  rintro r _ ⟨_, ⟨x', hpost, rfl⟩, rfl⟩
  exact ⟨x', hpost, (openCells_split before a x' after).symm⟩

/-! ## One function -/

/-- From any device the walk ends at the last one, and links the new one. -/
theorem appendLoop_spec {n : Nat} (done rest : List (Nat × HidNode)) (a : Nat) (x : HidNode) (dev : Nat)
    (y : HidNode) (hn : rest.length < n) :
    Triple ((dev, y.block 0) ::ₘ chain HidNode.block 0 (done ++ (a, x) :: rest)) (appendLoop dev n a)
      fun _ cells => cells = chain HidNode.block 0 (done ++ (a, x) :: rest ++ [(dev, y)]) := by
  induction rest generalizing n done a x with
  | nil =>
    obtain ⟨n, rfl⟩ := Nat.exists_eq_succ_of_ne_zero (Nat.ne_of_gt hn)
    have hcells : (dev, y.block 0) ::ₘ chain HidNode.block 0 (done ++ [(a, x)]) =
        (a, x.block 0) ::ₘ (dev, y.block 0) ::ₘ chain HidNode.block a done := by
      rw [chain_snoc, Multiset.cons_swap]
    have hlinked : chain HidNode.block 0 (done ++ [(a, x)] ++ [(dev, y)]) =
        (a, x.block dev) ::ₘ (dev, y.block 0) ::ₘ chain HidNode.block a done := chain_snoc_snoc ..
    have hmem := Multiset.mem_cons_self (a, x.block 0) ((dev, y.block 0) ::ₘ chain HidNode.block a done)
    rw [hcells, hlinked]
    refine .ne_zero hmem fun ha => ?_
    rw [appendLoop, if_neg ha]
    refine .read hmem rfl ?_
    dsimp only
    rw [if_pos rfl, ← bind_pure (Prog.modify _ _)]
    exact .modify rfl rfl (.pure rfl)
  | cons node rest ih =>
    obtain ⟨a', x'⟩ := node
    obtain ⟨n, rfl⟩ := Nat.exists_eq_succ_of_ne_zero (Nat.ne_zero_of_lt hn)
    have hdone : done ++ (a, x) :: (a', x') :: rest = done ++ [(a, x)] ++ (a', x') :: rest := List.append_cons _ _ _
    have hnode : (a, x.block a') ∈ (dev, y.block 0) ::ₘ chain HidNode.block 0 (done ++ (a, x) :: (a', x') :: rest) :=
      Multiset.mem_cons_of_mem (mem_chain HidNode.block 0 done a x ((a', x') :: rest))
    have hnext : (a', x'.block (first 0 rest)) ∈
        (dev, y.block 0) ::ₘ chain HidNode.block 0 (done ++ (a, x) :: (a', x') :: rest) := by
      rw [hdone]
      exact Multiset.mem_cons_of_mem (mem_chain HidNode.block 0 (done ++ [(a, x)]) a' x' rest)
    refine .ne_zero hnode fun ha => .ne_zero hnext fun ha' => ?_
    rw [appendLoop, if_neg ha]
    refine .read hnode rfl ?_
    dsimp only
    rw [if_neg ha', hdone]
    exact ih (done ++ [(a, x)]) a' x' (Nat.lt_of_succ_lt_succ hn)

theorem length_le_cells (nodes : List (Nat × HidNode)) : nodes.length ≤ (openCells nodes).card := by
  rw [Multiset.card_add, card_chain]
  exact Nat.le_add_right _ _

/-- The first device of a list is not at `NULL`. -/
theorem ne_zero_of_cons {α : Type} {p : Prog HidBlock α} {post : α → Multiset (Nat × HidBlock) → Prop} {a : Nat}
    {x : HidNode} {nodes : List (Nat × HidNode)} {others : Multiset (Nat × HidBlock)}
    (hp : a ≠ 0 → Triple (others + openCells ((a, x) :: nodes)) p post) :
    Triple (others + openCells ((a, x) :: nodes)) p post :=
  .ne_zero (Multiset.mem_add.2 (.inr (Multiset.mem_add.2 (.inl (Multiset.mem_cons_self _ _))))) hp

/-- **A new device** is the last of the list. -/
theorem newHidDevice_spec (nodes : List (Nat × HidNode)) :
    Triple (openCells nodes) (newHidDevice (first 0 nodes)) fun r cells =>
      ∃ dev, r = (dev, first 0 (nodes ++ [(dev, .made)])) ∧ cells = openCells (nodes ++ [(dev, .made)]) := by
  apply Triple.alloc
  intro dev _
  have howned : ownedCells (nodes ++ [(dev, .made)]) = ownedCells nodes := by
    rw [ownedCells_append]
    exact add_zero _
  cases nodes with
  | nil => exact .pure ⟨dev, rfl, rfl⟩
  | cons node rest =>
    obtain ⟨a, x⟩ := node
    have hcons : ∀ b, (dev, b) ::ₘ openCells ((a, x) :: rest) = {(dev, b)} + openCells ((a, x) :: rest) :=
      fun _ => (Multiset.singleton_add _ _).symm
    rw [hcons]
    apply ne_zero_of_cons
    intro ha
    rw [first_cons, if_neg ha]
    apply Triple.addresses
    intro n hn
    have hlength : rest.length < n := by
      have hle := length_le_cells ((a, x) :: rest)
      rw [Multiset.card_add] at hn
      rw [List.length_cons] at hle
      omega
    have happend := appendLoop_spec [] rest a x dev .made hlength
    have hpart : {(dev, made.block 0)} + openCells ((a, x) :: rest) =
        (dev, made.block 0) ::ₘ chain HidNode.block 0 ([] ++ (a, x) :: rest) + ownedCells ((a, x) :: rest) := by
      rw [← hcons, List.nil_append, Multiset.cons_add]
    apply Triple.bind happend hpart
    rintro _ cells rfl
    exact .pure ⟨dev, rfl, by rw [openCells, howned]; rfl⟩

theorem freeReports_spec {n : Nat} (nodes : List (Nat × Node)) (hn : nodes.length < n) :
    Triple (listCells 0 nodes) (freeReports n (first 0 nodes)) fun _ cells => cells = 0 := by
  induction nodes generalizing n with
  | nil =>
    obtain ⟨n, rfl⟩ := Nat.exists_eq_succ_of_ne_zero (Nat.ne_of_gt hn)
    exact .pure rfl
  | cons node nodes ih =>
    obtain ⟨a, x⟩ := node
    obtain ⟨n, rfl⟩ := Nat.exists_eq_succ_of_ne_zero (Nat.ne_zero_of_lt hn)
    rw [listCells_cons]
    have hnode := Multiset.mem_cons_self (a, x.block (first 0 nodes)) ((x.data, .reportData x.bytes) ::ₘ listCells 0 nodes)
    refine .ne_zero hnode fun ha => ?_
    rw [first_cons, freeReports, if_neg ha]
    refine .read hnode rfl ?_
    exact .free (Multiset.cons_swap _ _ _) (.free rfl (ih (Nat.lt_of_succ_lt_succ hn)))

/-- From any device before it the walk ends at the one to remove, and links
past it. -/
theorem unlinkLoop_spec {n : Nat} (done between : List (Nat × HidNode)) (a : Nat) (y : HidNode) (dev : Nat)
    (x : HidNode) (after : List (Nat × HidNode)) (hn : between.length < n) :
    Triple (chain HidNode.block 0 (done ++ (a, y) :: between ++ (dev, x) :: after)) (unlinkLoop dev n a)
      fun _ cells =>
        cells = (dev, x.block (first 0 after)) ::ₘ chain HidNode.block 0 (done ++ (a, y) :: between ++ after) := by
  induction between generalizing n done a y with
  | nil =>
    obtain ⟨n, rfl⟩ := Nat.exists_eq_succ_of_ne_zero (Nat.ne_of_gt hn)
    have hcells : chain HidNode.block 0 (done ++ [(a, y)] ++ (dev, x) :: after) =
        (a, y.block dev) ::ₘ (dev, x.block (first 0 after)) ::ₘ
          (chain HidNode.block a done + chain HidNode.block 0 after) := by
      rw [List.append_assoc, chain_append, List.singleton_append, chain_cons, chain_cons, first_cons, first_cons,
        Multiset.add_cons, Multiset.add_cons]
    have hunlinked : chain HidNode.block 0 (done ++ [(a, y)] ++ after) =
        (a, y.block (first 0 after)) ::ₘ (chain HidNode.block a done + chain HidNode.block 0 after) := by
      rw [List.append_assoc, chain_append, List.singleton_append, chain_cons, first_cons, Multiset.add_cons]
    rw [hcells, hunlinked, Multiset.cons_swap (dev, _)]
    refine .ne_zero (Multiset.mem_cons_self _ _) fun ha => ?_
    rw [unlinkLoop, if_neg ha]
    refine .read (Multiset.mem_cons_self _ _) rfl ?_
    dsimp only
    rw [if_pos rfl]
    refine .read (Multiset.mem_cons_of_mem (Multiset.mem_cons_self _ _)) rfl ?_
    rw [← bind_pure (Prog.modify _ _)]
    exact .modify rfl rfl (.pure rfl)
  | cons node between ih =>
    obtain ⟨a', y'⟩ := node
    obtain ⟨n, rfl⟩ := Nat.exists_eq_succ_of_ne_zero (Nat.ne_zero_of_lt hn)
    have hcells : chain HidNode.block 0 (done ++ (a, y) :: (a', y') :: between ++ (dev, x) :: after) =
        (a', y'.block (first 0 (between ++ (dev, x) :: after))) ::ₘ (dev, x.block (first 0 after)) ::ₘ
          (a, y.block a') ::ₘ (chain HidNode.block a done + (chain HidNode.block dev between +
            chain HidNode.block 0 after)) := by
      rw [List.append_assoc, List.cons_append, List.cons_append, chain_append, chain_cons, chain_cons, chain_append,
        chain_cons, first_cons, first_cons, first_cons]
      simp only [Multiset.add_cons]
      rw [Multiset.cons_swap (a, _), Multiset.cons_swap (a, _)]
    have hdone : ∀ rest, done ++ (a, y) :: (a', y') :: between ++ rest = done ++ [(a, y)] ++ (a', y') :: between ++ rest :=
      fun _ => by simp
    -- the next device is another one
    refine .distinct hcells fun hne => ?_
    have hnode : (a, y.block a') ∈ chain HidNode.block 0 (done ++ (a, y) :: (a', y') :: between ++ (dev, x) :: after) := by
      rw [hcells]
      exact Multiset.mem_cons_of_mem (Multiset.mem_cons_of_mem (Multiset.mem_cons_self _ _))
    refine .ne_zero hnode fun ha => ?_
    rw [unlinkLoop, if_neg ha]
    refine .read hnode rfl ?_
    dsimp only
    rw [if_neg hne, hdone, hdone]
    exact ih (done ++ [(a, y)]) a' y' (Nat.lt_of_succ_lt_succ hn)

/-- The list without a device of it. -/
theorem unlink_spec (before : List (Nat × HidNode)) (dev : Nat) (x : HidNode) (after : List (Nat × HidNode)) :
    Triple (chain HidNode.block 0 (before ++ (dev, x) :: after))
      (unlink dev (first 0 (before ++ (dev, x) :: after))) fun r cells =>
        r = first 0 (before ++ after) ∧
          cells = (dev, x.block (first 0 after)) ::ₘ chain HidNode.block 0 (before ++ after) := by
  cases before with
  | nil =>
    rw [List.nil_append, first_cons, unlink, if_pos rfl]
    exact .read (Multiset.mem_cons_self _ _) rfl (.pure ⟨rfl, rfl⟩)
  | cons node before =>
    obtain ⟨a, y⟩ := node
    have hcells : chain HidNode.block 0 ((a, y) :: before ++ (dev, x) :: after) =
        (a, y.block (first 0 (before ++ (dev, x) :: after))) ::ₘ (dev, x.block (first 0 after)) ::ₘ
          (chain HidNode.block dev before + chain HidNode.block 0 after) := by
      rw [List.cons_append, chain_cons, chain_append, chain_cons, first_cons, Multiset.add_cons]
    refine .distinct hcells fun hne => ?_
    rw [List.cons_append, first_cons, unlink, if_neg hne]
    apply Triple.addresses
    intro n hn
    have hlength : before.length < n := by
      rw [card_chain, List.length_cons, List.length_append] at hn
      omega
    apply Triple.bind (unlinkLoop_spec [] before a y dev x after hlength) (add_zero _).symm
    rintro _ cells rfl
    exact .pure ⟨rfl, add_zero _⟩

/-- **Freeing a device** takes what it owns, and no others. -/
theorem freeHidDevice_spec (before : List (Nat × HidNode)) (dev : Nat) (x : HidNode)
    (after : List (Nat × HidNode)) :
    Triple (openCells (before ++ (dev, x) :: after)) (freeHidDevice dev (first 0 (before ++ (dev, x) :: after)))
      fun r cells => r = first 0 (before ++ after) ∧ cells = openCells (before ++ after) := by
  have hmem : (dev, x.block (first 0 after)) ∈ chain HidNode.block 0 (before ++ (dev, x) :: after) :=
    mem_chain HidNode.block 0 before dev x after
  have howned : openCells (before ++ (dev, x) :: after) =
      listCells 0 x.reports + (x.bufCells +
        (chain HidNode.block 0 (before ++ (dev, x) :: after) + ownedCells (before ++ after))) := by
    rw [openCells, ownedCells_append, ownedCells_append, ownedCells_cons, owned]
    ac_rfl
  refine .ne_zero (Multiset.mem_add.2 (.inl hmem)) fun hdev => ?_
  rw [freeHidDevice, if_neg hdev]
  refine .read (Multiset.mem_add.2 (.inl hmem)) rfl ?_
  apply Triple.addresses
  intro n hn
  have hlength : x.reports.length < n := by
    rw [howned, Multiset.card_add] at hn
    exact Nat.lt_of_le_of_lt (Nat.le_trans (length_le_listCells 0 x.reports) (Nat.le_add_right _ _)) hn
  apply Triple.bind (freeReports_spec x.reports hlength) howned
  rintro _ cells rfl
  rw [zero_add]
  have hfreed : Triple (chain HidNode.block 0 (before ++ (dev, x) :: after) + ownedCells (before ++ after))
      (do
        let deviceList ← unlink dev (first 0 (before ++ (dev, x) :: after))
        Prog.free dev
        pure deviceList) fun r cells => r = first 0 (before ++ after) ∧ cells = openCells (before ++ after) := by
    apply Triple.bind (unlink_spec before dev x after) rfl
    rintro r cells ⟨rfl, rfl⟩
    rw [Multiset.cons_add]
    exact .free rfl (.pure ⟨rfl, rfl⟩)
  refine .read (Multiset.mem_add.2 (.inr (Multiset.mem_add.2 (.inl hmem)))) rfl ?_
  dsimp only
  rw [bufAddr, bufCells]
  cases x.buf with
  | none =>
    rw [Option.toList_none, List.map_nil, Multiset.coe_nil, zero_add]
    exact hfreed
  | some buf => exact .free rfl hfreed

/-- A device whose handle was unplugged, on the heap. -/
def HidNode.remove (devRef : Nat) (x : HidNode) : HidNode :=
  if x.deviceHandle = devRef then { x with disconnected := true } else x

def removed (devRef : Nat) (nodes : List (Nat × HidNode)) : List (Nat × HidNode) :=
  nodes.map fun n => (n.1, n.2.remove devRef)

@[simp] theorem first_removed (devRef last : Nat) (nodes : List (Nat × HidNode)) :
    first last (removed devRef nodes) = first last nodes := by
  cases nodes <;> rfl

theorem owned_remove (devRef : Nat) (x : HidNode) : (x.remove devRef).owned = x.owned := by
  rw [HidNode.remove]
  split <;> rfl

theorem ownedCells_removed (devRef : Nat) (nodes : List (Nat × HidNode)) :
    ownedCells (removed devRef nodes) = ownedCells nodes := by
  rw [ownedCells, removed, List.map_map]
  exact congrArg List.sum (List.map_congr_left fun n _ => owned_remove devRef n.2)

theorem removalLoop_spec {n : Nat} (devRef : Nat) (done rest : List (Nat × HidNode)) (hn : rest.length < n) :
    Triple (chain HidNode.block 0 (done ++ rest)) (removalLoop devRef n (first 0 rest)) fun _ cells =>
      cells = chain HidNode.block 0 (done ++ removed devRef rest) := by
  induction rest generalizing n done with
  | nil =>
    obtain ⟨n, rfl⟩ := Nat.exists_eq_succ_of_ne_zero (Nat.ne_of_gt hn)
    exact .pure rfl
  | cons node rest ih =>
    obtain ⟨a, x⟩ := node
    obtain ⟨n, rfl⟩ := Nat.exists_eq_succ_of_ne_zero (Nat.ne_zero_of_lt hn)
    have hmem := mem_chain HidNode.block 0 done a x rest
    have hdone : ∀ x rest, done ++ (a, x) :: rest = done ++ [(a, x)] ++ rest := fun _ _ => List.append_cons _ _ _
    have hcells : ∀ x : HidNode, chain HidNode.block 0 (done ++ (a, x) :: rest) =
        (a, x.block (first 0 rest)) ::ₘ (chain HidNode.block a done + chain HidNode.block 0 rest) := by
      intro x
      rw [chain_append, chain_cons, first_cons, Multiset.add_cons]
    have hremoved : removed devRef ((a, x) :: rest) = (a, x.remove devRef) :: removed devRef rest := rfl
    refine .ne_zero hmem fun ha => ?_
    rw [first_cons, removalLoop, if_neg ha, hremoved, HidNode.remove]
    refine .read hmem rfl ?_
    dsimp only
    split
    · refine .modify (hcells x) rfl ?_
      refine .read (Multiset.mem_cons_self _ _) rfl ?_
      have hrest := ih (done ++ [(a, { x with disconnected := true })]) (Nat.lt_of_succ_lt_succ hn)
      rw [← hdone, ← hdone, hcells] at hrest
      exact hrest
    · have hrest := ih (done ++ [(a, x)]) (Nat.lt_of_succ_lt_succ hn)
      rw [← hdone, ← hdone] at hrest
      exact hrest

/-- **A removal** marks the devices of the handle. -/
theorem hidDeviceRemovalCallback_spec (devRef : Nat) (nodes : List (Nat × HidNode)) :
    Triple (openCells nodes) (hidDeviceRemovalCallback devRef (first 0 nodes)) fun _ cells =>
      cells = openCells (removed devRef nodes) := by
  apply Triple.addresses
  intro n hn
  have hlength : nodes.length < n := Nat.lt_of_le_of_lt (length_le_cells nodes) hn
  refine ((removalLoop_spec devRef [] nodes hlength).frame (ownedCells nodes)).weaken ?_
  rintro _ _ ⟨_, rfl, rfl⟩
  rw [openCells, ownedCells_removed]
  rfl

/-! The functions on one device. -/

theorem attachHandle_spec {a : Nat} {x : HidNode} (hbuf : x.buf = none) (osDev maxInputReportLen next : Nat) :
    Triple (x.cells a next) (attachHandle a osDev maxInputReportLen) fun _ cells =>
      ∃ x', (∃ buf, x' = { x with deviceHandle := osDev, buf := some buf }) ∧ cells = x'.cells a next := by
  refine .modify rfl rfl ?_
  apply Triple.alloc
  intro buf _
  rw [← bind_pure (Prog.modify _ _)]
  refine .modify (Multiset.cons_swap _ _ _) rfl (.pure ⟨_, ⟨(buf, List.replicate maxInputReportLen 0), rfl⟩, ?_⟩)
  have howned : ({ x with deviceHandle := osDev, buf := some (buf, List.replicate maxInputReportLen 0) } : HidNode).owned =
      (buf, .reportData (List.replicate maxInputReportLen 0)) ::ₘ x.owned := by
    rw [owned, owned, bufCells, bufCells, hbuf, Option.toList_none, List.map_nil, Multiset.coe_nil, zero_add]
    exact Multiset.singleton_add _ _
  rw [cells, howned]
  rfl

/-- The reports of a device among its cells. -/
theorem cells_reports (a : Nat) (x : HidNode) (next : Nat) :
    x.cells a next = listCells 0 x.reports + ((a, x.block next) ::ₘ x.bufCells) := by
  rw [cells, owned, Multiset.add_cons, add_comm]

/-- After a function on its reports, the device gets their head. -/
theorem assignReports {α : Type} {a : Nat} {x : HidNode} {next : Nat} {reports : List (Nat × Node)}
    {f : Unit → Prog HidBlock α} {post : α → Multiset (Nat × HidBlock) → Prop}
    (hf : Triple (cells a { x with reports := reports } next) (f ()) post) :
    Triple (listCells 0 reports + ((a, x.block next) ::ₘ x.bufCells))
      (Prog.modify (HidBlock.assign ({ · with inputReports := first 0 reports })) a >>= f) post := by
  refine .modify (Multiset.add_cons _ _ _) rfl ?_
  rwa [cells_reports, Multiset.add_cons] at hf

theorem hidReportCallback_spec (a : Nat) (x : HidNode) (rpt : Report) (next : Nat) :
    Triple (x.cells a next) (hidReportCallback a rpt) fun _ cells =>
      ∃ x' : HidNode, x'.device = x.device.receive rpt ∧ cells = x'.cells a next := by
  refine .read (Multiset.mem_cons_self _ _) rfl ?_
  apply Triple.bind (readCallback_spec rpt x.reports) (cells_reports a x next)
  rintro _ _ ⟨reports, rfl, rfl, hcontents⟩
  rw [← bind_pure (Prog.modify _ _)]
  refine assignReports (.pure ⟨{ x with reports := reports }, ?_, rfl⟩)
  rw [device, OpenDevice.receive, hcontents]
  rfl

theorem deviceReturnData_spec (a : Nat) (x : HidNode) (length next : Nat) :
    Triple (x.cells a next) (deviceReturnData a length) fun r cells =>
      ∃ x' : HidNode, (r = x.device.inputReports.head?.toList.map (·.take length) ∧
          x'.device = { x.device with inputReports := x.device.inputReports.tail }) ∧ cells = x'.cells a next := by
  refine .read (Multiset.mem_cons_self _ _) rfl ?_
  obtain ⟨deviceHandle, disconnected, buf, reports⟩ := x
  cases reports with
  | nil => exact .pure ⟨_, ⟨rfl, rfl⟩, rfl⟩
  | cons node rest =>
    obtain ⟨rpt, y⟩ := node
    have hnode : (rpt, y.block (first 0 rest)) ∈ cells a ⟨deviceHandle, disconnected, buf, (rpt, y) :: rest⟩ next := by
      rw [cells_reports, listCells_cons]
      exact Multiset.mem_add.2 (.inl (Multiset.mem_cons_self _ _))
    refine .ne_zero hnode fun hrpt => ?_
    have hfirst : ¬ first 0 ((rpt, y) :: rest) = 0 := hrpt
    dsimp only
    rw [if_neg hfirst]
    apply Triple.bind (returnData_spec rpt y rest length) (cells_reports _ _ _)
    rintro _ _ ⟨rfl, rfl⟩
    exact assignReports (.pure ⟨⟨deviceHandle, disconnected, buf, rest⟩, ⟨rfl, rfl⟩, rfl⟩)

/-- **Closing a device** clears its queue first. -/
theorem closeDevice_spec (before : List (Nat × HidNode)) (dev : Nat) (x : HidNode)
    (after : List (Nat × HidNode)) :
    Triple (openCells (before ++ (dev, x) :: after)) (closeDevice dev (first 0 (before ++ (dev, x) :: after)))
      fun r cells => r = first 0 (before ++ after) ∧ cells = openCells (before ++ after) := by
  have hclear : ∀ next, Triple (x.cells dev next)
      (do
        let fields ← Prog.read HidBlock.hidDevice? dev
        hidClose fields.inputReports
        Prog.modify (HidBlock.assign ({ · with inputReports := 0 })) dev) fun _ cells =>
      ∃ x' : HidNode, x' = { x with reports := [] } ∧ cells = x'.cells dev next := by
    intro next
    refine .read (Multiset.mem_cons_self _ _) rfl ?_
    apply Triple.bind (hidClose_spec x.reports) (cells_reports dev x next)
    rintro _ _ rfl
    rw [← bind_pure (Prog.modify _ _)]
    have hcells : (0 : Multiset (Nat × HidBlock)) = listCells 0 [] := rfl
    rw [hcells]
    exact assignReports (.pure ⟨_, rfl, rfl⟩)
  have hclose := onDevice hclear before after
  have hprog : closeDevice dev (first 0 (before ++ (dev, x) :: after)) =
      (do
        let fields ← Prog.read HidBlock.hidDevice? dev
        hidClose fields.inputReports
        Prog.modify (HidBlock.assign ({ · with inputReports := 0 })) dev) >>= fun _ =>
          freeHidDevice dev (first 0 (before ++ (dev, x) :: after)) := by
    simp only [closeDevice, bind_assoc]
  rw [hprog]
  apply Triple.bind hclose (add_zero _).symm
  rintro _ _ ⟨_, rfl, rfl⟩
  have hfirst : first 0 (before ++ (dev, x) :: after) = first 0 (before ++ (dev, { x with reports := [] }) :: after) := by
    rw [first_append, first_append]
    rfl
  rw [add_zero, hfirst]
  exact freeHidDevice_spec before dev { x with reports := [] } after

end TouchMouse.Mac
