import TouchMouse.HidApi.DeviceList

/-!
# The open devices

However devices are opened, unplugged, closed and freed, and whatever reports
they get and give in between, no function of `mac/hid.c` faults; each device
keeps its own reports, an unplugged handle marks its devices and no others,
and when every device is freed every block was released once.
-/

namespace TouchMouse.Mac
open Memory InputReports HidNode

/-! ## What is done to the devices -/

/-- One operation on the devices, oldest first, with what a read returns. -/
def execDevices (devices : List OpenDevice) : DeviceOp → List OpenDevice × List (List UInt8)
  | .newHidDevice => (devices ++ [.made], [])
  | .attachHandle i osDev _ => (devices.modify i (·.attach osDev), [])
  | .freeHidDevice i => (devices.eraseIdx i, [])
  | .hidReportCallback i rpt => (devices.modify i (·.receive rpt), [])
  | .returnData i length =>
    (devices.modify i fun d => { d with inputReports := d.inputReports.tail },
      (devices[i]?.bind (·.inputReports.head?)).toList.map (·.take length))
  | .hidDeviceRemovalCallback devRef => (devices.map (·.remove devRef), [])
  | .hidClose i => (devices.eraseIdx i, [])

def runDevices : List DeviceOp → List OpenDevice → List OpenDevice × List (List UInt8)
  | [], devices => (devices, [])
  | op :: ops, devices =>
    let r := execDevices devices op
    let r' := runDevices ops r.1
    (r'.1, r.2 ++ r'.2)

/-! ## On the heap -/

def madeDevice (n : Nat × HidNode) : MadeDevice := ⟨n.1, n.2.buf.isSome⟩

/-- The heap consists of the list of these devices. -/
def Keeps (s : Devices) (devices : List OpenDevice) : Prop :=
  ∃ nodes, s.heap.Holds (openCells nodes) ∧ s.deviceList = first 0 nodes ∧ s.made = nodes.map madeDevice ∧
    nodes.map (·.2.device) = devices

theorem start_keeps : Keeps .start [] := ⟨[], Heap.holds_empty, rfl, rfl, rfl⟩

/-- There is nothing at a place, or a device between those before and after. -/
theorem place_cases {α : Type} (l : List α) (i : Nat) :
    l.length ≤ i ∨ ∃ before x after, l = before ++ x :: after ∧ i = before.length := by
  rcases Nat.lt_or_ge i l.length with hi | hi
  · refine .inr ⟨l.take i, l[i], l.drop (i + 1), ?_, ?_⟩
    · rw [List.getElem_cons_drop, List.take_append_drop]
    · rw [List.length_take, Nat.min_eq_left (Nat.le_of_lt hi)]
  · exact .inl hi

theorem modify_place {α : Type} (f : α → α) (before : List α) (x : α) (after : List α) :
    (before ++ x :: after).modify before.length f = before ++ f x :: after := by
  induction before with
  | nil => rfl
  | cons y before ih => rw [List.cons_append, List.length_cons, List.modify_succ_cons, ih, List.cons_append]

theorem getElem?_place {α : Type} (before : List α) (x : α) (after : List α) :
    (before ++ x :: after)[before.length]? = some x := by
  rw [List.getElem?_append_right (Nat.le_refl _), Nat.sub_self, List.getElem?_cons_zero]

theorem eraseIdx_place {α : Type} (before : List α) (x : α) (after : List α) :
    (before ++ x :: after).eraseIdx before.length = before ++ after := by
  rw [List.eraseIdx_append_of_length_le (Nat.le_refl _), Nat.sub_self, List.eraseIdx_cons_zero]

/-- A function that changed one device. -/
theorem keeps_update {heap : Heap HidBlock} {before after : List (Nat × HidNode)} {a : Nat} {x x' : HidNode}
    (hheap : heap.Holds (openCells (before ++ (a, x') :: after))) {f : OpenDevice → OpenDevice}
    (hdevice : x'.device = f x.device) :
    Keeps ⟨heap, first 0 (before ++ (a, x) :: after), (before ++ (a, x') :: after).map madeDevice⟩
      (((before ++ (a, x) :: after).map (·.2.device)).modify before.length f) := by
  refine ⟨_, hheap, ?_, rfl, ?_⟩
  · rw [first_append, first_append]
    rfl
  · have hmodify := modify_place f (before.map (·.2.device)) x.device (after.map (·.2.device))
    rw [List.length_map] at hmodify
    rw [List.map_append, List.map_append, List.map_cons, List.map_cons, hmodify, hdevice]

/-- The same, when the device has its handle as before. -/
theorem keeps_change {heap : Heap HidBlock} {before after : List (Nat × HidNode)} {a : Nat} {x x' : HidNode}
    (hheap : heap.Holds (openCells (before ++ (a, x') :: after))) {f : OpenDevice → OpenDevice}
    (hdevice : x'.device = f x.device) (hattached : (f x.device).attached = x.device.attached) :
    Keeps ⟨heap, first 0 (before ++ (a, x) :: after), (before ++ (a, x) :: after).map madeDevice⟩
      (((before ++ (a, x) :: after).map (·.2.device)).modify before.length f) := by
  have hmade : madeDevice (a, x) = madeDevice (a, x') := by
    have hsome : x'.buf.isSome = x.buf.isSome := (congrArg OpenDevice.attached hdevice).trans hattached
    rw [madeDevice, madeDevice, hsome]
  have hsame : (before ++ (a, x) :: after).map madeDevice = (before ++ (a, x') :: after).map madeDevice := by
    rw [List.map_append, List.map_append, List.map_cons, List.map_cons, hmade]
  rw [hsame]
  exact keeps_update hheap hdevice

/-- A function that freed one device. -/
theorem keeps_erase {heap : Heap HidBlock} {before after : List (Nat × HidNode)} {a : Nat} {x : HidNode}
    (hheap : heap.Holds (openCells (before ++ after))) :
    Keeps ⟨heap, first 0 (before ++ after), ((before ++ (a, x) :: after).map madeDevice).eraseIdx before.length⟩
      (((before ++ (a, x) :: after).map (·.2.device)).eraseIdx before.length) := by
  refine ⟨_, hheap, rfl, ?_, ?_⟩
  · rw [List.eraseIdx_map, eraseIdx_place]
  · rw [List.eraseIdx_map, eraseIdx_place]

/-- What one operation does. -/
def Refined (s : Devices) (op : DeviceOp) (devices : List OpenDevice) : Prop :=
  ∃ s', s.exec op = some (s', (execDevices devices op).2) ∧ Keeps s' (execDevices devices op).1

variable {s : Devices} {devices : List OpenDevice}

theorem newHidDevice_refined (h : Keeps s devices) : Refined s .newHidDevice devices := by
  obtain ⟨nodes, hheap, hlist, hmade, rfl⟩ := h
  obtain ⟨_, heap, _, hrun, ⟨dev, rfl, rfl⟩, hheap⟩ := (newHidDevice_spec nodes).run hheap
  refine ⟨⟨heap, _, _⟩, ?_, nodes ++ [(dev, .made)], hheap, rfl, rfl, ?_⟩
  · rw [Devices.exec, hlist, hrun, hmade, List.map_append]
    rfl
  · rw [List.map_append]
    rfl

theorem removed_refined (h : Keeps s devices) (devRef : Nat) : Refined s (.hidDeviceRemovalCallback devRef) devices := by
  obtain ⟨nodes, hheap, hlist, hmade, rfl⟩ := h
  obtain ⟨_, heap, _, hrun, rfl, hheap⟩ := (hidDeviceRemovalCallback_spec devRef nodes).run hheap
  have hdevice : ∀ x : HidNode, (x.remove devRef).device = x.device.remove devRef := by
    intro x
    have hhandle : x.device.deviceHandle = x.deviceHandle := rfl
    rw [HidNode.remove, OpenDevice.remove, hhandle]
    split <;> rfl
  have hsome : ∀ x : HidNode, (x.remove devRef).buf = x.buf := by
    intro x
    rw [HidNode.remove]
    split <;> rfl
  refine ⟨⟨heap, s.deviceList, s.made⟩, ?_, removed devRef nodes, hheap, ?_, ?_, ?_⟩
  · rw [Devices.exec, hlist, hrun]
    rfl
  · rw [hlist, first_removed]
  · rw [hmade, removed, List.map_map]
    exact List.map_congr_left fun n _ => by rw [Function.comp_apply, madeDevice, madeDevice, hsome]
  · rw [removed, List.map_map, execDevices, List.map_map]
    exact List.map_congr_left fun n _ => hdevice n.2

/-- What is at a place of the devices: nothing, or one of them. -/
theorem Keeps.at_place (h : Keeps s devices) (i : Nat) :
    (s.made[i]? = none ∧ devices.length ≤ i) ∨
      ∃ before a x after, i = before.length ∧ s.made[i]? = some ⟨a, x.buf.isSome⟩ ∧
        s.heap.Holds (openCells (before ++ (a, x) :: after)) ∧
        s = ⟨s.heap, first 0 (before ++ (a, x) :: after), (before ++ (a, x) :: after).map madeDevice⟩ ∧
        devices = (before ++ (a, x) :: after).map (·.2.device) := by
  obtain ⟨nodes, hheap, hlist, hmade, rfl⟩ := h
  rcases place_cases nodes i with hi | ⟨before, ⟨a, x⟩, after, rfl, rfl⟩
  · refine .inl ⟨?_, by rwa [List.length_map]⟩
    rwa [hmade, List.getElem?_eq_none_iff, List.length_map]
  · refine .inr ⟨before, a, x, after, rfl, ?_, hheap, ?_, rfl⟩
    · rw [hmade, List.getElem?_map, getElem?_place]
      rfl
    · rw [← hlist, ← hmade]

theorem attachHandle_refined (h : Keeps s devices) (i osDev maxInputReportLen : Nat) :
    Refined s (.attachHandle i osDev maxInputReportLen) devices := by
  rcases h.at_place i with ⟨hnone, hi⟩ | ⟨before, a, x, after, rfl, hget, hheap, hs, hdevices⟩
  · refine ⟨s, by rw [Devices.exec, hnone]; rfl, ?_⟩
    rwa [execDevices, List.modify_eq_self hi]
  · cases hbuf : x.buf with
    | none =>
      obtain ⟨_, heap, _, hrun, ⟨x', ⟨buf, rfl⟩, rfl⟩, hheap⟩ :=
        (onDevice (attachHandle_spec hbuf osDev maxInputReportLen) before after).run hheap
      rw [hbuf] at hget
      refine ⟨⟨heap, s.deviceList, s.made.set before.length ⟨a, true⟩⟩, ?_, ?_⟩
      · rw [Devices.exec, hget]
        show (attachHandle a osDev maxInputReportLen s.heap).map _ = _
        rw [hrun]
        rfl
      · have hset : ((before ++ (a, x) :: after).map madeDevice).set before.length ⟨a, true⟩ =
            (before ++ (a, { x with deviceHandle := osDev, buf := some buf }) :: after).map madeDevice := by
          rw [List.map_append, List.map_append, List.set_append_right _ _ (by rw [List.length_map]), List.length_map,
            Nat.sub_self]
          rfl
        rw [hs, hset, hdevices]
        refine keeps_update hheap ?_
        have hattached : x.device.attached = false := congrArg Option.isSome hbuf
        rw [OpenDevice.attach, hattached]
        rfl
    | some buf =>
      rw [hbuf] at hget
      refine ⟨s, by rw [Devices.exec, hget]; rfl, ?_⟩
      have hattached : x.device.attached = true := congrArg Option.isSome hbuf
      have hattach : x.device.attach osDev = x.device := if_pos hattached
      have hkeeps := keeps_change hheap (f := (·.attach osDev)) hattach.symm (by rw [hattach])
      rwa [← hs, ← hdevices] at hkeeps

theorem hidReportCallback_refined (h : Keeps s devices) (i : Nat) (rpt : Report) :
    Refined s (.hidReportCallback i rpt) devices := by
  rcases h.at_place i with ⟨hnone, hi⟩ | ⟨before, a, x, after, rfl, hget, hheap, hs, hdevices⟩
  · refine ⟨s, by rw [Devices.exec, hnone]; rfl, ?_⟩
    rwa [execDevices, List.modify_eq_self hi]
  · obtain ⟨_, heap, _, hrun, ⟨x', hdevice, rfl⟩, hheap⟩ :=
      (onDevice (hidReportCallback_spec a x rpt) before after).run hheap
    refine ⟨{ s with heap := heap }, ?_, ?_⟩
    · rw [Devices.exec, hget]
      show (hidReportCallback a rpt s.heap).map _ = _
      rw [hrun]
      rfl
    · rw [hs, hdevices]
      exact keeps_change hheap hdevice rfl

theorem returnData_refined (h : Keeps s devices) (i length : Nat) : Refined s (.returnData i length) devices := by
  rcases h.at_place i with ⟨hnone, hi⟩ | ⟨before, a, x, after, rfl, hget, hheap, hs, hdevices⟩
  · refine ⟨s, ?_, ?_⟩
    · rw [Devices.exec, hnone, execDevices, List.getElem?_eq_none hi]
      rfl
    · rwa [execDevices, List.modify_eq_self hi]
  · obtain ⟨_, heap, _, hrun, ⟨x', ⟨rfl, hdevice⟩, rfl⟩, hheap⟩ :=
      (onDevice (deviceReturnData_spec a x length) before after).run hheap
    have hfound : devices[before.length]? = some x.device := by
      rw [hdevices, List.getElem?_map, getElem?_place]
      rfl
    refine ⟨{ s with heap := heap }, ?_, ?_⟩
    · rw [Devices.exec, hget, execDevices, hfound]
      show (deviceReturnData a length s.heap).map _ = _
      rw [hrun]
      rfl
    · rw [hs, hdevices]
      exact keeps_change hheap (f := fun d => { d with inputReports := d.inputReports.tail }) hdevice rfl

theorem freeHidDevice_refined (h : Keeps s devices) (i : Nat) : Refined s (.freeHidDevice i) devices := by
  rcases h.at_place i with ⟨hnone, hi⟩ | ⟨before, a, x, after, rfl, hget, hheap, hs, hdevices⟩
  · refine ⟨s, by rw [Devices.exec, hnone]; rfl, ?_⟩
    rwa [execDevices, List.eraseIdx_of_length_le hi]
  · obtain ⟨_, heap, _, hrun, ⟨rfl, rfl⟩, hheap⟩ := (freeHidDevice_spec before a x after).run hheap
    refine ⟨⟨heap, first 0 (before ++ after), s.made.eraseIdx before.length⟩, ?_, ?_⟩
    · rw [Devices.exec, hget]
      show (freeHidDevice a s.deviceList s.heap).map _ = _
      rw [congrArg Devices.deviceList hs, hrun]
      rfl
    · rw [congrArg Devices.made hs, hdevices]
      exact keeps_erase hheap

theorem hidClose_refined (h : Keeps s devices) (i : Nat) : Refined s (.hidClose i) devices := by
  rcases h.at_place i with ⟨hnone, hi⟩ | ⟨before, a, x, after, rfl, hget, hheap, hs, hdevices⟩
  · refine ⟨s, by rw [Devices.exec, hnone]; rfl, ?_⟩
    rwa [execDevices, List.eraseIdx_of_length_le hi]
  · obtain ⟨_, heap, _, hrun, ⟨rfl, rfl⟩, hheap⟩ := (closeDevice_spec before a x after).run hheap
    refine ⟨⟨heap, first 0 (before ++ after), s.made.eraseIdx before.length⟩, ?_, ?_⟩
    · rw [Devices.exec, hget]
      show (closeDevice a s.deviceList s.heap).map _ = _
      rw [congrArg Devices.deviceList hs, hrun]
      rfl
    · rw [congrArg Devices.made hs, hdevices]
      exact keeps_erase hheap

theorem exec_refined (h : Keeps s devices) (op : DeviceOp) : Refined s op devices := by
  cases op with
  | newHidDevice => exact newHidDevice_refined h
  | attachHandle i osDev maxInputReportLen => exact attachHandle_refined h i osDev maxInputReportLen
  | freeHidDevice i => exact freeHidDevice_refined h i
  | hidReportCallback i rpt => exact hidReportCallback_refined h i rpt
  | returnData i length => exact returnData_refined h i length
  | hidDeviceRemovalCallback devRef => exact removed_refined h devRef
  | hidClose i => exact hidClose_refined h i

theorem run_refined (h : Keeps s devices) (ops : List DeviceOp) :
    ∃ s', s.run ops = some (s', (runDevices ops devices).2) ∧ Keeps s' (runDevices ops devices).1 := by
  induction ops generalizing s devices with
  | nil => exact ⟨s, rfl, h⟩
  | cons op ops ih =>
    obtain ⟨s', hexec, hkeeps⟩ := exec_refined h op
    obtain ⟨s'', hrun, hkeeps⟩ := ih hkeeps
    refine ⟨s'', ?_, hkeeps⟩
    rw [Devices.run, hexec]
    show (Devices.run ops s').map _ = _
    rw [hrun]
    rfl

/-- **The open devices on the heap**, over any order of operations: none of
them faults, the reads return what the devices' queues hold, and `device_list`
lists the devices as they are, oldest first. When none is left, every block
that was handed out has been released, once. -/
theorem device_list_on_heap (ops : List DeviceOp) :
    ∃ s, Devices.start.run ops = some (s, (runDevices ops []).2) ∧ Keeps s (runDevices ops []).1 ∧
      ((runDevices ops []).1 = [] → ∀ a, 0 < a → a < s.heap.next → s.heap.released.count a = 1) := by
  obtain ⟨s, hrun, hkeeps⟩ := run_refined start_keeps ops
  refine ⟨s, hrun, hkeeps, fun hnone a hpos hlt => ?_⟩
  obtain ⟨nodes, hheap, -, -, hdevices⟩ := hkeeps
  rw [hnone, List.map_eq_nil_iff] at hdevices
  rw [hdevices] at hheap
  exact s.heap.released_once hpos hlt (hheap.dead a)

end TouchMouse.Mac
