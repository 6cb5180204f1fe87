import TouchMouse.Model.OpenPath

/-!
# The device that a path opens

A path names one interface of one device, so to open a record that was
enumerated touches that interface and no other. With one altsetting it is
opened exactly if the device has an active configuration and libusb refuses
nothing. Each handle that libusb opened is closed again or has a read thread.
That `hid_open_path` returns `NULL` only with nothing left running holds where
no two altsettings have the path.
-/

namespace TouchMouse
namespace Linux

/-! ## Paths -/

theorem hexDigits_distinct : Numeral.Distinct 16 Nat.digitChar := by decide

theorem makePath_inj {dev dev' : UsbDevice} {i i' : UInt8} (h : makePath dev i = makePath dev' i') :
    dev.busNumber = dev'.busNumber ∧ dev.deviceAddress = dev'.deviceAddress ∧ i = i' := by
  have hbyte : ∀ {width : Nat} {n m : UInt8}, 2 ≤ width →
      Numeral.write 16 Nat.digitChar width n.toNat = Numeral.write 16 Nat.digitChar width m.toNat → n = m := by
    intro width n m hwidth hnm
    have hle : 16 ^ 2 ≤ 16 ^ width := Nat.pow_le_pow_right (by decide) hwidth
    have hn : n.toNat < 16 ^ width := Nat.lt_of_lt_of_le n.toNat_lt hle
    have hm : m.toNat < 16 ^ width := Nat.lt_of_lt_of_le m.toNat_lt hle
    exact UInt8.toNat_inj.1 (Numeral.write_inj hexDigits_distinct hn hm hnm)
  obtain ⟨hbus, hrest⟩ := List.append_inj (String.ofList_injective h) (by simp)
  obtain ⟨haddress, hinterface⟩ := List.append_inj (List.cons.inj hrest).2 (by simp)
  exact ⟨hbyte (by decide) hbus, hbyte (by decide) haddress, hbyte (by decide) (List.cons.inj hinterface).2⟩

/-- Bus number and address tell the devices apart. -/
def Identified (devs : List UsbDevice) : Prop :=
  devs.Pairwise fun dev dev' => ¬ (dev.busNumber = dev'.busNumber ∧ dev.deviceAddress = dev'.deviceAddress)

instance (devs : List UsbDevice) : Decidable (Identified devs) := inferInstanceAs (Decidable (List.Pairwise _ _))

theorem Identified.index {devs : List UsbDevice} (h : Identified devs) {d d' : Nat} {dev dev' : UsbDevice}
    (hdev : devs[d]? = some dev) (hdev' : devs[d']? = some dev') (hbus : dev.busNumber = dev'.busNumber)
    (haddress : dev.deviceAddress = dev'.deviceAddress) : d = d' := by
  obtain ⟨hlt, rfl⟩ := List.getElem?_eq_some_iff.1 hdev
  obtain ⟨hlt', rfl⟩ := List.getElem?_eq_some_iff.1 hdev'
  rcases Nat.lt_trichotomy d d' with hdd | hdd | hdd
  · exact absurd ⟨hbus, haddress⟩ (List.pairwise_iff_getElem.1 h d d' hlt hlt' hdd)
  · exact hdd
  · exact absurd ⟨hbus.symm, haddress.symm⟩ (List.pairwise_iff_getElem.1 h d' d hlt' hlt hdd)

namespace Opening

/-! ## The loops -/

/-- The altsettings of a device that have the path. -/
def candidatesOf (path : String) (dev : UsbDevice) : List InterfaceDescriptor :=
  match dev.activeConfig with
  | none => []
  | some confDesc => confDesc.interface.flatten.filter (IsAt path dev)

/-- The altsettings that have the path. -/
def candidates (path : String) (devs : List UsbDevice) : List InterfaceDescriptor :=
  devs.flatMap (candidatesOf path)

variable {usb : Libusb} {path : String} {Q : Nat → Opening → Prop}

/-- An attempt on an altsetting takes what holds with `n` altsettings passed
to what holds with one more, and after a `break` with any more. -/
def Advances (usb : Libusb) (Q : Nat → Opening → Prop) (d : Nat) (dev : UsbDevice) (intfDesc : InterfaceDescriptor) :
    Prop :=
  ∀ n o, Q n o →
    let r := o.openInterface usb d dev.desc intfDesc
    (r.2 = true → Q (n + 1) r.1) ∧ (r.2 = false → ∀ m > n, Q m r.1)

theorem openAltsettings_count {d : Nat} {dev : UsbDevice} {altsetting : List InterfaceDescriptor}
    (hstep : ∀ intfDesc ∈ altsetting, IsAt path dev intfDesc → Advances usb Q d dev intfDesc) {n : Nat} {o : Opening}
    (ho : Q n o) :
    Q (n + (altsetting.filter (IsAt path dev)).length) (openAltsettings usb path d dev altsetting o) := by
  induction altsetting generalizing n o with
  | nil => exact ho
  | cons intfDesc altsetting ih =>
    have hrest := fun intf hmem => hstep intf (List.mem_cons_of_mem intfDesc hmem)
    rw [openAltsettings]
    split
    · next hat =>
      have hadvances := hstep intfDesc (List.mem_cons_self ..) hat n o ho
      rw [List.filter_cons, if_pos (decide_eq_true hat), List.length_cons]
      generalize o.openInterface usb d dev.desc intfDesc = r at hadvances
      obtain ⟨o', goesOn⟩ := r
      cases goesOn with
      | true =>
        have hnext := ih hrest (hadvances.1 rfl)
        rwa [Nat.add_right_comm] at hnext
      | false => exact hadvances.2 rfl _ (by omega)
    · next hat =>
      rw [List.filter_cons, if_neg (fun h => hat (of_decide_eq_true h))]
      exact ih hrest ho

theorem openDevice_count {d : Nat} {dev : UsbDevice}
    (hstep : ∀ intfDesc ∈ candidatesOf path dev, Advances usb Q d dev intfDesc) {n : Nat} {o : Opening} (ho : Q n o) :
    Q (n + (candidatesOf path dev).length) (openDevice usb path d dev o) := by
  unfold candidatesOf at hstep ⊢
  unfold openDevice
  cases hconf : dev.activeConfig with
  | none => exact ho
  | some confDesc =>
    rw [hconf] at hstep
    dsimp only at hstep ⊢
    clear hconf
    generalize confDesc.interface = interfaces at hstep
    induction interfaces generalizing n o with
    | nil => exact ho
    | cons altsetting interfaces ih =>
      rw [List.flatten_cons, List.filter_append] at hstep
      have hone := openAltsettings_count (fun intfDesc hmem hat =>
        hstep intfDesc (List.mem_append_left _ (List.mem_filter.2 ⟨hmem, decide_eq_true hat⟩))) ho
      have hrest := ih hone fun intfDesc hmem => hstep intfDesc (List.mem_append_right _ hmem)
      rwa [List.flatten_cons, List.filter_append, List.length_append, ← Nat.add_assoc]

/-- The induction behind every statement about `hid_open_path`: over the
altsettings that have the path. -/
theorem openDevices_count {devs : List UsbDevice}
    (hstep : ∀ d dev, devs[d]? = some dev → ∀ intfDesc ∈ candidatesOf path dev, Advances usb Q d dev intfDesc)
    (hstart : Q 0 .start) : Q (candidates path devs).length (openDevices usb path 0 devs .start) := by
  suffices h : ∀ (rest : List UsbDevice) (d n : Nat) (o : Opening), devs.drop d = rest → Q n o →
      Q (n + (candidates path rest).length) (openDevices usb path d rest o) by
    have hall := h devs 0 0 .start rfl hstart
    rwa [Nat.zero_add] at hall
  intro rest
  induction rest with
  | nil =>
    intro d n o _ ho
    exact ho
  | cons dev rest ih =>
    intro d n o hdrop ho
    have hget : devs[d]? = some dev := by rw [← List.head?_drop, hdrop, List.head?_cons]
    have hnext : devs.drop (d + 1) = rest := by rw [← List.tail_drop, hdrop, List.tail_cons]
    have hrest := ih (d + 1) _ _ hnext (openDevice_count (hstep d dev hget) ho)
    rwa [openDevices, candidates, List.flatMap_cons, List.length_append, ← Nat.add_assoc]

/-! ## One attempt -/

end Opening

/-- The call is about this interface of this device. -/
def UsbCall.On (d : Nat) (interface : UInt8) : UsbCall → Prop
  | .libusbOpen d' => d' = d
  | .libusbClose d' => d' = d
  | .kernelDriverActive d' i | .detachKernelDriver d' i | .claimInterface d' i | .readThread d' i =>
    d' = d ∧ i = interface

/-- All calls are. -/
def AllOn (d : Nat) (interface : UInt8) (calls : List (UsbCall × Int)) : Prop := ∀ c ∈ calls, c.1.On d interface

theorem allOn_append {d : Nat} {interface : UInt8} {calls calls' : List (UsbCall × Int)} :
    AllOn d interface (calls ++ calls') ↔ AllOn d interface calls ∧ AllOn d interface calls' :=
  List.forall_mem_append

theorem allOn_singleton {d : Nat} {interface : UInt8} {c : UsbCall × Int} :
    AllOn d interface [c] ↔ c.1.On d interface :=
  List.forall_mem_singleton

def UsbCall.isReadThread : UsbCall → Bool
  | .readThread _ _ => true
  | _ => false

/-- How many handles were opened and closed, and how many threads started. -/
def handles (calls : List (UsbCall × Int)) : Nat × Nat × Nat :=
  (calls.countP fun c => match c.1 with | .libusbOpen _ => 0 ≤ c.2 | _ => false,
    calls.countP fun c => match c.1 with | .libusbClose _ => true | _ => false,
    calls.countP (·.1.isReadThread))

/-- libusb does not open the device, detach the driver of the kernel, or claim
the interface. -/
def Refuses (c : UsbCall × Int) : Prop :=
  match c.1 with
  | .libusbOpen _ | .detachKernelDriver _ _ | .claimInterface _ _ => c.2 < 0
  | _ => False

/-- Whether the last handle that libusb opened is open after some calls. -/
def keepsHandle (kept : Bool) (calls : List (UsbCall × Int)) : Bool :=
  calls.foldl (fun kept c => match c.1 with | .libusbOpen _ => kept || 0 ≤ c.2 | .libusbClose _ => false | _ => kept) kept

theorem keepsHandle_append (kept : Bool) (calls calls' : List (UsbCall × Int)) :
    keepsHandle kept (calls ++ calls') = keepsHandle (keepsHandle kept calls) calls' := List.foldl_append

theorem handles_append (calls calls' : List (UsbCall × Int)) :
    handles (calls ++ calls') = handles calls + handles calls' := by
  simp only [handles, List.countP_append]
  rfl

namespace Opening

/-- The calls of an attempt that got as far as an open handle. -/
structure Opened (d : Nat) (interface : UInt8) (calls : List (UsbCall × Int)) : Prop where
  on : AllOn d interface calls
  handles : handles calls = (1, 0, 0)
  tried : ∃ res, (.libusbOpen d, res) ∈ calls
  allowed : ∀ c ∈ calls, ¬ Refuses c
  keeps : ∀ kept, keepsHandle kept calls = true

/-- A call that neither opens nor closes, and succeeds. -/
theorem Opened.append {d : Nat} {interface : UInt8} {calls : List (UsbCall × Int)} {c : UsbCall × Int}
    (h : Opened d interface calls) (hon : c.1.On d interface) (hhandles : TouchMouse.Linux.handles [c] = (0, 0, 0))
    (hallowed : ¬ Refuses c) (hkeeps : keepsHandle true [c] = true) : Opened d interface (calls ++ [c]) := by
  obtain ⟨res, htried⟩ := h.tried
  refine ⟨allOn_append.2 ⟨h.on, allOn_singleton.2 hon⟩, ?_, ⟨res, List.mem_append_left _ htried⟩, ?_, fun kept => ?_⟩
  · rw [handles_append, h.handles, hhandles]
    rfl
  · exact List.forall_mem_append.2 ⟨h.allowed, List.forall_mem_singleton.2 hallowed⟩
  · rw [keepsHandle_append, h.keeps, hkeeps]

/-- All that an attempt can do. -/
inductive Attempt (o : Opening) (d : Nat) (desc : DeviceDescriptor) (intfDesc : InterfaceDescriptor) :
    Opening × Bool → Prop where
  | refused {calls : List (UsbCall × Int)} (on : AllOn d intfDesc.bInterfaceNumber calls)
      (handles : handles calls = (0, 0, 0)) (tried : ∃ res, (.libusbOpen d, res) ∈ calls)
      (refuses : ∃ c ∈ calls, Refuses c) (keeps : ∀ kept, keepsHandle kept calls = kept) :
      Attempt o d desc intfDesc (⟨o.dev, o.goodOpen, o.calls ++ calls⟩, false)
  | gaveUp {calls : List (UsbCall × Int)} (on : AllOn d intfDesc.bInterfaceNumber calls)
      (handles : handles calls = (1, 1, 0)) (tried : ∃ res, (.libusbOpen d, res) ∈ calls)
      (refuses : ∃ c ∈ calls, Refuses c) (keeps : ∀ kept, keepsHandle kept calls = false) :
      Attempt o d desc intfDesc (⟨{ o.dev with deviceHandle := some d }, false, o.calls ++ calls⟩, false)
  | started {calls : List (UsbCall × Int)} (on : AllOn d intfDesc.bInterfaceNumber calls)
      (handles : handles calls = (1, 0, 1)) (tried : ∃ res, (.libusbOpen d, res) ∈ calls)
      (claimed : ∃ res, 0 ≤ res ∧ (.claimInterface d intfDesc.bInterfaceNumber, res) ∈ calls)
      (allowed : ∀ c ∈ calls, ¬ Refuses c) (keeps : ∀ kept, keepsHandle kept calls = true) :
      Attempt o d desc intfDesc
        (⟨store { o.dev with deviceHandle := some d } desc intfDesc, true, o.calls ++ calls⟩, true)

theorem claim_attempt (usb : Libusb) (o : Opening) (d : Nat) (desc : DeviceDescriptor) (intfDesc : InterfaceDescriptor)
    {calls : List (UsbCall × Int)} (h : Opened d intfDesc.bInterfaceNumber calls) :
    Attempt o d desc intfDesc
      (claim usb ⟨{ o.dev with deviceHandle := some d }, true, o.calls ++ calls⟩ d desc intfDesc) := by
  obtain ⟨res, htried⟩ := h.tried
  unfold claim giveUp call
  simp only [List.append_assoc]
  split
  · next hrefused =>
    refine .gaveUp ?_ ?_ ⟨res, List.mem_append_left _ htried⟩
      ⟨_, List.mem_append_right _ (List.mem_cons_self ..), hrefused⟩ ?_
    · simp only [allOn_append, allOn_singleton]
      exact ⟨h.on, ⟨rfl, rfl⟩, rfl⟩
    · simp only [handles_append, h.handles]
      rfl
    · intro kept
      simp only [keepsHandle_append, h.keeps]
      rfl
  · next hclaimed =>
    refine .started ?_ ?_ ⟨res, List.mem_append_left _ htried⟩
      ⟨_, Int.not_lt.1 hclaimed, List.mem_append_right _ (List.mem_cons_self ..)⟩ ?_ ?_
    · simp only [allOn_append, allOn_singleton]
      exact ⟨h.on, ⟨rfl, rfl⟩, ⟨rfl, rfl⟩⟩
    · simp only [handles_append, h.handles]
      rfl
    · simp only [List.forall_mem_append, List.forall_mem_singleton]
      exact ⟨h.allowed, hclaimed, id⟩
    · intro kept
      simp only [keepsHandle_append, h.keeps]
      rfl

theorem openInterface_attempt (usb : Libusb) (o : Opening) (d : Nat) (desc : DeviceDescriptor)
    (intfDesc : InterfaceDescriptor) : Attempt o d desc intfDesc (o.openInterface usb d desc intfDesc) := by
  have hsplit : ∀ {p : Prop} [Decidable p] {r r' : Opening × Bool}, (p → Attempt o d desc intfDesc r) →
      (¬ p → Attempt o d desc intfDesc r') → Attempt o d desc intfDesc (if p then r else r') := by
    intro p _ r r' hr hr'
    split
    · next h => exact hr h
    · next h => exact hr' h
  refine hsplit (fun hrefused => ?_) fun hopened => ?_
  · refine .refused (allOn_singleton.2 rfl) ?_ ⟨_, List.mem_singleton_self _⟩ ⟨_, List.mem_singleton_self _, hrefused⟩ ?_
    · simpa [handles, UsbCall.isReadThread] using hrefused
    · intro kept
      simpa [keepsHandle] using fun h => absurd h (Int.not_le.2 hrefused)
  · have hone : Opened d intfDesc.bInterfaceNumber [(.libusbOpen d, usb o.calls (.libusbOpen d))] := by
      refine ⟨allOn_singleton.2 rfl, ?_, ⟨_, List.mem_singleton_self _⟩, List.forall_mem_singleton.2 hopened, ?_⟩
      · simpa [handles, UsbCall.isReadThread] using hopened
      · simpa [keepsHandle] using hopened
    have hasked := fun active => hone.append (c := (.kernelDriverActive d intfDesc.bInterfaceNumber, active))
      ⟨rfl, rfl⟩ rfl id rfl
    refine hsplit (fun _ => hsplit (fun hkept => ?_) fun hdetached => ?_) fun _ => ?_
    · simp only [giveUp, call, List.append_assoc]
      refine .gaveUp ?_ ?_ ⟨_, List.mem_append_left _ (List.mem_singleton_self _)⟩
        ⟨(.detachKernelDriver d intfDesc.bInterfaceNumber, _), by simp, hkept⟩ fun kept => ?_
      · simp only [allOn_append, allOn_singleton]
        exact ⟨rfl, ⟨rfl, rfl⟩, ⟨rfl, rfl⟩, rfl⟩
      · simp only [handles_append, hone.handles]
        rfl
      · simp only [keepsHandle_append]
        rfl
    · have hdone := fun active res (hres : ¬ res < 0) => (hasked active).append
        (c := (.detachKernelDriver d intfDesc.bInterfaceNumber, res)) ⟨rfl, rfl⟩ rfl hres rfl
      simp only [List.append_assoc] at hdone hdetached ⊢
      exact claim_attempt usb o d desc intfDesc (hdone _ _ hdetached)
    · simp only [List.append_assoc]
      exact claim_attempt usb o d desc intfDesc (hasked _)

/-! ## The altsettings with a path -/

theorem mem_candidatesOf {path : String} {dev : UsbDevice} {intfDesc : InterfaceDescriptor} :
    intfDesc ∈ candidatesOf path dev ↔
      ∃ confDesc, dev.activeConfig = some confDesc ∧ intfDesc ∈ confDesc.interface.flatten ∧ IsAt path dev intfDesc := by
  unfold candidatesOf
  cases dev.activeConfig with
  | none => simp
  | some confDesc => simp only [List.mem_filter, decide_eq_true_eq, Option.some.injEq, exists_eq_left']

/-- Those with the path of an interface are altsettings of that interface. -/
theorem identified_candidate {devs : List UsbDevice} (hdevs : Identified devs) {d d' : Nat} {dev dev' : UsbDevice}
    (hdev : devs[d]? = some dev) (hdev' : devs[d']? = some dev') {i : UInt8} {intfDesc : InterfaceDescriptor}
    (h : intfDesc ∈ candidatesOf (makePath dev i) dev') : d' = d ∧ intfDesc.bInterfaceNumber = i := by
  obtain ⟨_, _, _, -, hpath⟩ := mem_candidatesOf.1 h
  obtain ⟨hbus, haddress, hi⟩ := makePath_inj hpath
  exact ⟨hdevs.index hdev' hdev hbus haddress, hi⟩

theorem candidates_of_identified {devs : List UsbDevice} (hdevs : Identified devs) {d : Nat} {dev : UsbDevice}
    (hdev : devs[d]? = some dev) (i : UInt8) :
    candidates (makePath dev i) devs = candidatesOf (makePath dev i) dev := by
  have hothers : ∀ d' dev', devs[d']? = some dev' → d' ≠ d → candidatesOf (makePath dev i) dev' = [] := by
    intro d' dev' hdev' hne
    refine List.eq_nil_iff_forall_not_mem.2 fun intfDesc hmem => ?_
    exact hne (identified_candidate hdevs hdev hdev' hmem).1
  obtain ⟨hlt, hget⟩ := List.getElem?_eq_some_iff.1 hdev
  have hsplit : devs = devs.take d ++ dev :: devs.drop (d + 1) := by
    rw [← hget, List.getElem_cons_drop, List.take_append_drop]
  have hbefore : (devs.take d).flatMap (candidatesOf (makePath dev i)) = [] := by
    refine List.flatMap_eq_nil_iff.2 fun dev' hmem => ?_
    obtain ⟨d', hd', rfl⟩ := List.getElem_of_mem hmem
    rw [List.length_take] at hd'
    rw [List.getElem_take]
    exact hothers d' _ (List.getElem?_eq_getElem _) (by omega)
  have hafter : (devs.drop (d + 1)).flatMap (candidatesOf (makePath dev i)) = [] := by
    refine List.flatMap_eq_nil_iff.2 fun dev' hmem => ?_
    obtain ⟨d', hd', rfl⟩ := List.getElem_of_mem hmem
    rw [List.length_drop] at hd'
    rw [List.getElem_drop]
    exact hothers (d + 1 + d') _ (List.getElem?_eq_getElem _) (by omega)
  rw [candidates]
  conv_lhs => rw [hsplit]
  rw [List.flatMap_append, List.flatMap_cons, hbefore, hafter, List.nil_append, List.append_nil]

/-! ## One altsetting with the path -/

/-- With one altsetting at most, there is one attempt at most. -/
theorem openDevices_single (usb : Libusb) (path : String) {devs : List UsbDevice}
    (hsingle : (candidates path devs).length ≤ 1) :
    openDevices usb path 0 devs .start = .start ∧ candidates path devs = [] ∨
      ∃ d dev intfDesc goesOn, devs[d]? = some dev ∧ intfDesc ∈ candidatesOf path dev ∧
        Attempt .start d dev.desc intfDesc (openDevices usb path 0 devs .start, goesOn) := by
  let Q : Nat → Opening → Prop
    | 0, o => o = .start
    | 1, o => ∃ d dev intfDesc goesOn, devs[d]? = some dev ∧ intfDesc ∈ candidatesOf path dev ∧
        Attempt .start d dev.desc intfDesc (o, goesOn)
    | _, _ => True
  have hadvances : ∀ d dev, devs[d]? = some dev → ∀ intfDesc ∈ candidatesOf path dev,
      Advances usb Q d dev intfDesc := by
    intro d dev hdev intfDesc hmem n o ho
    have hone : n = 0 → Q 1 (o.openInterface usb d dev.desc intfDesc).1 := by
      rintro rfl
      obtain rfl : o = .start := ho
      exact ⟨d, dev, intfDesc, _, hdev, hmem, openInterface_attempt usb .start d dev.desc intfDesc⟩
    have hafter : ∀ m > n, Q m (o.openInterface usb d dev.desc intfDesc).1 := by
      intro m hm
      match m, hm with
      | 1, hm => exact hone (by omega)
      | m + 2, _ => exact trivial
    exact ⟨fun _ => hafter (n + 1) (Nat.lt_succ_self n), fun _ => hafter⟩
  have hall := openDevices_count hadvances rfl
  rcases Nat.le_one_iff_eq_zero_or_eq_one.1 hsingle with hlength | hlength
  · rw [hlength] at hall
    exact .inl ⟨hall, List.length_eq_zero_iff.1 hlength⟩
  · rw [hlength] at hall
    exact .inr hall

end Opening

open Opening

/-! ## The path of an interface -/

@[simp] theorem useEndpoint_interface (dev : HidHandle) (ep : EndpointDescriptor) :
    (useEndpoint dev ep).interface = dev.interface ∧ (useEndpoint dev ep).deviceHandle = dev.deviceHandle := by
  unfold useEndpoint
  dsimp only
  split <;> split <;> exact ⟨rfl, rfl⟩

theorem store_interface (dev : HidHandle) (desc : DeviceDescriptor) (intfDesc : InterfaceDescriptor) :
    (store dev desc intfDesc).interface = intfDesc.bInterfaceNumber ∧
      (store dev desc intfDesc).deviceHandle = dev.deviceHandle := by
  unfold store
  refine List.foldlRecOn (motive := fun dev' : HidHandle => dev'.interface = intfDesc.bInterfaceNumber ∧
    dev'.deviceHandle = dev.deviceHandle) _ _ ⟨rfl, rfl⟩ fun dev' h ep _ => ?_
  obtain ⟨hinterface, hhandle⟩ := useEndpoint_interface dev' ep
  exact ⟨hinterface.trans h.1, hhandle.trans h.2⟩

/-- An interface of a device is what is opened and returned. -/
def HidHandle.IsFor (dev : HidHandle) (d : Nat) (i : UInt8) : Prop := dev.deviceHandle = some d ∧ dev.interface = i

/-- What holds of the attempts on an interface, after `n` of them. -/
structure Attempted (d : Nat) (i : UInt8) (n : Nat) (o : Opening) : Prop where
  on : AllOn d i o.calls
  balanced : (handles o.calls).1 = (handles o.calls).2.1 + (handles o.calls).2.2
  kept : o.goodOpen = keepsHandle false o.calls
  tried : 0 < n → ∃ res, (.libusbOpen d, res) ∈ o.calls
  claimed : o.goodOpen = true → o.dev.IsFor d i ∧ ∃ res, 0 ≤ res ∧ (.claimInterface d i, res) ∈ o.calls
  allowed : 0 < n → (∀ c ∈ o.calls, ¬ Refuses c) → o.goodOpen = true

theorem Attempted.next {d : Nat} {i : UInt8} {n : Nat} {o : Opening} (h : Attempted d i n o) {desc : DeviceDescriptor}
    {intfDesc : InterfaceDescriptor} (hi : intfDesc.bInterfaceNumber = i) {r : Opening × Bool}
    (hattempt : Attempt o d desc intfDesc r) (m : Nat) : Attempted d i m r.1 := by
  subst hi
  cases hattempt with
  | refused on hhandles tried refuses keeps =>
    obtain ⟨res, htried⟩ := tried
    obtain ⟨c, hc, hrefuses⟩ := refuses
    refine ⟨allOn_append.2 ⟨h.on, on⟩, ?_, ?_, fun _ => ⟨res, List.mem_append_right _ htried⟩, fun hgood => ?_,
      fun _ hall => absurd hrefuses (hall c (List.mem_append_right _ hc))⟩
    · simp only [handles_append, hhandles, Prod.fst_add, Prod.snd_add, h.balanced]
      omega
    · rw [keepsHandle_append, keeps]
      exact h.kept
    · obtain ⟨hdev, res, hres, hclaimed⟩ := h.claimed hgood
      exact ⟨hdev, res, hres, List.mem_append_left _ hclaimed⟩
  | gaveUp on hhandles tried refuses keeps =>
    obtain ⟨res, htried⟩ := tried
    obtain ⟨c, hc, hrefuses⟩ := refuses
    refine ⟨allOn_append.2 ⟨h.on, on⟩, ?_, ?_, fun _ => ⟨res, List.mem_append_right _ htried⟩, nofun,
      fun _ hall => absurd hrefuses (hall c (List.mem_append_right _ hc))⟩
    · simp only [handles_append, hhandles, Prod.fst_add, Prod.snd_add, h.balanced]
      omega
    · rw [keepsHandle_append, keeps]
  | started on hhandles tried claimed allowed keeps =>
    obtain ⟨res, htried⟩ := tried
    obtain ⟨res', hres', hclaimed⟩ := claimed
    obtain ⟨hinterface, hhandle⟩ := store_interface { o.dev with deviceHandle := some d } desc intfDesc
    refine ⟨allOn_append.2 ⟨h.on, on⟩, ?_, ?_, fun _ => ⟨res, List.mem_append_right _ htried⟩,
      fun _ => ⟨⟨hhandle, hinterface⟩, res', hres', List.mem_append_right _ hclaimed⟩, fun _ _ => rfl⟩
    · simp only [handles_append, hhandles, Prod.fst_add, Prod.snd_add, h.balanced]
      omega
    · rw [keepsHandle_append, keeps]

/-- What `hid_open_path` does with the path of an interface. -/
structure OpensInterface (d : Nat) (dev : UsbDevice) (i : UInt8) (r : Option HidHandle × List (UsbCall × Int)) :
    Prop where
  /-- it calls libusb for that interface only -/
  on : AllOn d i r.2
  /-- a handle that was opened is closed, or has its read thread -/
  balanced : (handles r.2).1 = (handles r.2).2.1 + (handles r.2).2.2
  /-- a device without an active configuration is not opened -/
  unconfigured : dev.activeConfig = none → r = (none, [])
  /-- one that has the interface in its active configuration is -/
  tried : candidatesOf (makePath dev i) dev ≠ [] → ∃ res, (.libusbOpen d, res) ∈ r.2
  /-- a device is returned exactly if the last handle that was opened is open -/
  kept : r.1.isSome = keepsHandle false r.2
  /-- and it is that interface, claimed -/
  claimed : ∀ h, r.1 = some h → h.IsFor d i ∧ ∃ res, 0 ≤ res ∧ (.claimInterface d i, res) ∈ r.2
  /-- so where libusb refuses nothing -/
  allowed : candidatesOf (makePath dev i) dev ≠ [] → (∀ c ∈ r.2, ¬ Refuses c) → r.1.isSome
  /-- with one altsetting, only there, and then with one thread and the endpoints
  of the interface; else `NULL` is returned with no thread -/
  single : ∀ intfDesc, candidatesOf (makePath dev i) dev = [intfDesc] →
    (∃ c ∈ r.2, Refuses c) ∧ r.1 = none ∧ (handles r.2).2.2 = 0 ∨
      (∀ c ∈ r.2, ¬ Refuses c) ∧
        r.1 = some (store { newHidDevice with deviceHandle := some d } dev.desc intfDesc) ∧ (handles r.2).2.2 = 1

/-- With one altsetting at most, a device is returned exactly if it has an
active configuration with the interface and libusb refuses nothing. -/
theorem OpensInterface.isSome_iff {d : Nat} {dev : UsbDevice} {i : UInt8} {r : Option HidHandle × List (UsbCall × Int)}
    (h : OpensInterface d dev i r) (hconfigured : dev.activeConfig ≠ none → candidatesOf (makePath dev i) dev ≠ [])
    (hsingle : (candidatesOf (makePath dev i) dev).length ≤ 1) :
    r.1.isSome ↔ dev.activeConfig ≠ none ∧ ∀ c ∈ r.2, ¬ Refuses c := by
  constructor
  · intro hsome
    have hactive : dev.activeConfig ≠ none := by
      intro hnone
      rw [h.unconfigured hnone] at hsome
      cases hsome
    obtain ⟨intfDesc, hone⟩ := List.length_eq_one_iff.1
      (Nat.le_antisymm hsingle (List.length_pos_iff.2 (hconfigured hactive)))
    rcases h.single intfDesc hone with ⟨-, hnull, -⟩ | ⟨hallowed, -, -⟩
    · rw [hnull] at hsome
      cases hsome
    · exact ⟨hactive, hallowed⟩
  · rintro ⟨hactive, hallowed⟩
    exact h.allowed (hconfigured hactive) hallowed

theorem hidOpenPath_opens {devs : List UsbDevice} (hdevs : Identified devs) {d : Nat} {dev : UsbDevice}
    (hdev : devs[d]? = some dev) (i : UInt8) (usb : Libusb) :
    OpensInterface d dev i (hidOpenPath usb devs (makePath dev i)) := by
  have hadvances : ∀ d' dev', devs[d']? = some dev' → ∀ intfDesc ∈ candidatesOf (makePath dev i) dev',
      Advances usb (Attempted d i) d' dev' intfDesc := by
    intro d' dev' hdev' intfDesc hmem n o ho
    obtain ⟨rfl, hi⟩ := identified_candidate hdevs hdev hdev' hmem
    have hnext := ho.next hi (openInterface_attempt usb o d' dev'.desc intfDesc)
    exact ⟨fun _ => hnext _, fun _ m _ => hnext m⟩
  have hstart : Attempted d i 0 .start :=
    ⟨fun _ hc => absurd hc List.not_mem_nil, rfl, rfl, nofun, nofun, nofun⟩
  have hall := openDevices_count hadvances hstart
  have hcandidates := candidates_of_identified hdevs hdev i
  rw [hcandidates] at hall
  refine ⟨hall.on, hall.balanced, fun hnone => ?_, fun hne => hall.tried (List.length_pos_iff.2 hne), ?_, fun h hsome => ?_,
    fun hne hallowed => ?_, fun intfDesc hsingle => ?_⟩
  · have hempty : candidatesOf (makePath dev i) dev = [] := by rw [candidatesOf, hnone]
    rw [hempty] at hcandidates
    have hle : (candidates (makePath dev i) devs).length ≤ 1 := by rw [hcandidates]; exact Nat.zero_le 1
    rcases openDevices_single usb (makePath dev i) hle with ⟨hstart, -⟩ | ⟨d', dev', intfDesc, _, hdev', hmem, -⟩
    · rw [hidOpenPath, hstart]
      rfl
    · obtain ⟨rfl, -⟩ := identified_candidate hdevs hdev hdev' hmem
      rw [hdev, Option.some_inj] at hdev'
      rw [← hdev', hempty] at hmem
      cases hmem
  · rw [hidOpenPath, ← hall.kept]
    cases (openDevices usb (makePath dev i) 0 devs .start).goodOpen <;> rfl
  · rw [hidOpenPath] at hsome
    dsimp only at hsome
    split at hsome
    · next hgood =>
      obtain rfl := Option.some.inj hsome
      exact hall.claimed hgood
    · cases hsome
  · rw [hidOpenPath, if_pos (hall.allowed (List.length_pos_iff.2 hne) hallowed)]
    rfl
  · rw [hsingle] at hcandidates
    have hle : (candidates (makePath dev i) devs).length ≤ 1 := by rw [hcandidates]; exact Nat.le_refl 1
    rcases openDevices_single usb (makePath dev i) hle with ⟨-, hnil⟩ | ⟨d', dev', intfDesc', _, hdev', hmem, hattempt⟩
    · rw [hnil] at hcandidates
      cases hcandidates
    · obtain ⟨rfl, -⟩ := identified_candidate hdevs hdev hdev' hmem
      rw [hdev, Option.some_inj] at hdev'
      subst hdev'
      rw [hsingle, List.mem_singleton] at hmem
      subst hmem
      unfold hidOpenPath
      generalize openDevices usb (makePath dev i) 0 devs .start = o at hattempt
      cases hattempt with
      | refused _ hhandles _ refuses | gaveUp _ hhandles _ refuses => exact .inl ⟨refuses, rfl, congrArg (·.2.2) hhandles⟩
      | started _ hhandles _ _ allowed => exact .inr ⟨allowed, rfl, congrArg (·.2.2) hhandles⟩

/-! ## Enumeration and opening -/

/-- A record is about a HID interface of a device with these ids. Where the
device has no active configuration, it is its first one that was looked at. -/
theorem mem_hidEnumerate {vendorId productId : UInt16} {devs : List UsbDevice} {info : HidDeviceInfo}
    (h : info ∈ hidEnumerate vendorId productId devs) :
    ∃ (d : Nat) (dev : UsbDevice) (i : UInt8), devs[d]? = some dev ∧ matchesIds vendorId productId dev.desc = true ∧
      info = ⟨makePath dev i, 0, 0, .ofNat i.toNat⟩ ∧
      ∃ confDesc, (dev.activeConfig <|> dev.config0) = some confDesc ∧
        ∃ intfDesc ∈ confDesc.interface.flatten, intfDesc.bInterfaceClass = 3 ∧ intfDesc.bInterfaceNumber = i := by
  obtain ⟨dev, hdev, hinfo⟩ := List.mem_flatMap.1 h
  obtain ⟨d, hd⟩ := List.getElem?_of_mem hdev
  unfold enumerateDevice at hinfo
  split at hinfo
  · cases hinfo
  · split at hinfo
    · cases hinfo
    · next confDesc hconf =>
      obtain ⟨altsetting, hinterface, hinfo⟩ := List.mem_flatMap.1 hinfo
      obtain ⟨intfDesc, hintfDesc, hrecord⟩ := List.mem_filterMap.1 hinfo
      split at hrecord
      · next hmatch =>
        refine ⟨d, dev, intfDesc.bInterfaceNumber, hd, hmatch.2, (Option.some.inj hrecord).symm, confDesc, hconf,
          intfDesc, ?_, hmatch.1, rfl⟩
        exact List.mem_flatten.2 ⟨altsetting, hinterface, hintfDesc⟩
      · cases hrecord

/-- A record is about interface 2 of the TouchMouse at `d`, and no other device
has its path. Where the device has an active configuration, that has the
interface. -/
structure Lists (devs : List UsbDevice) (info : HidDeviceInfo) (d : Nat) (dev : UsbDevice) : Prop where
  device : devs[d]? = some dev
  ids : dev.desc.idVendor = 0x045e ∧ dev.desc.idProduct = 0x0773
  path : info.path = makePath dev 2
  unique : ∀ d' dev' i, devs[d']? = some dev' → info.path = makePath dev' i → d' = d ∧ i = 2
  configured : dev.activeConfig ≠ none → candidatesOf (makePath dev 2) dev ≠ []

/-- **To open what was listed.** Where bus number and address identify the
devices, each record that the library lists as a TouchMouse is about
interface 2 of one device with its vendor and product id, and to open its
path is to open that interface and no other, whatever libusb returns. Where
the interface has one altsetting it is returned exactly if the device has an
active configuration and libusb opens it, detaches the kernel's driver and lets
the interface be claimed. -/
theorem open_listed {devs : List UsbDevice} (hdevs : Identified devs) {info : HidDeviceInfo}
    (hlisted : info ∈ (hidEnumerate 0x045e 0x0773 devs).filter HidPlatform.other.isTouchMouse) :
    ∃ (d : Nat) (dev : UsbDevice), Lists devs info d dev ∧
      ∀ usb, let r := hidOpenPath usb devs info.path
        OpensInterface d dev 2 r ∧
          ((candidatesOf info.path dev).length ≤ 1 →
            (r.1.isSome ↔ dev.activeConfig ≠ none ∧ ∀ c ∈ r.2, ¬ Refuses c)) := by
  obtain ⟨hinfo, hmouse⟩ := List.mem_filter.1 hlisted
  obtain ⟨d, dev, i, hdev, hids, rfl, confDesc, hconf, intfDesc, hintfDesc, hclass, hi⟩ := mem_hidEnumerate hinfo
  have hnumber : Int32.ofNat i.toNat = 2 := eq_of_beq hmouse
  have htwo : i = 2 := by
    have hint := congrArg Int32.toInt hnumber
    rw [Int32.toInt_ofNat_of_lt (Nat.lt_trans i.toNat_lt (by decide))] at hint
    exact UInt8.toNat_inj.1 (Int.ofNat_inj.1 hint)
  subst htwo
  rw [matchesIds, decide_eq_true_eq] at hids
  obtain ⟨hvendor, hproduct⟩ := hids.resolve_left (by decide)
  have hconfigured : dev.activeConfig ≠ none → candidatesOf (makePath dev 2) dev ≠ [] := by
    intro hactive
    obtain ⟨active, hsome⟩ := Option.ne_none_iff_exists'.1 hactive
    obtain rfl : active = confDesc := by rw [hsome] at hconf; exact Option.some.inj hconf
    have hmem : intfDesc ∈ candidatesOf (makePath dev 2) dev :=
      mem_candidatesOf.2 ⟨active, hsome, hintfDesc, hclass, by rw [hi]⟩
    exact List.ne_nil_of_mem hmem
  refine ⟨d, dev, ⟨hdev, ⟨hvendor.symm, hproduct.symm⟩, rfl, fun d' dev' i hdev' hpath => ?_, hconfigured⟩, fun usb => ?_⟩
  · obtain ⟨hbus, haddress, hi⟩ := makePath_inj hpath
    exact ⟨hdevs.index hdev' hdev hbus.symm haddress.symm, hi.symm⟩
  · have hopens := hidOpenPath_opens hdevs hdev 2 usb
    exact ⟨hopens, hopens.isSome_iff hconfigured⟩

/-- A TouchMouse among other devices. -/
def touchMouse : UsbDevice :=
  let intf (n : UInt8) : List InterfaceDescriptor := [⟨n, 3, [⟨0x81 + n, 0x03, 32⟩]⟩]
  ⟨3, 7, ⟨0, 0x045e, 0x0773, 1, 2, 0⟩, some ⟨[intf 0, intf 1, intf 2]⟩, none⟩

def touchMouseBus : List UsbDevice := [⟨3, 1, ⟨9, 0x1d6b, 2, 0, 0, 0⟩, none, none⟩, touchMouse]

theorem open_listed_touchMouse :
    let r := hidOpenPath (fun _ _ => 0) touchMouseBus "0003:0007:02"
    (∃ (d : Nat) (dev : UsbDevice), Lists touchMouseBus ⟨"0003:0007:02", 0, 0, 2⟩ d dev ∧ OpensInterface d dev 2 r) ∧
      r.1 = some ⟨some 1, 0x83, 0, 32, 2, 1, 2, 0⟩ := by
  intro r
  have hlisted : (⟨"0003:0007:02", 0, 0, 2⟩ : HidDeviceInfo) ∈
      (hidEnumerate 0x045e 0x0773 touchMouseBus).filter HidPlatform.other.isTouchMouse := by
    decide +kernel
  obtain ⟨d, dev, hlists, hopens⟩ := open_listed (by decide +kernel) hlisted
  exact ⟨⟨d, dev, hlists, (hopens _).1⟩, by decide +kernel⟩

/-! ## Two altsettings with the path -/

/-- A read thread was started. -/
def threadRuns (calls : List (UsbCall × Int)) : Bool := calls.any (·.1.isReadThread)

theorem threadRuns_append (calls calls' : List (UsbCall × Int)) :
    threadRuns (calls ++ calls') = (threadRuns calls || threadRuns calls') := List.any_append

theorem threadRuns_singleton (c : UsbCall × Int) : threadRuns [c] = c.1.isReadThread := Bool.or_false _

/-- A bus where an interface can be claimed once. -/
def claimOnce : Libusb := fun calls c =>
  match c with
  | .claimInterface _ _ => if threadRuns calls then -1 else 0
  | _ => 0

theorem openInterface_claimOnce (o : Opening) (d : Nat) (desc : DeviceDescriptor) (intfDesc : InterfaceDescriptor) :
    let r := o.openInterface claimOnce d desc intfDesc
    (threadRuns o.calls = false → r.2 = true ∧ r.1.goodOpen = true) ∧
      (threadRuns o.calls = true → r.2 = false ∧ r.1.goodOpen = false) ∧
      threadRuns r.1.calls = true := by
  unfold openInterface claim giveUp call
  cases h : threadRuns o.calls <;>
    simp [claimOnce, threadRuns_append, threadRuns_singleton, UsbCall.isReadThread, h, -List.append_assoc]

/-- After the first altsetting a thread runs and the open was good; after the
second the thread still runs and the open was not. -/
theorem openDevices_claimOnce {path : String} {devs : List UsbDevice} (hmany : 2 ≤ (candidates path devs).length) :
    let o := openDevices claimOnce path 0 devs .start
    o.goodOpen = false ∧ threadRuns o.calls = true := by
  let Q : Nat → Opening → Prop
    | 0, o => threadRuns o.calls = false
    | 1, o => o.goodOpen = true ∧ threadRuns o.calls = true
    | _, o => o.goodOpen = false ∧ threadRuns o.calls = true
  have hadvances : ∀ d dev, devs[d]? = some dev → ∀ intfDesc ∈ candidatesOf path dev,
      Advances claimOnce Q d dev intfDesc := by
    intro d dev _ intfDesc _ n o ho
    obtain ⟨hfirst, hlater, hthread⟩ := openInterface_claimOnce o d dev.desc intfDesc
    have hrunning : 0 < n → threadRuns o.calls = true := by
      intro hn
      match n, hn, ho with
      | 1, _, ho => exact ho.2
      | n + 2, _, ho => exact ho.2
    rcases Nat.eq_zero_or_pos n with rfl | hn
    · obtain ⟨hgoesOn, hgood⟩ := hfirst ho
      exact ⟨fun _ => ⟨hgood, hthread⟩, fun h => absurd (hgoesOn.symm.trans h) Bool.false_ne_true.symm⟩
    · obtain ⟨hbreak, hbad⟩ := hlater (hrunning hn)
      refine ⟨fun h => absurd (hbreak.symm.trans h) Bool.false_ne_true, fun _ m hm => ?_⟩
      match m, hm with
      | 1, hm => omega
      | m + 2, _ => exact ⟨hbad, hthread⟩
  have hall := openDevices_count hadvances rfl
  match (candidates path devs).length, hmany, hall with
  | n + 2, _, hall => exact hall

/-- **`NULL` and the read thread.** That `hid_open_path` returns `NULL` only
with no thread running on the device that it freed, whatever libusb returns,
is exactly that no two altsettings have the path. -/
theorem null_leaves_no_thread_iff (path : String) (devs : List UsbDevice) :
    (∀ usb, (hidOpenPath usb devs path).1 = none → (handles (hidOpenPath usb devs path).2).2.2 = 0) ↔
      (candidates path devs).length ≤ 1 := by
  constructor
  · intro h
    by_contra hmany
    obtain ⟨hbad, hthread⟩ := openDevices_claimOnce (Nat.lt_of_not_le hmany)
    have hnone : (hidOpenPath claimOnce devs path).1 = none := by
      rw [hidOpenPath, hbad]
      rfl
    have hzero : (openDevices claimOnce path 0 devs .start).calls.countP (·.1.isReadThread) = 0 := h claimOnce hnone
    obtain ⟨c, hc, hcall⟩ := List.any_eq_true.1 hthread
    exact absurd hcall (List.countP_eq_zero.1 hzero c hc)
  · intro hsingle usb hnone
    rcases openDevices_single usb path hsingle with ⟨hstart, -⟩ | ⟨d, dev, intfDesc, _, -, -, hattempt⟩
    · rw [hidOpenPath, hstart]
      rfl
    · unfold hidOpenPath at hnone ⊢
      generalize openDevices usb path 0 devs .start = o at hattempt hnone
      cases hattempt with
      | refused on hhandles | gaveUp on hhandles => exact congrArg (·.2.2) hhandles
      | started on hhandles => cases hnone

end Linux
end TouchMouse
