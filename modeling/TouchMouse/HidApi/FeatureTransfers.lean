import TouchMouse.Model.FeatureReports
import Mathlib.Logic.Function.Basic

/-!
# What a device keeps of the reports that are sent

What the transfers do is assumed, of libusb and of IOKit each: what the device
has as a feature report is what a transfer took of it, if it took all, and a
transfer that fetches it delivers it from its start. Then either back end keeps
the reports that a program sends (`FeatureBackend.Keeps`), and fetches those
with a number with their number. On the Mac one without a number is stored over
the byte of the number.
-/

namespace TouchMouse

variable {σ : Type}

/-! ## Buffers -/

/-- What of a buffer is sent. -/
def payload : List UInt8 → List UInt8
  | [] => []
  | first :: rest => if first = 0 then rest else first :: rest

/-- A feature report as a program has it, its number first, of those that a
device has. -/
def featureReport (reports : UInt8 → List UInt8) (number : UInt8) : List UInt8 :=
  if number = 0 then 0 :: reports 0 else reports number

/-- What a back end does with the reports of a device. Those of this number
are fetched with their number. -/
structure FeatureBackend.Keeps (b : FeatureBackend σ) (report : σ → UInt8 → List UInt8) (number : UInt8) : Prop where
  write : ∀ {data s sent s'}, b.hidWrite data s = some (sent, s') → report s' = report s
  send : ∀ {data s sent s'}, b.hidSendFeatureReport data s = some (sent, s') →
    (sent = ⟨-1, none⟩ ∧ report s' = report s) ∨
      ∃ first rest k, data = first :: rest ∧ sent = ⟨.ofNat (rest.length + 1), some k⟩ ∧
        (k = (payload (first :: rest)).length → report s' first = payload (first :: rest)) ∧
        ∀ n ≠ first, report s' n = report s n
  fetch : ∀ {data s r s'}, b.hidGetFeatureReport data s = some (r, s') → report s' = report s
  get : ∀ {rest s ret received s'}, b.hidGetFeatureReport (number :: rest) s = some ((ret, received), s') → ret ≠ -1 →
    ∃ k ≤ (featureReport (report s) number).length, k ≤ rest.length + 1 ∧ ret = .ofNat k ∧
      received = storeBytes (number :: rest) ((featureReport (report s) number).take k)

/-! ## Linux -/

namespace Linux

/-- A request of the HID class about the feature report with a number, of the
interface. -/
def ControlSetup.IsFeature (setup : ControlSetup) (bmRequestType bRequest : UInt8) (dev : HidHandle) (number : UInt8) :
    Prop :=
  setup.bmRequestType = bmRequestType ∧ setup.bRequest = bRequest ∧ setup.wValue.toNat = 0x300 + number.toNat ∧
    setup.wIndex = dev.interface.toUInt16

/-- What is assumed of libusb and of the device, whose feature reports are
`report`. -/
structure KeepsReports (usb : Transfers σ) (dev : HidHandle) (report : σ → UInt8 → List UInt8) : Prop where
  /-- a `Set_Report` that takes all bytes of a report stores it -/
  stores : ∀ setup number data s, setup.IsFeature 0x21 0x09 dev number →
    (usb.controlTransfer setup data s).1.1.toInt = data.length → report (usb.controlTransfer setup data s).2 number = data
  /-- and one that fails stores nothing -/
  refuses : ∀ setup number data s, setup.IsFeature 0x21 0x09 dev number →
    (usb.controlTransfer setup data s).1.1 < 0 → report (usb.controlTransfer setup data s).2 number = report s number
  /-- no other transfer changes a feature report -/
  others : ∀ setup number data s, ¬ setup.IsFeature 0x21 0x09 dev number →
    report (usb.controlTransfer setup data s).2 number = report s number
  interrupt : ∀ endpoint data s, report (usb.interruptTransfer endpoint data s).2 = report s
  /-- a `Get_Report` delivers the report from its start, and returns how much of it -/
  delivers : ∀ setup number data s, setup.IsFeature 0xa1 0x01 dev number → 0 ≤ (usb.controlTransfer setup data s).1.1 →
    ∃ k ≤ (report s number).length, k ≤ setup.wLength.toNat ∧
      (usb.controlTransfer setup data s).1 = (.ofNat k, (report s number).take k)

theorem wValue_toNat (kind : UInt16) (hkind : kind.toNat < 256) (number : UInt8) :
    (kind <<< 8 ||| number.toUInt16).toNat = kind.toNat * 256 + number.toNat := by
  have hshift : (kind <<< 8).toNat = kind.toNat <<< 8 := by
    rw [UInt16.toNat_shiftLeft]
    apply Nat.mod_eq_of_lt
    rw [Nat.shiftLeft_eq]
    simp
    omega
  rw [UInt16.toNat_or, hshift, UInt8.toNat_toUInt16, ← Nat.shiftLeft_add_eq_or_of_lt number.toNat_lt, Nat.shiftLeft_eq]

variable {usb : Transfers σ} {dev : HidHandle} {report : σ → UInt8 → List UInt8}

/-- A request for a report names that report, if it is for a feature report. -/
theorem isFeature_iff {bmRequestType bRequest : UInt8} {kind : UInt16} (hkind : kind.toNat < 256) {n number : UInt8}
    {wLength : UInt16} :
    (ControlSetup.mk bmRequestType bRequest (kind <<< 8 ||| n.toUInt16) dev.interface.toUInt16 wLength).IsFeature
        bmRequestType bRequest dev number ↔ kind = 3 ∧ n = number := by
  have hn := n.toNat_lt
  have hnumber := number.toNat_lt
  simp only [ControlSetup.IsFeature, wValue_toNat kind hkind, true_and, and_true, ← UInt16.toNat_inj, ← UInt8.toNat_inj]
  simp
  omega

theorem setReport_eq (kind : UInt16) (first : UInt8) (data : List UInt8) (skipped : Nat) (s : σ) :
    setReport usb dev kind first data skipped s =
      let r := usb.controlTransfer
        ⟨requestOut, 0x09, kind <<< 8 ||| first.toUInt16, dev.interface.toUInt16, .ofNat data.length⟩ data s
      (if r.1.1 < 0 then ⟨-1, none⟩ else ⟨.ofNat (data.length + skipped), some r.1.1.toNatClampNeg⟩, r.2) :=
  (apply_ite (fun sent : Sent => (sent, _)) _ _ _).symm

/-- A `Set_Report` of another kind changes no feature report. -/
theorem setReport_others (h : KeepsReports usb dev report) {kind : UInt16} (hkind : kind.toNat < 256) {first number : UInt8}
    (hne : ¬ (kind = 3 ∧ first = number)) {data : List UInt8} {skipped : Nat} {s s' : σ} {sent : Sent}
    (hset : setReport usb dev kind first data skipped s = (sent, s')) : report s' number = report s number := by
  rw [setReport_eq] at hset
  obtain ⟨-, rfl⟩ := Prod.mk.inj hset
  exact h.others _ _ _ _ fun his => hne ((isFeature_iff hkind).1 his)

theorem setReport_feature (h : KeepsReports usb dev report) {first : UInt8} {data : List UInt8} {skipped : Nat} {s s' : σ}
    {sent : Sent} (hset : setReport usb dev 3 first data skipped s = (sent, s')) :
    (sent = ⟨-1, none⟩ ∧ report s' = report s) ∨
      ∃ k, sent = ⟨.ofNat (data.length + skipped), some k⟩ ∧ (k = data.length → report s' first = data) ∧
        ∀ n ≠ first, report s' n = report s n := by
  have hothers : ∀ n ≠ first, report s' n = report s n :=
    fun n hne => setReport_others h (by decide) (fun hsame => hne hsame.2.symm) hset
  have his : (ControlSetup.mk requestOut 0x09 ((3 : UInt16) <<< 8 ||| first.toUInt16) dev.interface.toUInt16
      (.ofNat data.length)).IsFeature 0x21 0x09 dev first := (isFeature_iff (by decide)).2 ⟨rfl, rfl⟩
  have hrefuses := h.refuses _ _ data s his
  have hstores := h.stores _ _ data s his
  rw [setReport_eq] at hset
  generalize usb.controlTransfer _ data s = r at hset hrefuses hstores
  obtain ⟨hsent, rfl⟩ := Prod.mk.inj hset
  by_cases hneg : r.1.1 < 0
  · refine .inl ⟨by rw [← hsent, if_pos hneg], funext fun n => ?_⟩
    by_cases hn : n = first
    · rw [hn]
      exact hrefuses hneg
    · exact hothers n hn
  · refine .inr ⟨r.1.1.toNatClampNeg, by rw [← hsent, if_neg hneg], fun hwhole => hstores ?_, hothers⟩
    rw [← Int32.cast_toNatClampNeg _ (Int32.not_lt.1 hneg), hwhole]

theorem interruptOut_report (h : KeepsReports usb dev report) {data : List UInt8} {skipped : Int32} {s s' : σ}
    {sent : Sent} (hout : interruptOut usb dev data skipped s = (sent, s')) : report s' = report s := by
  have hsame := h.interrupt dev.outputEndpoint data s
  unfold interruptOut at hout
  generalize usb.interruptTransfer dev.outputEndpoint data s = r at hout hsame
  dsimp only at hout
  split at hout <;> cases hout <;> exact hsame

theorem getReport_feature (h : KeepsReports usb dev report) {number : UInt8} {data received : List UInt8} {res : Int32}
    {s s' : σ} (hget : getReport usb dev number data s = ((res, received), s')) :
    report s' = report s ∧
      (0 ≤ res → ∃ k ≤ (report s number).length, k ≤ data.length ∧ k < 65536 ∧ res = .ofNat k ∧
        received = storeBytes data ((report s number).take k)) := by
  let setup : ControlSetup :=
    ⟨requestIn, 0x01, (3 : UInt16) <<< 8 ||| number.toUInt16, dev.interface.toUInt16, .ofNat data.length⟩
  have hfetches : setup.IsFeature 0xa1 0x01 dev number := (isFeature_iff (by decide)).2 ⟨rfl, rfl⟩
  have hsets : ∀ n, ¬ setup.IsFeature 0x21 0x09 dev n := fun n hset => nomatch hset.1
  have hsame : ∀ n, report (usb.controlTransfer setup data s).2 n = report s n := fun n => h.others setup n data s (hsets n)
  have hdelivers := h.delivers _ _ data s hfetches
  have hroom : setup.wLength.toNat ≤ data.length ∧ setup.wLength.toNat < 65536 :=
    ⟨Nat.mod_le data.length 65536, setup.wLength.toNat_lt⟩
  unfold getReport at hget
  generalize usb.controlTransfer setup data s = r at hget hsame hdelivers
  cases hget
  refine ⟨funext hsame, fun hnonneg => ?_⟩
  obtain ⟨k, hk, hlength, htransfer⟩ := hdelivers hnonneg
  obtain ⟨hres, hbytes⟩ := Prod.mk.inj htransfer
  exact ⟨k, hk, Nat.le_trans hlength hroom.1, Nat.lt_of_le_of_lt hlength hroom.2, hres, by rw [hbytes]⟩

theorem keeps (h : KeepsReports usb dev report) (number : UInt8) : (featureBackend usb dev).Keeps report number where
  write := by
    intro data s sent s' hwrite
    cases data with
    | nil => cases hwrite
    | cons first rest =>
      simp only [featureBackend, hidWrite] at hwrite
      split at hwrite <;> split at hwrite <;> replace hwrite := Option.some.inj hwrite
      · exact funext fun n => setReport_others h (by decide) (by simp) hwrite
      · exact funext fun n => setReport_others h (by decide) (by simp) hwrite
      · exact interruptOut_report h hwrite
      · exact interruptOut_report h hwrite
  send := by
    intro data s sent s' hsend
    cases data with
    | nil => cases hsend
    | cons first rest =>
      obtain ⟨data, skipped, hlength, hpayload, hset⟩ : ∃ data skipped, data.length + skipped = rest.length + 1 ∧
          payload (first :: rest) = data ∧ setReport usb dev 3 first data skipped s = (sent, s') := by
        simp only [featureBackend, hidSendFeatureReport] at hsend
        split at hsend
        · next hzero => exact ⟨rest, 1, rfl, if_pos hzero, Option.some.inj hsend⟩
        · next hnumber => exact ⟨first :: rest, 0, rfl, if_neg hnumber, Option.some.inj hsend⟩
      rcases setReport_feature h hset with hrefused | ⟨k, hsent, hkept⟩
      · exact .inl hrefused
      · rw [hlength] at hsent
        rw [← hpayload] at hkept
        exact .inr ⟨first, rest, k, rfl, hsent, hkept⟩
  fetch := by
    intro data s r s' hget
    cases data with
    | nil => cases hget
    | cons n rest =>
      simp only [featureBackend, hidGetFeatureReport] at hget
      split at hget
      · generalize hr : getReport usb dev n rest s = r at hget
        cases hget
        exact (getReport_feature h hr).1
      · generalize hr : getReport usb dev n (n :: rest) s = r at hget
        cases hget
        exact (getReport_feature h hr).1
  get := by
    intro rest s ret received s' hget hret
    simp only [featureBackend, hidGetFeatureReport] at hget
    split at hget
    · next hzero =>
      generalize hr : getReport usb dev number rest s = r at hget
      cases hget
      have hnonneg : ¬ r.1.1 < 0 := fun hneg => hret (if_pos hneg)
      obtain ⟨k, hk, hroom, hlt, hres, hreceived⟩ := (getReport_feature h hr).2 (Int32.not_lt.1 hnonneg)
      subst hzero
      rw [if_neg hnonneg, hres, hreceived, featureReport, if_pos rfl]
      exact ⟨k + 1, Nat.succ_le_succ hk, Nat.succ_le_succ hroom, (Int32.ofNat_add k 1).symm, rfl⟩
    · next hnumber =>
      generalize hr : getReport usb dev number (number :: rest) s = r at hget
      cases hget
      have hnonneg : ¬ r.1.1 < 0 := fun hneg => hret (if_pos hneg)
      obtain ⟨k, hk, hroom, -, hres, hreceived⟩ := (getReport_feature h hr).2 (Int32.not_lt.1 hnonneg)
      rw [if_neg hnonneg, hres, hreceived, featureReport, if_neg hnumber]
      exact ⟨k, hk, hroom, rfl, rfl⟩

end Linux

/-! ## The Mac -/

namespace Mac

/-- What is assumed of IOKit and of the device, whose feature reports are
`report`. -/
structure KeepsReports (io : Transfers σ) (report : σ → UInt8 → List UInt8) : Prop where
  disconnected : ∀ {s}, report (io.disconnected s).2 = report s
  /-- a feature report that is set is stored -/
  stores : ∀ {number data s}, (io.setReport .feature number data s).1 = 0 →
    report (io.setReport .feature number data s).2 number = data
  /-- and one that could not be set is not -/
  refuses : ∀ {number data s}, (io.setReport .feature number data s).1 ≠ 0 →
    report (io.setReport .feature number data s).2 number = report s number
  /-- no other call changes a feature report -/
  others : ∀ {number n data s}, n ≠ number → report (io.setReport .feature number data s).2 n = report s n
  output : ∀ {number data s}, report (io.setReport .output number data s).2 = report s
  fetch : ∀ {number data s}, report (io.getReport .feature number data s).2 = report s
  /-- a feature report that was got is delivered from its start, with how much of it -/
  delivers : ∀ {number data s}, (io.getReport .feature number data s).1.1 = 0 →
    ∃ k ≤ (report s number).length, k ≤ data.length ∧
      (io.getReport .feature number data s).1.2 = ((report s number).take k, .ofNat k)

variable {io : Transfers σ} {report : σ → UInt8 → List UInt8}

theorem disconnected_report (h : KeepsReports io report) {s mid : σ} {disconnected : Bool}
    (hread : io.disconnected s = (disconnected, mid)) : report mid = report s := by
  rw [← h.disconnected (s := s), hread]

/-- What `set_report` can do: nothing, on a device that is gone, or a call. -/
theorem setReport_cases (h : KeepsReports io report) {type : ReportType} {data : List UInt8} {s s' : σ} {sent : Sent}
    (hset : setReport io type data s = some (sent, s')) :
    (sent = ⟨-1, none⟩ ∧ report s' = report s) ∨
      ∃ first rest mid, data = first :: rest ∧ report mid = report s ∧
        let r := io.setReport type first (payload (first :: rest)) mid
        s' = r.2 ∧ sent =
          if r.1 = 0 then ⟨.ofNat (rest.length + 1), some (payload (first :: rest)).length⟩ else ⟨-1, none⟩ := by
  unfold setReport at hset
  split at hset
  · next hgone =>
    cases hset
    exact .inl ⟨rfl, disconnected_report h hgone⟩
  · next mid hthere =>
    cases data with
    | nil => cases hset
    | cons first rest =>
      dsimp only at hset
      split at hset
      · next hgone =>
        cases hset
        exact .inl ⟨rfl, (disconnected_report h hgone).trans (disconnected_report h hthere)⟩
      · next mid' hthere' =>
        refine .inr ⟨first, rest, mid', rfl, (disconnected_report h hthere').trans (disconnected_report h hthere), ?_⟩
        change (if (io.setReport type first (payload (first :: rest)) mid').1 = 0 then _ else _) = _ at hset
        split at hset
        · next hres =>
          obtain ⟨rfl, rfl⟩ := Prod.mk.inj (Option.some.inj hset)
          exact ⟨rfl, (if_pos hres).symm⟩
        · next hres =>
          obtain ⟨rfl, rfl⟩ := Prod.mk.inj (Option.some.inj hset)
          exact ⟨rfl, (if_neg hres).symm⟩

theorem hidGetFeatureReport_connected {io : Transfers σ} {first : UInt8} {rest : List UInt8} {s mid : σ}
    (hread : io.disconnected s = (false, mid)) :
    hidGetFeatureReport io (first :: rest) s =
      let r := io.getReport .feature first (first :: rest) mid
      some ((if r.1.1 = 0 then r.1.2.2.toInt32 else -1, storeBytes (first :: rest) r.1.2.1), r.2) := by
  rw [hidGetFeatureReport, hread]

/-- What `hid_get_feature_report` can do. -/
theorem hidGetFeatureReport_cases (h : KeepsReports io report) {data received : List UInt8} {s s' : σ} {ret : Int32}
    (hget : hidGetFeatureReport io data s = some ((ret, received), s')) :
    (ret = -1 ∧ report s' = report s) ∨
      ∃ first rest mid, data = first :: rest ∧ report mid = report s ∧
        let r := io.getReport .feature first data mid
        s' = r.2 ∧ received = storeBytes data r.1.2.1 ∧ ret = if r.1.1 = 0 then r.1.2.2.toInt32 else -1 := by
  obtain ⟨disconnected, mid, hread⟩ : ∃ disconnected mid, io.disconnected s = (disconnected, mid) := ⟨_, _, rfl⟩
  cases disconnected with
  | true =>
    rw [hidGetFeatureReport, hread] at hget
    cases hget
    exact .inl ⟨rfl, disconnected_report h hread⟩
  | false =>
    cases data with
    | nil =>
      rw [hidGetFeatureReport, hread] at hget
      cases hget
    | cons first rest =>
      rw [hidGetFeatureReport_connected hread] at hget
      obtain ⟨hreturned, rfl⟩ := Prod.mk.inj (Option.some.inj hget)
      obtain ⟨rfl, rfl⟩ := Prod.mk.inj hreturned
      exact .inr ⟨first, rest, mid, rfl, disconnected_report h hread, rfl, rfl, rfl⟩

theorem keeps (h : KeepsReports io report) {number : UInt8} (hnumber : number ≠ 0) :
    (featureBackend io).Keeps report number where
  write := by
    intro data s sent s' hwrite
    rcases setReport_cases h hwrite with ⟨-, hsame⟩ | ⟨first, rest, mid, -, hmid, rfl, -⟩
    · exact hsame
    · exact h.output.trans hmid
  send := by
    intro data s sent s' hsend
    rcases setReport_cases h hsend with hrefused | ⟨first, rest, mid, hdata, hmid, rfl, hsent⟩
    · exact .inl hrefused
    · have hothers : ∀ n ≠ first, report (io.setReport .feature first (payload (first :: rest)) mid).2 n = report s n := by
        intro n hne
        rw [h.others hne, hmid]
      by_cases hres : (io.setReport .feature first (payload (first :: rest)) mid).1 = 0
      · rw [if_pos hres] at hsent
        exact .inr ⟨first, rest, _, hdata, hsent, fun _ => h.stores hres, hothers⟩
      · rw [if_neg hres] at hsent
        refine .inl ⟨hsent, funext fun n => ?_⟩
        by_cases hn : n = first
        · rw [hn, h.refuses hres, hmid]
        · exact hothers n hn
  fetch := by
    intro data s r s' hget
    rcases hidGetFeatureReport_cases h hget with ⟨-, hsame⟩ | ⟨first, rest, mid, -, hmid, rfl, -⟩
    · exact hsame
    · exact h.fetch.trans hmid
  get := by
    intro rest s ret received s' hget hret
    rcases hidGetFeatureReport_cases h hget with ⟨hgone, -⟩ | ⟨first, rest', mid, hdata, hmid, -, rfl, rfl⟩
    · exact absurd hgone hret
    · obtain ⟨rfl, rfl⟩ := List.cons.inj hdata
      have hres : (io.getReport .feature number (number :: rest) mid).1.1 = 0 := by
        by_contra hres
        exact hret (if_neg hres)
      obtain ⟨k, hk, hroom, htransfer⟩ := h.delivers hres
      obtain ⟨hbytes, hlen⟩ := Prod.mk.inj htransfer
      rw [if_pos hres, hlen, hbytes, ← hmid, featureReport, if_neg hnumber]
      exact ⟨k, hk, hroom, Int64.toInt32_ofNat', rfl⟩

end Mac

/-! ## Either back end -/

/-- A back end over transfers on a device whose feature reports are `report`.
On the Mac reports need a number. -/
inductive FeatureBackend.OnDevice (report : σ → UInt8 → List UInt8) (number : UInt8) : FeatureBackend σ → Prop where
  | linux {usb : Linux.Transfers σ} {dev : Linux.HidHandle} (h : Linux.KeepsReports usb dev report) :
      OnDevice report number (Linux.featureBackend usb dev)
  | mac {io : Mac.Transfers σ} (h : Mac.KeepsReports io report) (hnumber : number ≠ 0) :
      OnDevice report number (Mac.featureBackend io)

theorem FeatureBackend.OnDevice.keeps {b : FeatureBackend σ} {report : σ → UInt8 → List UInt8} {number : UInt8}
    (h : b.OnDevice report number) : b.Keeps report number := by
  cases h with
  | linux h => exact Linux.keeps h number
  | mac h hnumber => exact Mac.keeps h hnumber

/-! ## A device -/

theorem take_length_take {α : Type} (l : List α) (n : Nat) : l.take n = l.take (l.take n).length := by
  rw [List.length_take, ← List.take_eq_take_min]

namespace Linux

/-- A device for which the assumptions hold: its feature reports, and how many
bytes the next transfers take or deliver at most, `none` for one that fails.
Those after them are not limited. -/
structure Keeper where
  reports : UInt8 → List UInt8
  limits : List (Option Nat)

/-- The number of the feature report that a request is about. -/
def ControlSetup.feature? (setup : ControlSetup) (bmRequestType bRequest : UInt8) (dev : HidHandle) : Option UInt8 :=
  if setup.bmRequestType = bmRequestType ∧ setup.bRequest = bRequest ∧ setup.wValue.toNat / 256 = 3 ∧
      setup.wIndex = dev.interface.toUInt16 then some setup.wValue.toUInt8 else none

theorem ControlSetup.feature?_eq_some_iff {setup : ControlSetup} {bmRequestType bRequest : UInt8} {dev : HidHandle}
    {number : UInt8} :
    setup.feature? bmRequestType bRequest dev = some number ↔ setup.IsFeature bmRequestType bRequest dev number := by
  have hnumber := number.toNat_lt
  unfold feature? IsFeature
  rw [Option.ite_none_right_eq_some, Option.some_inj, ← UInt8.toNat_inj (a := setup.wValue.toUInt8),
    UInt16.toNat_toUInt8]
  constructor
  · rintro ⟨⟨htype, hrequest, hkind, hindex⟩, hlow⟩
    exact ⟨htype, hrequest, by omega, hindex⟩
  · rintro ⟨htype, hrequest, hvalue, hindex⟩
    exact ⟨⟨htype, hrequest, by omega, hindex⟩, by omega⟩

/-- Its transfers. A report that is not taken as a whole is dropped. -/
def Keeper.usb (dev : HidHandle) : Transfers Keeper where
  controlTransfer setup data s :=
    match s.limits.headD (some 65535) with
    | none => ((-1, []), { s with limits := s.limits.tail })
    | some limit =>
      let room := min limit setup.wLength.toNat
      match setup.feature? 0xa1 0x01 dev, setup.feature? 0x21 0x09 dev with
      | some number, _ =>
        let bytes := (s.reports number).take room
        ((.ofNat bytes.length, bytes), { s with limits := s.limits.tail })
      | none, some number =>
        ((.ofNat room, []),
          { s with
            reports := if room = data.length then Function.update s.reports number data else s.reports
            limits := s.limits.tail })
      | none, none => ((.ofNat room, []), { s with limits := s.limits.tail })
  interruptTransfer _ data s := ((0, .ofNat data.length), s)

end Linux

namespace Mac

/-- Such a device over IOKit. -/
def keeperIo : Transfers (UInt8 → List UInt8) where
  disconnected reports := (false, reports)
  setReport type number data reports :=
    (0, match type with | .output => reports | .feature => Function.update reports number data)
  getReport _ number data reports :=
    let bytes := (reports number).take data.length
    ((0, bytes, .ofNat bytes.length), reports)

theorem keeperIo_keepsReports : KeepsReports keeperIo id where
  disconnected := rfl
  stores := fun _ => Function.update_self ..
  refuses := fun h => absurd rfl h
  others := fun hne => Function.update_of_ne hne ..
  output := rfl
  fetch := rfl
  delivers := by
    intro number data reports _
    refine ⟨((reports number).take data.length).length, ?_, ?_, ?_⟩
    · rw [List.length_take]
      exact Nat.min_le_right _ _
    · rw [List.length_take]
      exact Nat.min_le_left _ _
    · exact congrArg (fun bytes => (bytes, Int64.ofNat ((reports number).take data.length).length)) (take_length_take _ _)

end Mac

example : (Mac.featureBackend Mac.keeperIo).OnDevice id 0x22 := .mac Mac.keeperIo_keepsReports (by decide)

end TouchMouse
